/-
  IpcWin.SharedMem.Resources

  The kernel resources that the two programs hold.

  Every call of `CreateEvent`, `OpenEvent`, `CreateFileMapping` and
  `OpenFileMapping` that succeeds returns a new handle, and every `MapViewOfFile`
  a new view.  The four mapping handles of a program are globals, which a later
  call overwrites; events and views are locals.  Neither program ever calls
  `CloseHandle` or `UnmapViewOfFile`.
-/

import IpcWin.SharedMem.Capacities

namespace IpcWin.SharedMem

open IpcWin.Lib IpcWin.Wire

/-! ## What is held -/

inductive EventName where
  | clientMadeRequestEvent
  | serverReadRequestEvent
  | serverMadeResponse
  | clientReadResponseEvent
deriving DecidableEq, Repr

inductive SectionName where
  | sizeOfDataRequest
  | clientMessageData
  | sizeOfData
  | serverMessageData
deriving DecidableEq, Repr

/-- A handle or a view, by the object it leads to. -/
inductive Resource where
  | event (name : EventName)
  | mapping (name : SectionName)
  | view (name : SectionName)
deriving DecidableEq, Repr

/-- The resource that the client's step from `c` to `c'` acquires.  A call that
    returned `NULL` acquires none; an `OpenEvent` that failed is made again. -/
def Client.acquires (c c' : Client) : Option Resource :=
  match c.pc with
  | .startCreateSize | .createSize =>
      if c'.rsizeMap then some (.mapping .sizeOfDataRequest) else none
  | .startCreateData | .createData =>
      if c'.rdataMap then some (.mapping .clientMessageData) else none
  | .startOpenSize | .openSize => if c'.sizeMap then some (.mapping .sizeOfData) else none
  | .startOpenData | .openData => if c'.dataMap then some (.mapping .serverMessageData) else none
  | .mapRequestSize => if c'.rsizeMapView then some (.view .sizeOfDataRequest) else none
  | .mapRequestData => if c'.rdataView then some (.view .clientMessageData) else none
  | .createMade => some (.event .clientMadeRequestEvent)
  | .openRead => some (.event .serverReadRequestEvent)
  | .openResponse => some (.event .serverMadeResponse)
  | .mapSize => if c'.sizeMapView then some (.view .sizeOfData) else none
  | .mapData => if c'.dataView then some (.view .serverMessageData) else none
  | .createReadResponse => some (.event .clientReadResponseEvent)
  | .build | .writeSize | .writeData | .setMade | .waitRead | .waitResponse | .readSize
  | .readData | .setReadResponse | .deliver => none

/-- The resource that the server's step from `s` to `s'` acquires. -/
def Server.acquires (s s' : Server) : Option Resource :=
  match s.pc with
  | .startOpenSize | .openSize =>
      if s'.requestSizeMap then some (.mapping .sizeOfDataRequest) else none
  | .startOpenData | .openData =>
      if s'.requestDataMap then some (.mapping .clientMessageData) else none
  | .startCreateSize | .createSize => if s'.sizeMap then some (.mapping .sizeOfData) else none
  | .startCreateData | .createData =>
      if s'.dataMap then some (.mapping .serverMessageData) else none
  | .openMade => some (.event .clientMadeRequestEvent)
  | .mapRequestSize => if s'.requestSizeMapView then some (.view .sizeOfDataRequest) else none
  | .mapRequestData => if s'.requestDataView then some (.view .clientMessageData) else none
  | .createRead => some (.event .serverReadRequestEvent)
  | .mapSize => if s'.sizeMapView then some (.view .sizeOfData) else none
  | .mapData => if s'.dataView then some (.view .serverMessageData) else none
  | .createResponse => some (.event .serverMadeResponse)
  | .openReadResponse => some (.event .clientReadResponseEvent)
  | .waitMade | .readSize | .readData | .setRead | .build | .writeSize | .writeData | .setResponse
  | .waitReadResponse => none

/-- What a program holds, every handle and view with the number of the call that has
    acquired it, or 0 if that was before the first one; the calls that have begun, and
    those that have returned. -/
structure Ledger where
  held : List (Nat × Resource)
  begun : Nat
  returned : Nat
deriving DecidableEq, Repr

def Ledger.start : Ledger := { held := [], begun := 0, returned := 0 }

/-- What is held after a step, which may begin a call, end one or acquire something:
    nothing is given back. -/
def Ledger.after (begins ends : Bool) (acquired : Option Resource) (l : Ledger) : Ledger :=
  let begun := l.begun + begins.toNat
  { held := l.held ++ (acquired.map fun r => (begun, r)).toList
    begun := begun
    returned := l.returned + ends.toNat }

/-- A call of `makeSharedMemoryRequest` begins with its builder and ends with the other
    one. -/
def Client.account (c c' : Client) : Ledger → Ledger :=
  Ledger.after (c.pc = .build) (c.pc = .deliver) (c.acquires c')

/-- A call of `replySharedMem` begins with the event of a request and ends with the wait
    for the client. -/
def Server.account (s s' : Server) : Ledger → Ledger :=
  Ledger.after (s.pc = .openMade) (s.pc = .waitReadResponse) (s.acquires s')

/-- The ledgers of both programs. -/
structure Held where
  client : Ledger
  server : Ledger
deriving DecidableEq, Repr

def Held.start : Held := { client := .start, server := .start }

def Held.after (s : State) (a : Proc) (s' : State) (h : Held) : Held :=
  match a with
  | .client => { h with client := s.client.account s'.client h.client }
  | .server => { h with server := s.server.account s'.server h.server }

/-- The conversation with the ledgers of the two programs. -/
def accounts (cfg : Config) : System (State × Held) Proc :=
  (conversation cfg).beside .start Held.after

/-! ## What should hold -/

/-- The client has globals for the mappings and for the views of its request. -/
def Client.global : Resource → Bool
  | .mapping _ | .view .sizeOfDataRequest | .view .clientMessageData => true
  | _ => false

/-- The server has globals for the mappings. -/
def Server.global : Resource → Bool
  | .mapping _ => true
  | _ => false

/-- Of what the calls that have returned acquired nothing is held, but for what is kept in
    a global and is not acquired again by the next call. -/
def Ledger.Balanced (global : Resource → Bool) (l : Ledger) : Prop :=
  ∀ e ∈ l.held, 1 ≤ e.1 → e.1 ≤ l.returned → global e.2 = true ∧ (e.1 + 1, e.2) ∉ l.held

instance (global : Resource → Bool) (l : Ledger) : Decidable (l.Balanced global) :=
  inferInstanceAs (Decidable (∀ e ∈ l.held, _ → _ → _))

/-- Neither program holds more than `bound` handles and views, and neither has any left
    over from a call that has returned. -/
structure Settled (bound : Nat) (s : State × Held) : Prop where
  client_le : s.2.client.held.length ≤ bound
  server_le : s.2.server.held.length ≤ bound
  client : s.2.client.Balanced Client.global
  server : s.2.server.Balanced Server.global

/-- The step ends no call. -/
def NoCallReturns (s : State × Held) (a : Proc) : Prop :=
  (a = .client → s.1.client.pc ≠ .deliver) ∧ (a = .server → s.1.server.pc ≠ .waitReadResponse)

instance (s : State × Held) (a : Proc) : Decidable (NoCallReturns s a) :=
  inferInstanceAs (Decidable ((_ → _) ∧ (_ → _)))

/-- One number bounds what each program holds, whatever has happened. -/
def HeldBounded (cfg : Config) : Prop :=
  ∃ B, ∀ s, Reachable (accounts cfg) s →
    s.2.client.held.length ≤ B ∧ s.2.server.held.length ≤ B

/-! ## What a round costs -/

/-- The most that the client has acquired at the start and in this round. -/
def ClientPc.atMost : ClientPc → Nat
  | .startCreateSize => 0
  | .startCreateData => 1
  | .startOpenSize => 2
  | .startOpenData => 3
  | .build | .createSize => 4
  | .createData => 5
  | .mapRequestSize => 6
  | .mapRequestData => 7
  | .writeSize | .writeData | .createMade => 8
  | .setMade | .openRead => 9
  | .waitRead | .openResponse => 10
  | .waitResponse | .openSize => 11
  | .openData => 12
  | .mapSize => 13
  | .readSize | .mapData => 14
  | .readData | .createReadResponse => 15
  | .setReadResponse | .deliver => 16

/-- The events that the client has opened in this round. -/
def ClientPc.events : ClientPc → Nat
  | .setMade | .openRead => 1
  | .waitRead | .openResponse => 2
  | .waitResponse | .openSize | .openData | .mapSize | .readSize | .mapData | .readData
  | .createReadResponse => 3
  | .setReadResponse | .deliver => 4
  | _ => 0

/-- The most that the server has acquired at the start and in this round. -/
def ServerPc.atMost : ServerPc → Nat
  | .startOpenSize => 0
  | .startOpenData => 1
  | .startCreateSize => 2
  | .startCreateData => 3
  | .openMade => 4
  | .waitMade | .openSize => 5
  | .openData => 6
  | .mapRequestSize => 7
  | .readSize | .mapRequestData => 8
  | .readData | .createRead => 9
  | .setRead | .build | .createSize => 10
  | .createData => 11
  | .mapSize => 12
  | .mapData => 13
  | .writeSize | .writeData | .createResponse => 14
  | .setResponse | .openReadResponse => 15
  | .waitReadResponse => 16

/-- The events that the server has opened in this round. -/
def ServerPc.events : ServerPc → Nat
  | .waitMade | .openSize | .openData | .mapRequestSize | .readSize | .mapRequestData | .readData
  | .createRead => 1
  | .setRead | .build | .createSize | .createData | .mapSize | .mapData | .writeSize | .writeData
  | .createResponse => 2
  | .setResponse | .openReadResponse => 3
  | .waitReadResponse => 4
  | _ => 0

theorem length_toList_ite {β : Type} (b : Bool) (x : β) :
    (if b = true then some x else none).toList.length ≤ 1 := by
  cases b <;> simp

/-- A step of the client acquires no more than its places differ by, and every event
    that it passes. -/
theorem Client.acquires_length {cfg : Config} {c c' : Client} {k k' : Kernel}
    (h : c.step cfg k = some (c', k')) :
    12 * c.handed.length + c.pc.atMost + (c.acquires c').toList.length ≤
        12 * c'.handed.length + c'.pc.atMost ∧
      4 * c'.handed.length + c'.pc.events ≤
        4 * c.handed.length + c.pc.events + (c.acquires c').toList.length := by
  cases hpc : c.pc <;> simp only [Client.step, hpc] at h
  case readSize | readData | writeSize | writeData =>
    split_ifs at h
    split at h <;> cases h <;>
      simp [acquires, crash, hpc, ClientPc.atMost, ClientPc.events]
  case build =>
    split_ifs at h
    cases h
    unfold build
    split_ifs <;> simp [acquires, hpc, ClientPc.atMost, ClientPc.events]
  case waitResponse =>
    split_ifs at h
    cases h
    unfold released
    split_ifs <;> simp [acquires, hpc, ClientPc.atMost, ClientPc.events]
  case deliver =>
    split_ifs at h
    cases h
    simp [acquires, hpc, ClientPc.atMost, ClientPc.events]
    omega
  case createMade | openRead | openResponse | createReadResponse =>
    split_ifs at h
    cases h
    simp [acquires, hpc, ClientPc.atMost, ClientPc.events]
  case setMade | waitRead | setReadResponse =>
    split_ifs at h
    cases h
    simp [acquires, hpc, ClientPc.atMost, ClientPc.events]
  -- every other step asks for a section or a view, and may get none
  all_goals
    split_ifs at h
    cases h
    simp only [acquires, hpc, ClientPc.atMost, ClientPc.events]
    refine ⟨?_, by omega⟩
    have hone := length_toList_ite (β := Resource)
    grind

/-- One if the server's step ends a round. -/
def ServerPc.ends (pc : ServerPc) : Nat := if pc = .waitReadResponse then 1 else 0

/-- A step of the server acquires no more than its places differ by, with the round that it
    ends, and every event that it passes. -/
theorem Server.acquires_length {cfg : Config} {s s' : Server} {k k' : Kernel}
    (h : s.step cfg k = some (s', k')) :
    s.pc.atMost + (s.acquires s').toList.length ≤ 12 * s.pc.ends + s'.pc.atMost ∧
      4 * s.pc.ends + s'.pc.events ≤ s.pc.events + (s.acquires s').toList.length := by
  cases hpc : s.pc <;> simp only [Server.step, hpc] at h
  case readSize | readData | writeSize | writeData =>
    split_ifs at h
    split at h <;> cases h <;>
      simp [acquires, crash, hpc, ServerPc.atMost, ServerPc.events, ServerPc.ends]
  case build =>
    split_ifs at h
    cases h
    unfold build
    split_ifs <;> simp [acquires, hpc, ServerPc.atMost, ServerPc.events, ServerPc.ends]
  case waitMade =>
    split_ifs at h
    cases h
    unfold released
    split_ifs <;> simp [acquires, hpc, ServerPc.atMost, ServerPc.events, ServerPc.ends]
  case openMade | createRead | createResponse | openReadResponse =>
    split_ifs at h
    cases h
    simp [acquires, hpc, ServerPc.atMost, ServerPc.events, ServerPc.ends]
  case setRead | setResponse | waitReadResponse =>
    split_ifs at h
    cases h
    simp [acquires, hpc, ServerPc.atMost, ServerPc.events, ServerPc.ends]
  -- every other step asks for a section or a view, and may get none
  all_goals
    split_ifs at h
    cases h
    simp only [acquires, hpc, ServerPc.atMost, ServerPc.events, ServerPc.ends]
    have hone := length_toList_ite (β := Resource)
    grind

/-- One while the reply to a request received is under way. -/
def ServerPc.replying (pc : ServerPc) : Nat :=
  match pc.phase with
  | .built | .sizeWritten | .replied => 1
  | _ => 0

/-- The server receives a request before it ends the round. -/
theorem Server.received_length {cfg : Config} {s s' : Server} {k k' : Kernel}
    (h : s.step cfg k = some (s', k')) :
    s.pc.ends + s'.pc.replying + s.received.length = s.pc.replying + s'.received.length := by
  cases hpc : s.pc <;> simp only [Server.step, hpc] at h
  case readSize | readData | writeSize | writeData =>
    split_ifs at h
    split at h <;> cases h <;>
      simp [crash, hpc, ServerPc.ends, ServerPc.replying, ServerPc.phase]
  case build =>
    split_ifs at h
    cases h
    unfold build
    split_ifs <;> simp [ServerPc.ends, ServerPc.replying, ServerPc.phase, Nat.add_comm]
  case waitMade =>
    split_ifs at h
    cases h
    unfold released
    split_ifs <;> simp [ServerPc.ends, ServerPc.replying, ServerPc.phase]
  all_goals
    split_ifs at h
    cases h
    simp [ServerPc.ends, ServerPc.replying, ServerPc.phase]

/-! ## The ledgers -/

theorem Ledger.length_after (begins ends : Bool) (acquired : Option Resource) (l : Ledger) :
    (l.after begins ends acquired).held.length = l.held.length + acquired.toList.length := by
  cases acquired <;> simp [Ledger.after]

/-- The client is in a call of `makeSharedMemoryRequest`. -/
def ClientPc.inCall : ClientPc → Bool
  | .startCreateSize | .startCreateData | .startOpenSize | .startOpenData | .build => false
  | _ => true

/-- The server is in a call of `replySharedMem`. -/
def ServerPc.inCall : ServerPc → Bool
  | .startOpenSize | .startOpenData | .startCreateSize | .startCreateData | .openMade => false
  | _ => true

/-- The calls in the client's ledger are those of its state, and the call that it is in has
    created its first event once the request is written. -/
structure ClientAccount (c : Client) (l : Ledger) : Prop where
  returned : l.returned = c.handed.length
  begun : l.begun = l.returned + c.pc.inCall.toNat
  event : 0 < c.pc.events → (l.begun, .event .clientMadeRequestEvent) ∈ l.held

/-- The calls in the server's ledger are those of its state, and the call that it is in has
    opened its first event at its very start. -/
structure ServerAccount (s : Server) (l : Ledger) : Prop where
  returned : l.returned + s.pc.replying = s.received.length
  begun : l.begun = l.returned + s.pc.inCall.toNat
  event : 0 < s.pc.events → (l.begun, .event .clientMadeRequestEvent) ∈ l.held

theorem Ledger.mem_after_of_mem {begins ends : Bool} {acquired : Option Resource} {l : Ledger}
    {e : Nat × Resource} (h : e ∈ l.held) : e ∈ (l.after begins ends acquired).held :=
  List.mem_append_left _ h

/-- A step that neither begins a call nor ends one, behind the first event or in front of
    it. -/
theorem ClientAccount.keep {c c' : Client} {l : Ledger} {r : Option Resource}
    (h : ClientAccount c l) (hhanded : c'.handed = c.handed)
    (hcall : c'.pc.inCall = c.pc.inCall) (hevents : 0 < c'.pc.events → 0 < c.pc.events) :
    ClientAccount c' (l.after false false r) := by
  refine ⟨?_, ?_, ?_⟩
  · rw [hhanded]
    exact h.returned
  · rw [hcall]
    exact h.begun
  · intro he
    exact Ledger.mem_after_of_mem (h.event (hevents he))

theorem ClientAccount.step {cfg : Config} {c c' : Client} {k k' : Kernel} {l : Ledger}
    (h : ClientAccount c l) (hs : c.step cfg k = some (c', k')) :
    ClientAccount c' (c.account c' l) := by
  cases hpc : c.pc <;> simp only [Client.step, hpc] at hs <;>
    simp only [Client.account, hpc, reduceCtorEq, decide_false, decide_true]
  case build =>
    split_ifs at hs
    cases hs
    obtain ⟨hreturned, hbegun, -⟩ := h
    rw [hpc] at hbegun
    have hcall : (c.build cfg).pc.inCall = true ∧ (c.build cfg).pc.events = 0 := by
      unfold Client.build
      split_ifs <;> exact ⟨rfl, rfl⟩
    refine ⟨hreturned, ?_, ?_⟩
    · rw [hcall.1]
      simpa [Ledger.after, ClientPc.inCall] using hbegun
    · intro he
      rw [hcall.2] at he
      cases he
  case createMade =>
    split_ifs at hs
    cases hs
    refine ⟨h.returned, ?_, ?_⟩
    · have hbegun := h.begun
      rw [hpc] at hbegun
      exact hbegun
    · intro _
      simp [Ledger.after, Client.acquires, hpc]
  case deliver =>
    split_ifs at hs
    cases hs
    obtain ⟨hreturned, hbegun, -⟩ := h
    rw [hpc] at hbegun
    refine ⟨?_, ?_, by simp [ClientPc.events]⟩
    · simp [Ledger.after, hreturned]
    · simpa [Ledger.after, ClientPc.inCall] using hbegun
  case waitResponse =>
    split_ifs at hs
    cases hs
    have hhanded : (c.released cfg).handed = c.handed := rfl
    apply h.keep hhanded
    · unfold Client.released
      split_ifs <;> rw [hpc] <;> rfl
    · rw [hpc]
      exact fun _ => by decide
  case writeSize | writeData | readSize | readData =>
    split_ifs at hs
    split at hs <;> cases hs
    · exact h.keep rfl rfl id
    · exact h.keep rfl (by rw [hpc]; rfl) (by simp [hpc, ClientPc.events])
  -- every other step stays within the call or in front of it
  all_goals
    split_ifs at hs
    cases hs
    exact h.keep rfl (by rw [hpc]; rfl) (by simp [hpc, ClientPc.events])

theorem ServerAccount.keep {s s' : Server} {l : Ledger} {r : Option Resource}
    (h : ServerAccount s l) (hreceived : s.pc.ends + s'.pc.replying + s.received.length =
      s.pc.replying + s'.received.length) (hends : s.pc.ends = 0)
    (hcall : s'.pc.inCall = s.pc.inCall) (hevents : 0 < s'.pc.events → 0 < s.pc.events) :
    ServerAccount s' (l.after false false r) := by
  have hreturned := h.returned
  refine ⟨?_, ?_, ?_⟩
  · show l.returned + s'.pc.replying = s'.received.length
    omega
  · rw [hcall]
    exact h.begun
  · intro he
    exact Ledger.mem_after_of_mem (h.event (hevents he))

theorem ServerAccount.step {cfg : Config} {s s' : Server} {k k' : Kernel} {l : Ledger}
    (h : ServerAccount s l) (hs : s.step cfg k = some (s', k')) :
    ServerAccount s' (s.account s' l) := by
  have hreceived := Server.received_length hs
  cases hpc : s.pc <;> simp only [Server.step, hpc] at hs <;>
    simp only [Server.account, hpc, reduceCtorEq, decide_false, decide_true]
  case openMade =>
    split_ifs at hs
    cases hs
    obtain ⟨hreturned, hbegun, -⟩ := h
    rw [hpc] at hbegun hreturned
    refine ⟨hreturned, ?_, ?_⟩
    · simpa [Ledger.after, ServerPc.inCall] using hbegun
    · intro _
      simp [Ledger.after, Server.acquires, hpc]
  case waitReadResponse =>
    split_ifs at hs
    cases hs
    obtain ⟨hreturned, hbegun, -⟩ := h
    rw [hpc] at hbegun hreturned
    refine ⟨?_, ?_, by simp [ServerPc.events]⟩
    · simpa [Ledger.after, ServerPc.replying, ServerPc.phase] using hreturned
    · simpa [Ledger.after, ServerPc.inCall] using hbegun
  case waitMade =>
    split_ifs at hs
    cases hs
    apply h.keep hreceived (by rw [hpc]; rfl)
    · unfold Server.released
      split_ifs <;> rw [hpc] <;> rfl
    · rw [hpc]
      exact fun _ => by decide
  case build =>
    split_ifs at hs
    cases hs
    apply h.keep hreceived (by rw [hpc]; rfl)
    · unfold Server.build
      split_ifs <;> rw [hpc] <;> rfl
    · rw [hpc]
      exact fun _ => by decide
  case writeSize | writeData | readSize | readData =>
    split_ifs at hs
    split at hs <;> cases hs
    · exact h.keep hreceived (by rw [hpc]; rfl) rfl id
    · exact h.keep hreceived (by rw [hpc]; rfl) (by rw [hpc]; rfl) (by simp [hpc, ServerPc.events])
  -- every other step stays within the call or in front of it
  all_goals
    split_ifs at hs
    cases hs
    exact h.keep hreceived (by rw [hpc]; rfl) (by rw [hpc]; rfl) (by simp [hpc, ServerPc.events])

/-- What each program holds grows with the calls that have returned. -/
structure HeldGrows (s : State × Held) : Prop where
  client : ClientAccount s.1.client s.2.client
  server : ServerAccount s.1.server s.2.server
  client_le : s.2.client.held.length ≤ 12 * s.2.client.returned + s.1.client.pc.atMost
  le_client : 4 * s.2.client.returned + s.1.client.pc.events ≤ s.2.client.held.length
  server_le : s.2.server.held.length ≤ 12 * s.2.server.returned + s.1.server.pc.atMost
  le_server : 4 * s.2.server.returned + s.1.server.pc.events ≤ s.2.server.held.length

theorem HeldGrows.init (cfg : Config) : HeldGrows (accounts cfg).init := by
  refine ⟨⟨rfl, ?_, ?_⟩, ⟨?_, ?_, ?_⟩, Nat.zero_le _, ?_, Nat.zero_le _, ?_⟩
  all_goals
    simp only [accounts, System.beside, conversation, Held.start, Ledger.start, Client.start,
      Server.start]
    split_ifs <;> simp [ClientPc.inCall, ClientPc.events, ServerPc.inCall, ServerPc.events,
      ServerPc.replying, ServerPc.phase]

theorem Client.returned_account (c c' : Client) (l : Ledger) :
    (c.account c' l).returned = l.returned + (decide (c.pc = .deliver)).toNat := rfl

theorem Server.returned_account (s s' : Server) (l : Ledger) :
    (s.account s' l).returned = l.returned + s.pc.ends := by
  show _ + (decide (s.pc = .waitReadResponse)).toNat = _
  unfold ServerPc.ends
  split_ifs with h <;> simp [h]

theorem HeldGrows.step {cfg : Config} {s s' : State × Held} {a : Proc} (h : HeldGrows s)
    (hs : (accounts cfg).step a s = some s') : HeldGrows s' := by
  obtain ⟨t, hstep, rfl⟩ := beside_step hs
  obtain ⟨hclient, hserver, hclientMost, hclientLeast, hserverMost, hserverLeast⟩ := h
  rcases conversation_step hstep with ⟨c, k, rfl, hc, rfl⟩ | ⟨srv, k, rfl, hsrv, rfl⟩
  · obtain ⟨hmost, hleast⟩ := Client.acquires_length hc
    have hclient' := hclient.step hc
    have hreturned := hclient.returned
    have hreturned' := hclient'.returned
    have hlen : (s.1.client.account c s.2.client).held.length = _ := Ledger.length_after ..
    refine ⟨hclient', hserver, ?_, ?_, hserverMost, hserverLeast⟩
    · simp only [Held.after]
      omega
    · simp only [Held.after]
      omega
  · obtain ⟨hmost, hleast⟩ := Server.acquires_length hsrv
    have hreturned := s.1.server.returned_account srv s.2.server
    have hlen : (s.1.server.account srv s.2.server).held.length = _ := Ledger.length_after ..
    refine ⟨hclient, hserver.step hsrv, hclientMost, hclientLeast, ?_, ?_⟩
    · simp only [Held.after]
      omega
    · simp only [Held.after]
      omega

theorem HeldGrows.of_reachable {cfg : Config} {s : State × Held} (h : Reachable (accounts cfg) s) :
    HeldGrows s :=
  h.invariant (HeldGrows.init cfg) fun _ _ _ hI hs => hI.step hs

theorem ClientPc.atMost_le (pc : ClientPc) : pc.atMost ≤ 16 := by
  cases pc <;> decide

theorem ServerPc.atMost_le (pc : ServerPc) : pc.atMost ≤ 16 := by
  cases pc <;> decide

/-! ## Every call leaves something behind -/

/-- An event is in no global, so that the one of a call that has returned is left over. -/
theorem Ledger.not_balanced {global : Resource → Bool} {l : Ledger} (name : EventName)
    (hlocal : global (.event name) = false) (hevent : (l.returned, .event name) ∈ l.held)
    (hpos : 0 < l.returned) : ¬ l.Balanced global := by
  intro hbalanced
  obtain ⟨hglobal, -⟩ := hbalanced _ hevent hpos (Nat.le_refl _)
  rw [hlocal] at hglobal
  cases hglobal

theorem ClientAccount.not_balanced {c c' : Client} {l : Ledger} (h : ClientAccount c l)
    (hpc : c.pc = .deliver) : ¬ (c.account c' l).Balanced Client.global := by
  have hreturned : (c.account c' l).returned = l.begun := by
    rw [Client.returned_account, h.begun, hpc]
    rfl
  apply Ledger.not_balanced .clientMadeRequestEvent rfl
  · rw [hreturned]
    exact Ledger.mem_after_of_mem (h.event (by rw [hpc]; decide))
  · rw [hreturned, h.begun, hpc]
    exact Nat.succ_pos _

theorem ServerAccount.not_balanced {s s' : Server} {l : Ledger} (h : ServerAccount s l)
    (hpc : s.pc = .waitReadResponse) : ¬ (s.account s' l).Balanced Server.global := by
  have hreturned : (s.account s' l).returned = l.begun := by
    rw [Server.returned_account, h.begun, hpc]
    rfl
  apply Ledger.not_balanced .clientMadeRequestEvent rfl
  · rw [hreturned]
    exact Ledger.mem_after_of_mem (h.event (by rw [hpc]; decide))
  · rw [hreturned, h.begun, hpc]
    exact Nat.succ_pos _

/-- Before the first call has returned nothing can be left over from one. -/
theorem Ledger.balanced_of_not_returned {l : Ledger} (h : l.returned = 0)
    (global : Resource → Bool) : l.Balanced global := by
  intro e _ hpos hle
  omega

/-- The end of either program's call leaves something behind. -/
theorem HeldGrows.noCallReturns {cfg : Config} {s s' : State × Held} {a : Proc} {bound : Nat}
    (h : HeldGrows s) (hs : (accounts cfg).step a s = some s') (hsettled : Settled bound s') :
    NoCallReturns s a := by
  obtain ⟨t, -, rfl⟩ := beside_step hs
  refine ⟨?_, ?_⟩
  · rintro rfl hpc
    exact h.client.not_balanced hpc hsettled.client
  · rintro rfl hpc
    exact h.server.not_balanced hpc hsettled.server

/-- No call has returned yet. -/
def NoneReturned (s : State × Held) : Prop := s.2.client.returned = 0 ∧ s.2.server.returned = 0

theorem NoneReturned.step {cfg : Config} {s s' : State × Held} {a : Proc} (h : NoneReturned s)
    (ha : NoCallReturns s a) (hs : (accounts cfg).step a s = some s') : NoneReturned s' := by
  obtain ⟨t, -, rfl⟩ := beside_step hs
  obtain ⟨hclient, hserver⟩ := h
  cases a with
  | client =>
      refine ⟨?_, hserver⟩
      show (s.1.client.account t.client s.2.client).returned = 0
      rw [Client.returned_account, hclient, decide_eq_false (ha.1 rfl)]
      rfl
  | server =>
      refine ⟨hclient, ?_⟩
      show (s.1.server.account t.server s.2.server).returned = 0
      rw [Server.returned_account, hserver, ServerPc.ends, if_neg (ha.2 rfl)]

theorem HeldGrows.settled {s : State × Held} (h : HeldGrows s) (hnone : NoneReturned s)
    {bound : Nat} (hbound : 16 ≤ bound) : Settled bound s := by
  obtain ⟨hclient, hserver⟩ := hnone
  have hc := s.1.client.pc.atMost_le
  have hs := s.1.server.pc.atMost_le
  have hclientLe := h.client_le
  have hserverLe := h.server_le
  exact ⟨by omega, by omega, Ledger.balanced_of_not_returned hclient _,
    Ledger.balanced_of_not_returned hserver _⟩

/-- In a run of the two programs, in either mode, neither has anything left over from a
    call exactly as long as no call has returned. -/
theorem settled_iff_noCallReturns {cfg : Config} {tr : List ((State × Held) × Proc)}
    {s : State × Held} (h : Exec (accounts cfg) tr s) {bound : Nat} (hbound : 16 ≤ bound) :
    (∀ t ∈ visited tr s, Settled bound t) ↔ Meets NoCallReturns tr := by
  constructor
  · rintro hsettled ⟨u, a⟩ he
    obtain ⟨t, ht, hstep⟩ := h.step_of_mem he
    obtain ⟨tr', -, hu⟩ := h.prefix (mem_visited.mpr (.inl ⟨a, he⟩))
    exact (HeldGrows.of_reachable ⟨tr', hu⟩).noCallReturns hstep (hsettled t ht)
  · intro hmeets t ht
    obtain ⟨hgrows, hnone⟩ : HeldGrows t ∧ NoneReturned t := by
      apply h.invariant_visited (I := fun t => HeldGrows t ∧ NoneReturned t) _ _ hmeets t ht
      · exact ⟨HeldGrows.init cfg, rfl, rfl⟩
      · intro u a u' hI ha hs
        exact ⟨hI.1.step hs, hI.2.step ha hs⟩
    exact hgrows.settled hnone hbound

/-- With `-r`; the client has written its first request and the server has mapped it. -/
theorem serverFirst_settled :
    ∃ tr s, Exec (accounts reuseConfig) tr s ∧ s.1.server.requestDataMap = true ∧
      ∀ t ∈ visited tr s, Settled 16 t := by
  have hrun : ((accounts reuseConfig).runIf (fun s a => decide (NoCallReturns s a)) serverFirst
      (accounts reuseConfig).init).map (fun s => s.1.server.requestDataMap) = some true := by
    decide +kernel
  obtain ⟨s, hs, hmap⟩ := Option.map_eq_some_iff.mp hrun
  obtain ⟨tr, hexec, hmeets⟩ := Exec.of_runIf hs
  exact ⟨tr, s, hexec, hmap, (settled_iff_noCallReturns hexec (Nat.le_refl 16)).mpr
    fun e he => of_decide_eq_true (hmeets e he)⟩

end IpcWin.SharedMem
