/-
  IpcWin.SharedMem.Pace

  Nothing waits for ever.

  While both programs are up, one of them has a step (`Told.not_stuck`).  The two
  auto-reset events are never lost, because they are tokens, and the two
  manual-reset events that nothing resets can only release a wait too early: once
  a round has been completed neither of them is ever waited for again.

  A failed attempt of `OpenEvent` is no step, so nobody is busy without getting
  anywhere: every step of a program brings it further in its round, and the server
  is never more than one round ahead.  So the number of steps of a run says how
  many calls have returned (`goes_on`).
-/

import IpcWin.SharedMem.Exchange

namespace IpcWin.SharedMem

open IpcWin.Lib IpcWin.Wire

/-! ## How far a program is -/

/-- The steps that a client at this place has taken in its round, four of them before
    the first one. -/
def ClientPc.rank : ClientPc → Nat
  | .startCreateSize => 0
  | .startCreateData => 1
  | .startOpenSize => 2
  | .startOpenData => 3
  | .build => 4
  | .createSize => 5
  | .createData => 6
  | .mapRequestSize => 7
  | .mapRequestData => 8
  | .writeSize => 9
  | .writeData => 10
  | .createMade => 11
  | .setMade => 12
  | .openRead => 13
  | .waitRead => 14
  | .openResponse => 15
  | .waitResponse => 16
  | .openSize => 17
  | .openData => 18
  | .mapSize => 19
  | .readSize => 20
  | .mapData => 21
  | .readData => 22
  | .createReadResponse => 23
  | .setReadResponse => 24
  | .deliver => 25

/-- The steps that a server at this place has taken since it last built a reply, at
    most; before the first reply it is counted from its start. -/
def ServerPc.rank : ServerPc → Nat
  | .createSize => 0
  | .createData => 1
  | .mapSize => 2
  | .mapData => 3
  | .writeSize => 4
  | .writeData => 5
  | .createResponse => 6
  | .setResponse | .startOpenSize => 7
  | .openReadResponse | .startOpenData => 8
  | .waitReadResponse | .startCreateSize => 9
  | .startCreateData => 10
  | .openMade => 11
  | .waitMade => 12
  | .openSize => 13
  | .openData => 14
  | .mapRequestSize => 15
  | .readSize => 16
  | .mapRequestData => 17
  | .readData => 18
  | .createRead => 19
  | .setRead => 20
  | .build => 21

/-- The steps of the client, at most. -/
def Client.pace (c : Client) : Nat := 22 * c.handed.length + c.pc.rank

/-- The steps of the server, at most. -/
def Server.pace (s : Server) : Nat := 22 * s.received.length + s.pc.rank

/-- A step of a client that stays up brings it further. -/
theorem Client.pace_lt {cfg : Config} {c c' : Client} {k k' : Kernel}
    (h : c.step cfg k = some (c', k')) (hup : c'.crashed = false) :
    c.crashed = false ∧ c.pace < c'.pace := by
  cases hpc : c.pc <;> simp only [step, hpc] at h
  case build =>
    split_ifs at h with hcrash
    cases h
    refine ⟨eq_false_of_ne_true hcrash, ?_⟩
    unfold build pace
    split_ifs <;> simp [hpc, ClientPc.rank]
  case waitResponse =>
    split_ifs at h with hcrash
    cases h
    refine ⟨eq_false_of_ne_true hcrash, ?_⟩
    unfold released pace
    split_ifs <;> simp [hpc, ClientPc.rank]
  case writeSize | writeData | readSize | readData =>
    split_ifs at h with hcrash
    split at h <;> cases h
    · simp [crash] at hup
    · refine ⟨eq_false_of_ne_true hcrash, ?_⟩
      simp [pace, hpc, ClientPc.rank]
  case deliver =>
    split_ifs at h with hcrash
    cases h
    refine ⟨eq_false_of_ne_true hcrash, ?_⟩
    simp only [pace, hpc, ClientPc.rank, List.length_append, List.length_singleton]
    omega
  -- every other step leads to the next place
  all_goals
    split_ifs at h with hcrash
    cases h
    refine ⟨eq_false_of_ne_true hcrash, ?_⟩
    simp [pace, hpc, ClientPc.rank]

/-- A step of a server that stays up brings it further. -/
theorem Server.pace_lt {cfg : Config} {s s' : Server} {k k' : Kernel}
    (h : s.step cfg k = some (s', k')) (hup : s'.crashed = false) :
    s.crashed = false ∧ s.pace < s'.pace := by
  cases hpc : s.pc <;> simp only [step, hpc] at h
  case build =>
    split_ifs at h with hcrash
    cases h
    refine ⟨eq_false_of_ne_true hcrash, ?_⟩
    -- the reply is the end of one count and the start of the next
    have hlen : (s.build cfg).received.length = s.received.length + 1 := by simp [build]
    rw [pace, pace, hlen, hpc, ServerPc.rank]
    omega
  case waitMade =>
    split_ifs at h with hcrash
    cases h
    refine ⟨eq_false_of_ne_true hcrash, ?_⟩
    unfold released pace
    split_ifs <;> simp [hpc, ServerPc.rank]
  case writeSize | writeData | readSize | readData =>
    split_ifs at h with hcrash
    split at h <;> cases h
    · simp [crash] at hup
    · refine ⟨eq_false_of_ne_true hcrash, ?_⟩
      simp [pace, hpc, ServerPc.rank]
  -- every other step leads to the next place
  all_goals
    split_ifs at h with hcrash
    cases h
    refine ⟨eq_false_of_ne_true hcrash, ?_⟩
    simp [pace, hpc, ServerPc.rank]

/-- Neither program has crashed. -/
def State.Up (s : State) : Prop := s.client.crashed = false ∧ s.server.crashed = false

instance (s : State) : Decidable s.Up := inferInstanceAs (Decidable (_ ∧ _))

/-- The steps of both programs, at most. -/
def State.pace (s : State) : Nat := s.client.pace + s.server.pace

theorem pace_step {cfg : Config} {s s' : State} {a : Proc}
    (hs : (conversation cfg).step a s = some s') (hup : s'.Up) : s.Up ∧ s.pace < s'.pace := by
  obtain ⟨hclient, hserver⟩ := hup
  rcases conversation_step hs with ⟨c, k, -, hstep, rfl⟩ | ⟨srv, k, -, hstep, rfl⟩
  · obtain ⟨hup, hlt⟩ := Client.pace_lt hstep hclient
    exact ⟨⟨hup, hserver⟩, Nat.add_lt_add_right hlt _⟩
  · obtain ⟨hup, hlt⟩ := Server.pace_lt hstep hserver
    exact ⟨⟨hclient, hup⟩, Nat.add_lt_add_left hlt _⟩

theorem ClientPc.rank_le (pc : ClientPc) : pc.rank ≤ 25 := by cases pc <;> decide

theorem ServerPc.rank_le (pc : ServerPc) : pc.rank ≤ 21 := by cases pc <;> decide

/-- The server has received no more than one request that the client has not been
    answered. -/
theorem Tokens.received_le {c : ClientView} {s : ServerView} {k : KernelView}
    (h : Tokens c s k) : s.received.length ≤ c.handed.length + 1 := by
  have hcount := h.count
  have hasked : c.phase.asked ≤ 1 := by cases c.phase <;> decide
  omega

theorem Passing.pace_le {cfg : Config} {s : State} (h : Passing cfg s) :
    s.pace ≤ 44 * s.client.handed.length + 68 := by
  have hreceived : s.server.received.length ≤ s.client.handed.length + 1 := h.tokens.received_le
  have hc := s.client.pc.rank_le
  have hs := s.server.pc.rank_le
  unfold State.pace Client.pace Server.pace
  omega

/-! ## The events that nothing resets -/

/-- The event, if it exists, is a manual-reset event. -/
def ManualReset (e : Option Event) : Prop := ∀ v, e = some v → v.manualReset = true

theorem ManualReset.createEvent {e : Option Event} (h : ManualReset e) :
    ManualReset (createEvent true e) := by
  rintro v hv
  cases e with
  | none =>
      cases hv
      rfl
  | some w => exact h v hv

theorem ManualReset.setEvent {e : Option Event} (h : ManualReset e) : ManualReset (setEvent e) := by
  rintro v hv
  obtain ⟨w, hw, rfl⟩ := Option.map_eq_some_iff.mp hv
  exact h w hw

/-- A wait leaves the event as it is. -/
theorem ManualReset.waitEvent_eq {e : Option Event} (h : ManualReset e) : waitEvent e = e := by
  cases e with
  | none => rfl
  | some v =>
      obtain ⟨manualReset, signalled⟩ := v
      obtain rfl : manualReset = true := h _ rfl
      simp [waitEvent]

/-- The event of the replies: once the first one has been written it is signalled. -/
structure ServerTold (s : Server) (e : Option Event) : Prop where
  manual : ManualReset e
  created : s.pc = .setResponse → e.isSome = true
  told : s.pc = .openReadResponse ∨ s.pc = .waitReadResponse ∨
    s.pc.phase = .idle ∧ s.received ≠ [] → signalled e = true

theorem ServerTold.step {cfg : Config} {s s' : Server} {k k' : Kernel}
    (h : ServerTold s k.serverMadeResponse) (hs : s.step cfg k = some (s', k')) :
    ServerTold s' k'.serverMadeResponse := by
  obtain ⟨hmanual, hcreated, htold⟩ := h
  cases hpc : s.pc <;> simp only [Server.step, hpc] at hs
  case createResponse =>
    split_ifs at hs
    cases hs
    exact ⟨hmanual.createEvent, fun _ => isSome_createEvent _ _, by simp [ServerPc.phase]⟩
  case setResponse =>
    split_ifs at hs
    cases hs
    exact ⟨hmanual.setEvent, by simp, fun _ => signalled_setEvent (hcreated hpc)⟩
  case openReadResponse | waitReadResponse =>
    split_ifs at hs
    cases hs
    exact ⟨hmanual, by simp, fun _ => htold (by simp [hpc])⟩
  case openMade =>
    split_ifs at hs
    cases hs
    refine ⟨hmanual, by simp, ?_⟩
    rintro (hp | hp | ⟨-, hne⟩)
    · cases hp
    · cases hp
    · exact htold (.inr (.inr ⟨by rw [hpc]; rfl, hne⟩))
  case startOpenSize | startOpenData | startCreateSize | startCreateData =>
    split_ifs at hs
    cases hs
    refine ⟨hmanual, by simp, ?_⟩
    rintro (hp | hp | ⟨-, hne⟩)
    · cases hp
    · cases hp
    · exact htold (.inr (.inr ⟨by rw [hpc]; rfl, hne⟩))
  case waitMade =>
    split_ifs at hs
    cases hs
    unfold Server.released
    split_ifs <;> exact ⟨hmanual, by simp, by simp [ServerPc.phase]⟩
  case build =>
    split_ifs at hs
    cases hs
    unfold Server.build
    split_ifs <;> exact ⟨hmanual, by simp, by simp [ServerPc.phase]⟩
  case readSize | readData | writeSize | writeData =>
    split_ifs at hs
    split at hs <;> cases hs
    · exact ⟨hmanual, by simp [Server.crash, hpc], by simp [Server.crash, hpc, ServerPc.phase]⟩
    · exact ⟨hmanual, by simp, by simp [ServerPc.phase]⟩
  -- the other steps are within a round, in front of the event
  all_goals
    split_ifs at hs
    cases hs
    exact ⟨hmanual, by simp, by simp [ServerPc.phase]⟩

/-- The event of the client's reads: once the first reply has been read it is signalled. -/
structure ClientTold (c : Client) (e : Option Event) : Prop where
  manual : ManualReset e
  created : c.pc = .setReadResponse → e.isSome = true
  told : c.pc = .deliver ∨ c.handed ≠ [] → signalled e = true

theorem ClientTold.step {cfg : Config} {c c' : Client} {k k' : Kernel}
    (h : ClientTold c k.clientReadResponseEvent) (hs : c.step cfg k = some (c', k')) :
    ClientTold c' k'.clientReadResponseEvent := by
  obtain ⟨hmanual, hcreated, htold⟩ := h
  cases hpc : c.pc <;> simp only [Client.step, hpc] at hs
  case createReadResponse =>
    split_ifs at hs
    cases hs
    refine ⟨hmanual.createEvent, fun _ => isSome_createEvent _ _, ?_⟩
    rintro (hp | hne)
    · cases hp
    · rw [signalled_createEvent]
      exact htold (.inr hne)
  case setReadResponse =>
    split_ifs at hs
    cases hs
    exact ⟨hmanual.setEvent, by simp, fun _ => signalled_setEvent (hcreated hpc)⟩
  case deliver =>
    split_ifs at hs
    cases hs
    exact ⟨hmanual, by simp, fun _ => htold (.inl hpc)⟩
  case waitResponse =>
    split_ifs at hs
    cases hs
    unfold Client.released
    split_ifs <;> exact ⟨hmanual, by simp, fun hp => htold (.inr (by simpa using hp))⟩
  case build =>
    split_ifs at hs
    cases hs
    unfold Client.build
    split_ifs <;> exact ⟨hmanual, by simp, fun hp => htold (.inr (by simpa using hp))⟩
  case readSize | readData | writeSize | writeData =>
    split_ifs at hs
    split at hs <;> cases hs
    · exact ⟨hmanual, by simp [Client.crash, hpc], by simpa [Client.crash, hpc] using htold⟩
    · exact ⟨hmanual, by simp, fun hp => htold (.inr (by simpa using hp))⟩
  -- the other steps leave the event alone
  all_goals
    split_ifs at hs
    cases hs
    exact ⟨hmanual, by simp, fun hp => htold (.inr (by simpa using hp))⟩

/-- A step of the client leaves the event of the replies as it is. -/
theorem ServerTold.client_step {cfg : Config} {s : Server} {c c' : Client} {k k' : Kernel}
    (h : ServerTold s k.serverMadeResponse) (hs : c.step cfg k = some (c', k')) :
    ServerTold s k'.serverMadeResponse := by
  have heq : k'.serverMadeResponse = k.serverMadeResponse := by
    cases hpc : c.pc <;> simp only [Client.step, hpc] at hs
    case waitResponse =>
      split_ifs at hs
      cases hs
      exact h.manual.waitEvent_eq
    case readSize | readData | writeSize | writeData =>
      split_ifs at hs
      split at hs <;> cases hs <;> rfl
    all_goals
      split_ifs at hs
      cases hs
      rfl
  rw [heq]
  exact h

/-- A step of the server leaves the event of the client's reads as it is. -/
theorem ClientTold.server_step {cfg : Config} {c : Client} {s s' : Server} {k k' : Kernel}
    (h : ClientTold c k.clientReadResponseEvent) (hs : s.step cfg k = some (s', k')) :
    ClientTold c k'.clientReadResponseEvent := by
  have heq : k'.clientReadResponseEvent = k.clientReadResponseEvent := by
    cases hpc : s.pc <;> simp only [Server.step, hpc] at hs
    case waitReadResponse =>
      split_ifs at hs
      cases hs
      exact h.manual.waitEvent_eq
    case readSize | readData | writeSize | writeData =>
      split_ifs at hs
      split at hs <;> cases hs <;> rfl
    all_goals
      split_ifs at hs
      cases hs
      rfl
  rw [heq]
  exact h

/-- A server that replies has received a request. -/
def Replied (s : ServerView) : Prop :=
  s.phase = .built ∨ s.phase = .sizeWritten ∨ s.phase = .replied → s.received ≠ []

theorem Replied.server {cfg : Config} {s s' : ServerView} {k k' : KernelView} (h : Replied s)
    (hm : Server.Moves cfg s k s' k') : Replied s' := by
  cases hm with
  | silent => exact h
  | build => exact fun _ => by simp
  | writeSize hp => exact fun _ => h (.inl hp)
  | writeData hp => exact fun _ => h (.inr (.inl hp))
  | take | readSize | readData | tell | finish => simp [Replied]

/-- The tokens, and the two events that stay signalled. -/
structure Told (cfg : Config) (s : State) : Prop where
  passing : Passing cfg s
  replied : Replied s.server.view
  server : ServerTold s.server s.kernel.serverMadeResponse
  client : ClientTold s.client s.kernel.clientReadResponseEvent

theorem told_init (cfg : Config) : Told cfg (conversation cfg).init := by
  have hphase := Server.start_phase cfg
  refine ⟨passing_init cfg, by simp [Replied, conversation, hphase], ⟨?_, ?_, ?_⟩, ⟨?_, ?_, ?_⟩⟩
  · rintro v hv
    cases hv
  · show (Server.start cfg).pc = _ → _
    cases hr : cfg.serverReuse <;> simp [Server.start, hr]
  · show (Server.start cfg).pc = _ ∨ (Server.start cfg).pc = _ ∨
      (Server.start cfg).pc.phase = _ ∧ (Server.start cfg).received ≠ [] → _
    cases hr : cfg.serverReuse <;> simp [Server.start, hr]
  · rintro v hv
    cases hv
  · show (Client.start cfg).pc = _ → _
    cases hr : cfg.clientReuse <;> simp [Client.start, hr]
  · show (Client.start cfg).pc = _ ∨ (Client.start cfg).handed ≠ [] → _
    cases hr : cfg.clientReuse <;> simp [Client.start, hr]

theorem told_step {cfg : Config} {s s' : State} {a : Proc} (h : Told cfg s)
    (hs : (conversation cfg).step a s = some s') : Told cfg s' := by
  have hpass := passing_step h.passing hs
  rcases conversation_step hs with ⟨c, k, -, hstep, rfl⟩ | ⟨srv, k, -, hstep, rfl⟩
  · exact ⟨hpass, h.replied, h.server.client_step hstep, h.client.step hstep⟩
  · have hreplied := h.replied.server (Server.moves_of_step h.passing.events hstep)
    exact ⟨hpass, hreplied, h.server.step hstep, h.client.server_step hstep⟩

theorem told_of_reachable {cfg : Config} {s : State} (h : Reachable (conversation cfg) s) :
    Told cfg s :=
  h.invariant (told_init cfg) fun _ _ _ hI hs => told_step hI hs

/-! ## One of them has a step -/

/-- A client that is up and has no step waits for one of two events. -/
theorem Client.waits {cfg : Config} {c : Client} {k : Kernel} (hup : c.crashed = false)
    (h : c.step cfg k = none) :
    c.pc.phase = .asking ∧ signalled k.serverReadRequestEvent = false ∨
      (c.pc = .openResponse ∨ c.pc = .waitResponse) ∧ signalled k.serverMadeResponse = false := by
  cases hpc : c.pc <;> simp only [step, hup, hpc, Bool.false_eq_true, if_false, reduceCtorEq] at h
  case openRead =>
    refine .inl ⟨rfl, ?_⟩
    cases he : k.serverReadRequestEvent with
    | none => rfl
    | some v => simp [he] at h
  case waitRead =>
    refine .inl ⟨rfl, ?_⟩
    cases he : signalled k.serverReadRequestEvent with
    | false => rfl
    | true => simp [he] at h
  case openResponse =>
    refine .inr ⟨.inl rfl, ?_⟩
    cases he : k.serverMadeResponse with
    | none => rfl
    | some v => simp [he] at h
  case waitResponse =>
    refine .inr ⟨.inr rfl, ?_⟩
    cases he : signalled k.serverMadeResponse with
    | false => rfl
    | true => simp [he] at h
  case writeSize | writeData | readSize | readData => split at h <;> cases h

/-- A server that is up and has no step waits for one of the other two. -/
theorem Server.waits {cfg : Config} {s : Server} {k : Kernel} (hup : s.crashed = false)
    (h : s.step cfg k = none) :
    (s.pc = .openMade ∨ s.pc = .waitMade) ∧ signalled k.clientMadeRequestEvent = false ∨
      (s.pc = .openReadResponse ∨ s.pc = .waitReadResponse) ∧
        signalled k.clientReadResponseEvent = false := by
  cases hpc : s.pc <;> simp only [step, hup, hpc, Bool.false_eq_true, if_false, reduceCtorEq] at h
  case openMade =>
    refine .inl ⟨.inl rfl, ?_⟩
    cases he : k.clientMadeRequestEvent with
    | none => rfl
    | some v => simp [he] at h
  case waitMade =>
    refine .inl ⟨.inr rfl, ?_⟩
    cases he : signalled k.clientMadeRequestEvent with
    | false => rfl
    | true => simp [he] at h
  case openReadResponse =>
    refine .inr ⟨.inl rfl, ?_⟩
    cases he : k.clientReadResponseEvent with
    | none => rfl
    | some v => simp [he] at h
  case waitReadResponse =>
    refine .inr ⟨.inr rfl, ?_⟩
    cases he : signalled k.clientReadResponseEvent with
    | false => rfl
    | true => simp [he] at h
  case writeSize | writeData | readSize | readData => split at h <;> cases h

/-- A waiting server has no token, and holds no request back. -/
theorem ServerPc.waiting {pc : ServerPc}
    (h : (pc = .openMade ∨ pc = .waitMade) ∨ pc = .openReadResponse ∨ pc = .waitReadResponse) :
    pc.phase.holds = 0 ∧ pc.phase.taken = 0 := by
  rcases h with (rfl | rfl) | rfl | rfl <;> exact ⟨rfl, rfl⟩

/-- Not both programs wait. -/
theorem Told.not_both_wait {cfg : Config} {s : State} (h : Told cfg s) (hup : s.Up)
    (hc : s.client.step cfg s.kernel = none) : s.server.step cfg s.kernel ≠ none := by
  intro hs
  obtain ⟨hone, hcount⟩ := h.passing.tokens
  simp only [Client.view, Server.view, Kernel.view] at hone hcount
  have hserver := Server.waits hup.2 hs
  obtain ⟨hholds, htaken⟩ := ServerPc.waiting (hserver.imp And.left And.left)
  rw [hholds] at hone
  rw [htaken] at hcount
  rcases Client.waits hup.1 hc with ⟨hasking, hread⟩ | ⟨hawaiting, hmade⟩
  · -- the token is with the request that is on its way
    rw [hasking, hread] at hone
    rw [hasking] at hcount
    simp only [ClientPhase.holds, ClientPhase.asked, Bool.toNat_false] at hone hcount
    rcases hserver with ⟨-, hnot⟩ | ⟨hpc, hnot⟩
    · rw [hnot] at hone
      cases hone
    · -- the server has replied to an earlier one, which the client has read
      have hreceived : s.server.received ≠ [] := by
        apply h.replied
        rcases hpc with hpc | hpc <;> simp [Server.view, hpc, ServerPc.phase]
      have hpos := List.length_pos_iff.mpr hreceived
      have hhanded : s.client.handed ≠ [] := by
        apply List.length_pos_iff.mp
        omega
      have htold := h.client.told (.inr hhanded)
      rw [hnot] at htold
      cases htold
  · -- the token is with the client, so its request has been received
    have hphase : s.client.pc.phase = .awaiting := by
      rcases hawaiting with hpc | hpc <;> rw [hpc] <;> rfl
    rw [hphase] at hone hcount
    simp only [ClientPhase.holds, ClientPhase.asked] at hone hcount
    have htold : signalled s.kernel.serverMadeResponse = true := by
      apply h.server.told
      rcases hserver with ⟨hpc, hnot⟩ | ⟨hpc, -⟩
      · refine .inr (.inr ⟨?_, ?_⟩)
        · rcases hpc with hpc | hpc <;> rw [hpc] <;> rfl
        · apply List.length_pos_iff.mp
          rw [hnot] at hcount
          simp only [Bool.toNat_false] at hcount
          omega
      · rcases hpc with hpc | hpc
        · exact .inl hpc
        · exact .inr (.inl hpc)
    rw [hmade] at htold
    cases htold

theorem Told.not_stuck {cfg : Config} {s : State} (h : Told cfg s) (hup : s.Up) :
    ∃ a s', (conversation cfg).step a s = some s' := by
  cases hc : s.client.step cfg s.kernel with
  | some q =>
      refine ⟨.client, { s with client := q.1, kernel := q.2 }, ?_⟩
      simp only [conversation, hc, Option.map_some]
  | none =>
      obtain ⟨q, hq⟩ := Option.ne_none_iff_exists'.mp (h.not_both_wait hup hc)
      refine ⟨.server, { s with server := q.1, kernel := q.2 }, ?_⟩
      simp only [conversation, hq, Option.map_some]

/-- In every run at whose end both programs are up, one of them has a step, and the
    calls that have returned are at least so many for every 44 steps. -/
theorem goes_on {cfg : Config} {tr : List (State × Proc)} {s : State}
    (h : Exec (conversation cfg) tr s) (hup : s.Up) :
    (∃ a s', (conversation cfg).step a s = some s') ∧
      tr.length ≤ 44 * s.client.handed.length + 68 := by
  have htold := told_of_reachable ⟨tr, h⟩
  exact ⟨htold.not_stuck hup,
    (h.length_le (fun _ _ _ => pace_step) hup).trans htold.passing.pace_le⟩

/-- The client of `hastyRounds` does not wait for the server, and goes on all the same. -/
theorem hastyRounds_goes_on :
    ∃ tr s, Exec (conversation twoReplies) tr s ∧ s.client.handed.length = 2 ∧
      (∃ a s', (conversation twoReplies).step a s = some s') ∧
        tr.length ≤ 44 * s.client.handed.length + 68 := by
  have hrun : ((conversation twoReplies).run hastyRounds).map
      (fun s => (decide s.Up, s.client.handed.length)) = some (true, 2) := by
    decide +kernel
  obtain ⟨s, hs, hvalues⟩ := Option.map_eq_some_iff.mp hrun
  obtain ⟨hup, hhanded⟩ := Prod.mk.inj hvalues
  obtain ⟨tr, hexec⟩ := Exec.of_run hs
  exact ⟨tr, s, hexec, hhanded, goes_on hexec (of_decide_eq_true hup)⟩

end IpcWin.SharedMem
