/-
  IpcWin.Pipes.Buffers

  Which blocks the pipe server frees.

  `replyPipes` allocates up to three blocks: the request and the frame of the
  reply, which are held by the globals `request_data` and `resp_data`, and the
  builder's reply, which is held by a local.  With `-r` none of them is freed, and
  with `-o` alone the block of `resp_data` is freed round after round, although
  only `_tmain` has allocated one (`buffersOwned_iff`).
-/

import IpcWin.Lib.Blocks
import IpcWin.Pipes.Sessions

namespace IpcWin.Pipes

open IpcWin.Lib IpcWin.Wire
open IpcWin.Native (malloc)

/-! ## The blocks of a round -/

/-- The heap and the pointers of `replyPipes`; `round` lists the blocks that the
    last round, or the one in progress, has allocated. -/
structure Buffers where
  heap : Blocks
  respData : Option Nat
  requestData : Option Nat
  responseData : Option Nat
  round : List Nat

namespace Buffers

/-- `_tmain` has allocated the two globals. -/
def start : Buffers :=
  { heap := Blocks.empty.malloc.malloc, respData := some 0, requestData := some 1
    responseData := none, round := [] }

/-- `request_data = malloc(rSize)`, which is `NULL` if there is no such block. -/
def request (block : Bool) (b : Buffers) : Buffers :=
  if block then
    { b with heap := b.heap.malloc, requestData := some b.heap.next, round := [b.heap.next] }
  else { b with requestData := none, round := [] }

/-- The builder's block and then that of the frame; in one-way mode neither. -/
def reply (oneway : Bool) (b : Buffers) : Buffers :=
  if oneway then { b with responseData := none }
  else
    let response := b.heap.next
    let heap := b.heap.malloc
    { b with
      heap := heap.malloc, responseData := some response, respData := some heap.next
      round := b.round ++ [response, heap.next] }

/-- What is behind `CLEANUP` without `-r`; with `-r` nothing is freed there. -/
def cleanup (oneway : Bool) (b : Buffers) : Buffers :=
  let heap := b.heap.free b.respData
  let heap := if oneway then heap else heap.free b.responseData
  { b with heap := heap.free b.requestData }

/-- What a step does to the blocks. -/
def after (cfg : Config) (s : Desk) (a : Event) (s' : Desk) (b : Buffers) : Buffers :=
  match a, s.server.pc with
  | .server .ret, .readSize =>
      -- unless `replyPipes` returns because the client has closed
      if s'.server.pc = .readData then b.request s'.server.request.isSome else b
  | .server .run, .build => b.reply cfg.oneway
  | .server .run, .close => b.cleanup cfg.oneway
  | _, _ => b

end Buffers

/-- The server with its clients and its blocks. -/
def buffers (cfg : Config) : System (Desk × Buffers) Event :=
  (sessions cfg).beside .start (Buffers.after cfg)

/-- No round is in progress, or it has allocated nothing yet. -/
def ServerPc.between : ServerPc → Prop
  | .create | .connect | .connecting | .readSize => True
  | _ => False

/-- No block is freed that is not live, what a round has allocated is freed or held
    by a global at its end, and the live blocks are bounded. -/
structure BuffersOwned (cfg : Config) : Prop where
  sound : ∀ s, Reachable (buffers cfg) s → s.2.heap.faulty = false
  kept : ∀ s, Reachable (buffers cfg) s → s.1.server.pc.between →
    ∀ b ∈ s.2.round, b ∈ s.2.heap.live → s.2.respData = some b ∨ s.2.requestData = some b
  bounded : ∃ n, ∀ s, Reachable (buffers cfg) s → s.2.heap.live.card ≤ n

/-! ## Neither flag -/

/-- The blocks that the round in progress has to free. -/
def ServerPc.held (b : Buffers) : ServerPc → List Nat
  | .create | .connect | .connecting | .readSize => []
  | .readData | .build => b.requestData.toList
  | .write | .flush | .disconnect | .close =>
      b.respData.toList ++ (b.responseData.toList ++ b.requestData.toList)

/-- The two blocks of `_tmain`. -/
def initial : Finset Nat := {0, 1}

/-- Beside the blocks of `_tmain` the live ones are those the round has to free. -/
structure Frees (s : Desk × Buffers) : Prop where
  owns : Owns initial (s.1.server.pc.held s.2) s.2.heap
  round : ∀ b ∈ s.2.round, b ∉ initial

namespace Frees

variable {cfg : Config} {s : Desk × Buffers}

theorem init (cfg : Config) : Frees (buffers cfg).init where
  owns := by
    have hlive : Buffers.start.heap.live = initial ∪ ([] : List Nat).toFinset := by decide
    refine ⟨rfl, List.nodup_nil, ?_, hlive⟩
    intro b hb
    cases hb
  round b hb := by cases hb

/-- A step that neither allocates nor frees. -/
theorem keep {s' : Desk} (h : Frees s) (hheld : s'.server.pc.held s.2 = s.1.server.pc.held s.2) :
    Frees (s', s.2) := by
  refine ⟨?_, h.round⟩
  rw [hheld]
  exact h.owns

theorem request {s' : Desk} {block : Bool} (h : Frees s) (hpc : s.1.server.pc = .readSize)
    (hpc' : s'.server.pc = .readData) : Frees (s', s.2.request block) := by
  have howns := h.owns
  rw [hpc] at howns
  cases block with
  | false =>
      refine ⟨?_, fun b hb => by cases hb⟩
      rw [hpc']
      exact howns
  | true =>
      refine ⟨?_, ?_⟩
      · rw [hpc']
        exact howns.malloc
      · intro b hb
        obtain rfl : b = s.2.heap.next := List.mem_singleton.mp hb
        exact howns.next_not_mem.1

theorem reply {s' : Desk} (h : Frees s) (hpc : s.1.server.pc = .build)
    (hpc' : s'.server.pc = .write) : Frees (s', s.2.reply false) := by
  have howns := h.owns
  rw [hpc] at howns
  refine ⟨?_, ?_⟩
  · rw [hpc']
    exact howns.malloc.malloc
  · intro b hb
    rcases List.mem_append.mp hb with hb | hb
    · exact h.round b hb
    · simp only [List.mem_cons, List.not_mem_nil, or_false] at hb
      rcases hb with rfl | rfl
      · exact howns.next_not_mem.1
      · exact howns.malloc.next_not_mem.1

theorem cleanup {s' : Desk} (h : Frees s) (hpc : s.1.server.pc = .close)
    (hpc' : s'.server.pc = .create) : Frees (s', s.2.cleanup false) := by
  have howns := h.owns
  rw [hpc] at howns
  refine ⟨?_, h.round⟩
  rw [hpc']
  have hreq : Owns initial (s.2.requestData.toList ++ [])
      ((s.2.heap.free s.2.respData).free s.2.responseData) := by
    rw [List.append_nil]
    exact howns.free.free
  exact hreq.free

theorem step {s' : Desk × Buffers} {a : Event} (hr : cfg.reuse = false) (ho : cfg.oneway = false)
    (h : Frees s) (hs : (buffers cfg).step a s = some s') : Frees s' := by
  obtain ⟨t', hstep, rfl⟩ := beside_step hs
  rcases sessions_step hstep with ⟨io, srv, p, rfl, hserver, rfl⟩ | ⟨v, p, rfl, -, rfl⟩
  · cases Server.step_cases hserver with
    | sized hpc =>
        simp only [Buffers.after, hpc, Server.sized_pc, if_pos]
        exact h.request hpc rfl
    | reply hpc =>
        simp only [Buffers.after, hpc, ho]
        exact h.reply hpc (Server.reply_pc cfg _)
    | close hpc =>
        simp only [Buffers.after, hpc, ho]
        exact h.cleanup hpc rfl
    | clientClosed _ hr' => simp [hr] at hr'
    | confirmed _ hone => simp [ho] at hone
    | flushed hpc =>
        simp only [Buffers.after, hpc]
        exact h.keep (by simp [Server.finish_pc, hr, hpc, ServerPc.held])
    | spin hpc =>
        simp only [Buffers.after, hpc]
        exact h
    | create hpc | block hpc | accept hpc | takeSize hpc | takeData hpc | readNull hpc
    | dataRead hpc | putReply hpc | written hpc | disconnect hpc =>
        simp only [Buffers.after, hpc]
        exact h.keep (by simp [hpc, ServerPc.held])
  · exact h.keep rfl

end Frees

theorem ServerPc.held_length (b : Buffers) (pc : ServerPc) : (pc.held b).length ≤ 3 := by
  have hone : ∀ p : Option Nat, p.toList.length ≤ 1 := by
    intro p
    cases p <;> simp
  have h₁ := hone b.respData
  have h₂ := hone b.responseData
  have h₃ := hone b.requestData
  cases pc <;> simp only [held, List.length_append, List.length_nil] <;> omega

/-- Without `-r` and `-o` every round frees what it has allocated. -/
theorem buffersOwned_of_neither {cfg : Config} (hr : cfg.reuse = false) (ho : cfg.oneway = false) :
    BuffersOwned cfg := by
  have hfrees : ∀ s, Reachable (buffers cfg) s → Frees s := by
    intro s hs
    exact hs.invariant (Frees.init cfg) fun _ _ _ hI hstep => hI.step hr ho hstep
  refine ⟨fun s hs => (hfrees s hs).owns.sound, ?_, 5, ?_⟩
  · intro s hs hpc b hb hlive
    obtain ⟨howns, hround⟩ := hfrees s hs
    have hheld : s.1.server.pc.held s.2 = [] := by
      cases hp : s.1.server.pc <;> simp only [hp, ServerPc.between] at hpc <;> rfl
    rw [howns.mem_live, hheld] at hlive
    rcases hlive with hb' | hb'
    · exact absurd hb' (hround b hb)
    · cases hb'
  · intro s hs
    have hlen := s.1.server.pc.held_length s.2
    rw [(hfrees s hs).owns.card]
    have hinitial : initial.card = 2 := rfl
    omega

/-! ## One flag, or both -/

theorem sizeWord_nil : sizeWord [] = 0#32 := by decide

theorem sizeWord_zeros : sizeWord [0#8, 0#8, 0#8, 0#8] = 0#32 := by decide

theorem malloc_zero (junk : Nat → Byte) : malloc junk 0#32 = some [] := by
  simp [malloc]

section Runs

variable {cfg : Config} {s : Desk} {b : Buffers}

/-- A client has opened the instance and closed it again, and the server is to read
    the length of a request. -/
structure Deserted (s : Desk) : Prop where
  pc : s.server.pc = .readSize
  got_eq : s.server.got = []
  state : s.pipe.state = .closing
  toServer : s.pipe.toServer.queue = []

theorem deserted_reachable (h : Reachable (buffers cfg) (s, b)) (hpc : s.server.pc = .create) :
    ∃ s', Deserted s' ∧ Reachable (buffers cfg) (s', b) := by
  have hrun : ∃ s', Deserted s' ∧ (buffers cfg).runIf (fun _ _ => true)
      [.server .run, .server .run, .visit .createFile, .server .run, .visit .closeHandle]
      (s, b) = some (s', b) := by
    refine ⟨{ server := s.server.enter
              pipe := { Pipe.create with state := .closing } }, ⟨rfl, rfl, rfl, rfl⟩, ?_⟩
    simp [System.runIf, buffers, System.beside, sessions, Server.step, Pipe.visit, hpc,
      Pipe.create, Server.enter, Buffers.after]
  obtain ⟨s', hs', hrun⟩ := hrun
  exact ⟨s', hs', h.runIf hrun⟩

/-- With `-o` alone the round that follows frees `resp_data` and puts nothing in its
    place. -/
theorem Deserted.cleanup (hr : cfg.reuse = false) (ho : cfg.oneway = true) (hs : Deserted s)
    (h : Reachable (buffers cfg) (s, b)) :
    ∃ s', s'.server.pc = .create ∧
      Reachable (buffers cfg) (s', ((b.request true).reply true).cleanup true) := by
  obtain ⟨hpc, hgot, hstate, hqueue⟩ := hs
  have hrun : ∃ s', s'.server.pc = .create ∧
      (buffers cfg).runIf (fun _ _ => true)
        [.server .ret, .server .ret, .server .run, .server .ret, .server .run, .server .run]
        (s, b) = some (s', ((b.request true).reply true).cleanup true) := by
    simp [System.runIf, buffers, System.beside, sessions, Server.step, hpc, hgot, hstate, hqueue,
      hr, ho, readReturns, Pipe.gone, Server.sized, sizeWord_nil, malloc_zero, readInto,
      Server.reply, writeReturns, Server.finish, Buffers.after]
  obtain ⟨s', hpc', hs'⟩ := hrun
  exact ⟨s', hpc', h.runIf hs'⟩

/-- A client is connected and has nothing to read, the server waits for the length of
    its next request, and has `got` of it. -/
structure Waiting (got : List Byte) (s : Desk) : Prop where
  pc : s.server.pc = .readSize
  got_eq : s.server.got = got
  state : s.pipe.state = .connected
  toServer : s.pipe.toServer.queue = []
  toClient : s.pipe.toClient.queue = []

/-- The first client connects. -/
theorem connect_reachable (cfg : Config) :
    ∃ s, Waiting [] s ∧ Reachable (buffers cfg) (s, .start) := by
  have hrun : ∃ s, Waiting [] s ∧ (buffers cfg).runIf (fun _ _ => true)
      [.server .run, .server .run, .visit .createFile, .server .run] (buffers cfg).init =
        some (s, .start) :=
    ⟨_, ⟨rfl, rfl, rfl, rfl, rfl⟩, rfl⟩
  have hinit : Reachable (buffers cfg) (buffers cfg).init := ⟨[], .init⟩
  obtain ⟨s, hs, hrun⟩ := hrun
  exact ⟨s, hs, hinit.runIf hrun⟩

/-- The first client writes one byte of the length, and the server reads it. -/
theorem Waiting.byte {got : List Byte} (hin : 0 < cfg.inbuf) (h : Waiting got s)
    (hlen : got.length < 4) (hs : Reachable (buffers cfg) (s, b)) :
    ∃ s', Waiting (got ++ [0]) s' ∧ Reachable (buffers cfg) (s', b) := by
  obtain ⟨hpc, hgot, hstate, hserver, hclient⟩ := h
  have hone : 1 ≤ cfg.inbuf := hin
  have hfour : got.length + 1 ≤ 4 := hlen
  have hrun : ∃ s', Waiting (got ++ [0]) s' ∧ (buffers cfg).runIf (fun _ _ => true)
      [.visit (.writeFile [0]), .server (.take 1)] (s, b) = some (s', b) := by
    refine ⟨{ server := { s.server with got := got ++ [0] }
              pipe := { s.pipe with toServer := (s.pipe.toServer.put [0]).take 1 } },
      ⟨hpc, rfl, hstate, ?_, hclient⟩, ?_⟩
    · simp [Channel.put, Channel.take, hserver]
    · simp [System.runIf, buffers, System.beside, sessions, Server.step, Pipe.visit, hpc, hgot,
        hstate, hserver, hone, hfour, readPiece, Buffers.after, Channel.put]
  obtain ⟨s', hw, hs'⟩ := hrun
  exact ⟨s', hw, hs.runIf hs'⟩

/-- A request of no bytes. -/
theorem Waiting.word (hin : 0 < cfg.inbuf) (h : Waiting [] s)
    (hs : Reachable (buffers cfg) (s, b)) :
    ∃ s', Waiting [0, 0, 0, 0] s' ∧ Reachable (buffers cfg) (s', b) := by
  obtain ⟨s₁, h₁, hs₁⟩ := h.byte hin (by decide) hs
  obtain ⟨s₂, h₂, hs₂⟩ := h₁.byte hin (by decide) hs₁
  obtain ⟨s₃, h₃, hs₃⟩ := h₂.byte hin (by decide) hs₂
  obtain ⟨s₄, h₄, hs₄⟩ := h₃.byte hin (by decide) hs₃
  exact ⟨s₄, h₄, hs₄⟩

/-- With both flags the server confirms the request, and the client reads on. -/
theorem Waiting.confirmed (hr : cfg.reuse = true) (ho : cfg.oneway = true) (hout : 0 < cfg.outbuf)
    (h : Waiting [0, 0, 0, 0] s) (hs : Reachable (buffers cfg) (s, b)) :
    ∃ s', Waiting [] s' ∧ Reachable (buffers cfg) (s', (b.request true).reply true) := by
  obtain ⟨hpc, hgot, hstate, hserver, hclient⟩ := h
  have hone : 1 ≤ cfg.outbuf := hout
  have hrun : ∃ s', Waiting [] s' ∧ (buffers cfg).runIf (fun _ _ => true)
      [.server .ret, .server .ret, .server .run, .server (.put 1), .visit (.readFile 1),
        .server .ret] (s, b) = some (s', (b.request true).reply true) := by
    refine ⟨{ server := ({ s.server with
                got := [], rSize := 0, request := some [], pending := [] } : Server).enter
              pipe := { s.pipe with toClient := (s.pipe.toClient.put [1]).take 1 } },
      ⟨rfl, rfl, hstate, hserver, ?_⟩, ?_⟩
    · simp [Channel.put, Channel.take, hclient]
    · simp [System.runIf, buffers, System.beside, sessions, Server.step, Pipe.visit, hpc, hgot,
        hstate, hclient, hr, ho, hone, readReturns, Pipe.gone, Server.sized, sizeWord_zeros,
        malloc_zero, readInto, Server.reply, writePiece, writeReturns, Server.finish, Server.enter,
        Buffers.after, Channel.put]
  obtain ⟨s', hw, hs'⟩ := hrun
  exact ⟨s', hw, hs.runIf hs'⟩

/-- With `-r` alone the server answers a client that has left. -/
theorem Waiting.replied (hr : cfg.reuse = true) (ho : cfg.oneway = false)
    (h : Waiting [0, 0, 0, 0] s) (hs : Reachable (buffers cfg) (s, b)) :
    ∃ s', s'.server.pc = .readSize ∧
      Reachable (buffers cfg) (s', (b.request true).reply false) := by
  obtain ⟨hpc, hgot, hstate, hserver, hclient⟩ := h
  have hrun : ∃ s', s'.server.pc = .readSize ∧ (buffers cfg).runIf (fun _ _ => true)
      [.server .ret, .server .ret, .server .run, .visit .closeHandle, .server .ret,
        .server .run] (s, b) = some (s', (b.request true).reply false) := by
    simp [System.runIf, buffers, System.beside, sessions, Server.step, Pipe.visit, hpc, hgot,
      hstate, hr, ho, readReturns, Pipe.gone, Server.sized, sizeWord_zeros, malloc_zero, readInto,
      Server.reply, writeReturns, Server.finish, Server.enter, Buffers.after]
  obtain ⟨s', hpc', hs'⟩ := hrun
  exact ⟨s', hpc', hs.runIf hs'⟩

end Runs

/-- With `-o` alone the second round frees `resp_data` again. -/
theorem not_buffersOwned_of_oneway {cfg : Config} (hr : cfg.reuse = false)
    (ho : cfg.oneway = true) : ¬ BuffersOwned cfg := by
  intro h
  have hinit : Reachable (buffers cfg) ((sessions cfg).init, .start) := ⟨[], .init⟩
  obtain ⟨t₁, ht₁, htr₁⟩ := deserted_reachable hinit rfl
  obtain ⟨s₁, hpc₁, hs₁⟩ := ht₁.cleanup hr ho htr₁
  obtain ⟨t₂, ht₂, htr₂⟩ := deserted_reachable hs₁ hpc₁
  obtain ⟨s₂, -, hs₂⟩ := ht₂.cleanup hr ho htr₂
  have hfaulty : ((((((Buffers.start.request true).reply true).cleanup true).request true).reply
      true).cleanup true).heap.faulty = true := by
    decide
  have hsound := h.sound _ hs₂
  rw [hfaulty] at hsound
  cases hsound

/-- With `-r` alone the builder's block is left to no one after the first round. -/
theorem not_buffersOwned_of_reuse {cfg : Config} (hr : cfg.reuse = true) (ho : cfg.oneway = false)
    (hin : 0 < cfg.inbuf) : ¬ BuffersOwned cfg := by
  intro h
  obtain ⟨s₁, h₁, hs₁⟩ := connect_reachable cfg
  obtain ⟨s₂, h₂, hs₂⟩ := h₁.word hin hs₁
  obtain ⟨s₃, hpc, hs₃⟩ := h₂.replied hr ho hs₂
  -- the blocks of the round are 2 for the request, 3 for the builder's and 4 for the frame
  have hstray : ∃ c ∈ ((Buffers.start.request true).reply false).round,
      c ∈ ((Buffers.start.request true).reply false).heap.live ∧
        ¬ (((Buffers.start.request true).reply false).respData = some c ∨
          ((Buffers.start.request true).reply false).requestData = some c) :=
    ⟨3, by decide, by decide, by decide⟩
  obtain ⟨c, hround, hlive, hlost⟩ := hstray
  exact hlost (h.kept _ hs₃ (by rw [hpc]; trivial) c hround hlive)

/-- With both flags every round leaves a block behind. -/
theorem leaking_rounds {cfg : Config} (hr : cfg.reuse = true) (ho : cfg.oneway = true)
    (hin : 0 < cfg.inbuf) (hout : 0 < cfg.outbuf) (n : Nat) :
    ∃ s b, Waiting [] s ∧ Reachable (buffers cfg) (s, b) ∧ b.heap.live.card = 2 + n := by
  induction n with
  | zero =>
      obtain ⟨s, h, hs⟩ := connect_reachable cfg
      exact ⟨s, _, h, hs, by decide⟩
  | succ n ih =>
      obtain ⟨s, b, h, hs, hcard⟩ := ih
      obtain ⟨s₁, h₁, hs₁⟩ := h.word hin hs
      obtain ⟨s₂, h₂, hs₂⟩ := h₁.confirmed hr ho hout hs₁
      have hgrown : ((b.request true).reply true).heap.live.card = 2 + (n + 1) := by
        show b.heap.malloc.live.card = _
        rw [b.heap.card_malloc, hcard]
        omega
      exact ⟨s₂, _, h₂, hs₂, hgrown⟩

theorem not_buffersOwned_of_both {cfg : Config} (hr : cfg.reuse = true) (ho : cfg.oneway = true)
    (hin : 0 < cfg.inbuf) (hout : 0 < cfg.outbuf) : ¬ BuffersOwned cfg := by
  intro h
  obtain ⟨n, hn⟩ := h.bounded
  obtain ⟨s, b, -, hs, hcard⟩ := leaking_rounds hr ho hin hout n
  have hle := hn (s, b) hs
  rw [hcard] at hle
  omega

/-- The server owns its blocks exactly if it runs with neither `-r` nor `-o`. -/
theorem buffersOwned_iff {cfg : Config} (hin : 0 < cfg.inbuf) (hout : 0 < cfg.outbuf) :
    BuffersOwned cfg ↔ cfg.reuse = false ∧ cfg.oneway = false := by
  constructor
  · intro h
    cases hr : cfg.reuse with
    | false =>
        refine ⟨rfl, ?_⟩
        by_contra ho
        exact not_buffersOwned_of_oneway hr (by simpa using ho) h
    | true =>
        cases ho : cfg.oneway with
        | false => exact absurd h (not_buffersOwned_of_reuse hr ho hin)
        | true => exact absurd h (not_buffersOwned_of_both hr ho hin hout)
  · rintro ⟨hr, ho⟩
    exact buffersOwned_of_neither hr ho

/-- Queues of one byte, empty requests and empty replies. -/
def oneByteQueues (reuse oneway : Bool) : Config :=
  { reuse := reuse, oneway := oneway, inbuf := 1, outbuf := 1, shortReads := false
    junk := fun _ => 0, request := fun _ => .empty, builder := fun _ => .empty }

theorem oneByteQueues_buffersOwned : BuffersOwned (oneByteQueues false false) :=
  (buffersOwned_iff (by decide) (by decide)).mpr ⟨rfl, rfl⟩

/-- With any flag a block is freed twice, left behind, or left behind again and again. -/
theorem oneByteQueues_not_buffersOwned :
    ¬ BuffersOwned (oneByteQueues false true) ∧ ¬ BuffersOwned (oneByteQueues true false) ∧
      ¬ BuffersOwned (oneByteQueues true true) :=
  ⟨not_buffersOwned_of_oneway rfl rfl, not_buffersOwned_of_reuse rfl rfl (by decide),
    not_buffersOwned_of_both rfl rfl (by decide) (by decide)⟩

end IpcWin.Pipes
