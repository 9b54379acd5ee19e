/-
  IpcWin.Pipes.Requests

  What the pipe server takes for a request, from a client that may send any bytes
  and disconnect at any point.

  `replyPipes` passes `cbRead` to both of its `ReadFile` calls and never looks at
  it, and it does not look at the length that it was sent either.  As long as the
  two calls return with their buffers full and the length word is not negative,
  the builder is handed exactly what the client has sent
  (`reallyReceived_of_readsWhole`); with `-r` a round may also find that the
  client has gone before it has begun.
-/

import IpcWin.Pipes.Connection
import IpcWin.Pipes.Sessions

namespace IpcWin.Pipes

open IpcWin.Lib IpcWin.Wire
open IpcWin.Native (malloc malloc_of_lt)

/-! ## Requests that were received -/

/-- The bytes of the requests that the builder has been handed. -/
def handedBytes (received : List Received) : List Byte :=
  received.flatMap fun r => intBytes r.1 ++ r.2.getD []

/-- What had been taken from the pipe when the round began: with `-r` the requests of
    the earlier rounds, and nothing on an instance of its own. -/
def Desk.earlier (cfg : Config) (s : Desk) : List Byte :=
  if cfg.reuse then handedBytes s.server.received else []

/-- The builder is about to be handed a length and a block that the client has sent in
    this round: the length word, not negative, and as many bytes as it says. -/
def ReallyReceived (cfg : Config) (s : Desk) : Prop :=
  s.server.pc = .build →
    ∃ p, s.server.request = some p ∧ 0 ≤ s.server.rSize.toInt ∧
      p.length = s.server.rSize.toNat ∧
      s.pipe.toServer.taken = s.earlier cfg ++ (intBytes s.server.rSize ++ p)

/-- With `-r`, the client has gone before the round has begun. -/
def Desk.Closed (cfg : Config) (s : Desk) : Prop :=
  s.server.pc = .readSize ∧ cfg.reuse = true ∧ s.pipe.gone = true ∧ s.server.got = []

instance (cfg : Config) (s : Desk) : Decidable (s.Closed cfg) :=
  inferInstanceAs (Decidable (_ ∧ _ ∧ _ ∧ _))

/-- The server's `ReadFile` in progress has filled its buffer, with a length that is
    not negative if it is the one for the length word. -/
def Server.HasWhole (srv : Server) : Prop :=
  srv.frameRead.Full ∧ (srv.pc = .readSize → 0 ≤ (sizeWord srv.got).toInt)

instance (srv : Server) : Decidable srv.HasWhole := inferInstanceAs (Decidable (_ ∧ (_ → _)))

/-- If the step is the return of a call of the server, the call has read the whole of
    what it was to read, or there is no client any more to begin a round. -/
def ReadsWhole (cfg : Config) (s : Desk) (a : Event) : Prop :=
  a = .server .ret → s.server.HasWhole ∨ s.Closed cfg

instance (cfg : Config) (s : Desk) (a : Event) : Decidable (ReadsWhole cfg s a) :=
  inferInstanceAs (Decidable (_ → _ ∨ _))

/-! ## The invariant -/

/-- Up to the reply, what has been taken is the earlier requests and the piece of the
    frame that the server holds. -/
structure Handing (cfg : Config) (s : Desk) : Prop where
  atDesk : AtDesk cfg s
  stream : cfg.reuse = true ∨ s.server.pc.asked →
    s.pipe.toServer.taken = s.earlier cfg ++ s.server.frameRead.piece
  fresh : cfg.reuse = true → s.server.pc = .create → s.pipe.toServer.taken = []
  block : s.server.pc = .readData ∨ s.server.pc = .build →
    ∃ p, s.server.request = some p ∧ 0 ≤ s.server.rSize.toInt ∧ p.length = s.server.rSize.toNat

/-- A block for a length that is not negative has that length. -/
theorem malloc_of_nonneg (junk : Nat → Byte) {n : Word} (h : 0 ≤ n.toInt) :
    ∃ p, malloc junk n = some p ∧ p.length = n.toNat := by
  have hlt : n.toNat < 2 ^ 31 := by
    rw [BitVec.toInt_eq_toNat_cond] at h
    split_ifs at h <;> omega
  have hmalloc : malloc junk (BitVec.ofNat 32 n.toNat) = some ((List.range n.toNat).map junk) :=
    malloc_of_lt hlt
  rw [BitVec.ofNat_toNat, BitVec.setWidth_eq] at hmalloc
  exact ⟨_, hmalloc, by simp⟩

namespace Handing

variable {cfg : Config} {s : Desk}

theorem init (cfg : Config) : Handing cfg (sessions cfg).init where
  atDesk := AtDesk.init cfg
  stream _ := by
    unfold Desk.earlier
    split_ifs <;> rfl
  fresh _ _ := rfl
  block h := by rcases h with h | h <;> cases h

theorem reallyReceived (h : Handing cfg s) : ReallyReceived cfg s := by
  intro hpc
  obtain ⟨p, hp, hpos, hlen⟩ := h.block (.inr hpc)
  have hstream := h.stream (.inr (by rw [hpc]; trivial))
  simp only [Server.frameRead, hpc, FrameRead.piece, hp, Option.getD_some] at hstream
  exact ⟨p, hp, hpos, hlen, hstream⟩

/-- A visit takes nothing out of what the client has sent. -/
theorem visit {v : Visit} {p : Pipe} (h : Handing cfg s) (hv : s.pipe.visit cfg v = some p) :
    Handing cfg { s with pipe := p } := by
  have htaken : p.toServer.taken = s.pipe.toServer.taken := by
    unfold Pipe.visit at hv
    split at hv <;> split_ifs at hv <;> cases hv <;> rfl
  refine ⟨h.atDesk.visit hv, ?_, ?_, h.block⟩
  · intro hr
    exact htaken.trans (h.stream hr)
  · intro hr hpc
    exact htaken.trans (h.fresh hr hpc)

/-- With the client gone before the round, `replyPipes` returns and is called again. -/
theorem closed_step {srv : Server} {p : Pipe} (hclosed : s.Closed cfg)
    (hs : s.server.step cfg .ret s.pipe = some (srv, p)) : srv = s.server.enter ∧ p = s.pipe := by
  obtain ⟨hpc, hr, hgone, hgot⟩ := hclosed
  have henter : s.server.step cfg .ret s.pipe =
      if readReturns cfg.shortReads s.pipe.gone 4 s.server.got s.pipe.toServer then
        some (s.server.enter, s.pipe)
      else none := by
    simp [Server.step, hpc, hr, hgone, hgot]
  rw [henter] at hs
  split_ifs at hs
  cases hs
  exact ⟨rfl, rfl⟩

/-- Where no block is in use, the stream is all there is to show. -/
theorem of_stream (hdesk : AtDesk cfg s)
    (hpc : s.server.pc ≠ .create ∧ s.server.pc ≠ .readData ∧ s.server.pc ≠ .build)
    (hstream : cfg.reuse = true ∨ s.server.pc.asked →
      s.pipe.toServer.taken = s.earlier cfg ++ s.server.frameRead.piece) : Handing cfg s := by
  refine ⟨hdesk, hstream, fun _ hc => absurd hc hpc.1, ?_⟩
  rintro (hb | hb)
  · exact absurd hb hpc.2.1
  · exact absurd hb hpc.2.2

/-- A round that has not begun leaves the stream as it is. -/
theorem closed (h : Handing cfg s) (hclosed : s.Closed cfg)
    (hdesk : AtDesk cfg { s with server := s.server.enter }) :
    Handing cfg { s with server := s.server.enter } := by
  obtain ⟨hpc, hr, -, hgot⟩ := hclosed
  have htaken := h.stream (.inl hr)
  simp only [Server.frameRead, hpc, hgot] at htaken
  exact of_stream hdesk (by simp) fun _ => htaken

/-- The server stays inside the frame as long as its calls have read the whole of what
    they were to read. -/
theorem server {io : Io} {srv : Server} {p : Pipe} (ho : cfg.oneway = false)
    (h : Handing cfg s) (hwhole : io = .ret → s.server.HasWhole)
    (hs : Server.Step cfg s.server s.pipe io srv p) :
    Handing cfg { server := srv, pipe := p } := by
  have hdesk := h.atDesk.server hs
  have hasked : ∀ {pc : ServerPc}, s.server.pc = pc → pc.asked →
      s.pipe.toServer.taken = s.earlier cfg ++ s.server.frameRead.piece := by
    rintro _ rfl hpc
    exact h.stream (.inr hpc)
  cases hs with
  | create hpc =>
      refine of_stream hdesk (by simp) ?_
      intro _
      show [] = Desk.earlier cfg { s with server := { s.server with pc := .connect } } ++ []
      unfold Desk.earlier
      split_ifs with hr
      · -- with `-r` this is the first instance, and nothing has been handed over
        have hnil := h.stream (.inl hr)
        simp only [Server.frameRead, hpc, FrameRead.piece, List.append_nil, h.fresh hr hpc,
          Desk.earlier, hr, if_true] at hnil
        simpa using hnil
      · rfl
  | spin => exact h
  | block hpc | accept hpc =>
      have htaken := hasked hpc trivial
      simp only [Server.frameRead, hpc] at htaken
      exact of_stream hdesk (by simp) fun _ => htaken
  | takeSize hpc j hr =>
      obtain ⟨-, -, -, rfl, rfl⟩ := readPiece_eq_some.mp hr
      have htaken := hasked hpc trivial
      refine of_stream hdesk (by simp [hpc]) ?_
      intro _
      simp only [Server.frameRead, hpc, FrameRead.piece] at htaken ⊢
      rw [Channel.take_taken, htaken, List.append_assoc]
      rfl
  | clientClosed hpc hr hgone hgot => exact h.closed ⟨hpc, hr, hgone, hgot⟩ hdesk
  | sized hpc =>
      have htaken := hasked hpc trivial
      obtain ⟨hlen, hpos⟩ := hwhole rfl
      simp only [Server.frameRead, hpc, FrameRead.piece, FrameRead.Full] at htaken hlen
      have hword : intBytes (sizeWord s.server.got) = s.server.got := by
        rw [sizeWord, hlen, Nat.sub_self, List.replicate_zero, List.append_nil,
          intBytes_bytesInt hlen]
      obtain ⟨block, hblock, hblen⟩ := malloc_of_nonneg cfg.junk (hpos hpc)
      refine ⟨hdesk, ?_, (fun _ hc => by cases hc), fun _ => ⟨block, hblock, hpos hpc, hblen⟩⟩
      intro _
      show s.pipe.toServer.taken = s.earlier cfg ++ (intBytes (sizeWord s.server.got) ++ [])
      rw [hword, List.append_nil]
      exact htaken
  | takeData hpc j hb hr =>
      obtain ⟨-, -, -, rfl, rfl⟩ := readPiece_eq_some.mp hr
      have htaken := hasked hpc trivial
      refine ⟨hdesk, ?_, (fun _ hc => by simp [hpc] at hc), fun _ => h.block (.inl hpc)⟩
      intro _
      simp only [Server.frameRead, hpc, FrameRead.piece] at htaken ⊢
      rw [Channel.take_taken, htaken, List.append_assoc, List.append_assoc]
      rfl
  | readNull hpc hb =>
      obtain ⟨block, hsome, -⟩ := h.block (.inl hpc)
      rw [hb] at hsome
      cases hsome
  | dataRead hpc hb =>
      have htaken := hasked hpc trivial
      obtain ⟨hlen, -⟩ := hwhole rfl
      obtain ⟨block, hsome, hpos, hblen⟩ := h.block (.inl hpc)
      simp only [Server.frameRead, hpc, hb, FrameRead.piece, FrameRead.Full] at htaken hlen
      cases hb.symm.trans hsome
      have hfull := readInto_full hlen
      refine ⟨hdesk, ?_, (fun _ hc => by cases hc),
        fun _ => ⟨_, rfl, hpos, by rw [hfull, hlen, hblen]⟩⟩
      intro _
      show s.pipe.toServer.taken = s.earlier cfg ++
        (intBytes s.server.rSize ++ (some (readInto s.server.got _)).getD [])
      rw [hfull]
      exact htaken
  | reply hpc =>
      have htaken := hasked hpc trivial
      simp only [Server.frameRead, hpc, FrameRead.piece] at htaken
      rw [Server.reply_of_not_oneway ho] at hdesk ⊢
      refine of_stream hdesk (by simp) ?_
      rintro (hr | hpc')
      · show s.pipe.toServer.taken = Desk.earlier cfg { s with
          server := { s.server with
            received := s.server.received ++ [(s.server.rSize, s.server.request)] } } ++ []
        simp only [Desk.earlier, hr, if_true] at htaken ⊢
        rw [htaken, handedBytes, handedBytes, List.flatMap_append]
        simp
      · exact hpc'.elim
  | putReply hpc j hw =>
      obtain ⟨-, -, -, rfl, rfl⟩ := writePiece_eq_some.mp hw
      refine of_stream hdesk (by simp [hpc]) ?_
      intro hr
      have htaken := h.stream hr
      simp only [Server.frameRead, hpc] at htaken ⊢
      exact htaken
  | written hpc =>
      refine of_stream hdesk (by simp) ?_
      rintro (hr | hpc')
      · have htaken := h.stream (.inl hr)
        simp only [Server.frameRead, hpc] at htaken
        exact htaken
      · exact hpc'.elim
  | flushed hpc =>
      unfold Server.finish at hdesk ⊢
      split_ifs at hdesk ⊢ with hr
      · have htaken := h.stream (.inl hr)
        simp only [Server.frameRead, hpc] at htaken
        exact of_stream hdesk (by simp) fun _ => htaken
      · refine of_stream hdesk (by simp) ?_
        rintro (hr' | hpc')
        · exact absurd hr' hr
        · exact hpc'.elim
  | disconnect hpc =>
      refine of_stream hdesk (by simp) ?_
      rintro (hr | hpc')
      · exact absurd hpc (h.atDesk.kept hr).1
      · exact hpc'.elim
  | close hpc =>
      have hr : cfg.reuse = true → False := by
        intro hr
        exact (h.atDesk.kept hr).2 hpc
      refine ⟨hdesk, ?_, fun hr' => absurd hr' hr, (fun hb => by rcases hb with hb | hb <;> cases hb)⟩
      rintro (hr' | hpc')
      · exact absurd hr' hr
      · exact hpc'.elim
  | confirmed _ hone => simp [ho] at hone

theorem step {s' : Desk} {a : Event} (ho : cfg.oneway = false) (h : Handing cfg s)
    (ha : ReadsWhole cfg s a) (hs : (sessions cfg).step a s = some s') : Handing cfg s' := by
  rcases sessions_step hs with ⟨io, srv, p, rfl, hstep, rfl⟩ | ⟨v, p, -, hv, rfl⟩
  · by_cases hclosed : io = .ret ∧ s.Closed cfg
    · obtain ⟨rfl, hclosed⟩ := hclosed
      obtain ⟨rfl, rfl⟩ := closed_step hclosed hstep
      exact h.closed hclosed (h.atDesk.step hs)
    · apply h.server ho _ (Server.step_cases hstep)
      rintro rfl
      exact (ha rfl).resolve_right fun hc => hclosed ⟨rfl, hc⟩
  · exact h.visit hv

end Handing

/-- In every run whose calls of `ReadFile` in the server all read the whole of what
    they were to read, every call of the builder is handed what the client has sent
    in that round. -/
theorem reallyReceived_of_readsWhole {cfg : Config} {tr : List (Desk × Event)} {s : Desk}
    (ho : cfg.oneway = false) (h : Exec (sessions cfg) tr s) (hwhole : Meets (ReadsWhole cfg) tr) :
    ∀ t ∈ visited tr s, ReallyReceived cfg t := by
  intro t ht
  have hhanding : Handing cfg t :=
    h.invariant_visited (Handing.init cfg) (fun _ _ _ hI ha hs => hI.step ho ha hs) hwhole t ht
  exact hhanding.reallyReceived

/-! ## A request that is cut off, and one that is whole -/

/-- The connection is made. -/
def connectVisitor : List Event :=
  [.server .run, .server .run, .visit .createFile, .server .run]

/-- The client sends two bytes of request, and goes. -/
def wholeRequest : List Event :=
  connectVisitor ++ [.visit (.writeFile [2, 0, 0, 0, 1, 2]), .visit .closeHandle,
    .server (.take 4), .server .ret, .server (.take 2), .server .ret]

theorem wholeRequest_reallyReceived :
    ∃ tr s, s.server.pc = .build ∧ s.server.request = some [1, 2] ∧
      Exec (sessions (echoConfig true)) tr s ∧
      ∀ t ∈ visited tr s, ReallyReceived (echoConfig true) t := by
  have hrun : (sessions (echoConfig true)).runIf
      (fun s a => decide (ReadsWhole (echoConfig true) s a)) wholeRequest
      (sessions (echoConfig true)).init = some
        { server := { Server.start with
            pc := .build, got := [1, 2], rSize := 2, request := some [1, 2] }
          pipe := { Pipe.create with
            state := .closing, toServer := { taken := [2, 0, 0, 0, 1, 2], queue := [] } } } := by
    decide
  obtain ⟨tr, hexec, hmeets⟩ := Exec.of_runIf hrun
  exact ⟨tr, _, rfl, rfl, hexec, reallyReceived_of_readsWhole rfl hexec
    fun e he => of_decide_eq_true (hmeets e he)⟩

/-- The client announces two bytes, sends one, and goes. -/
def cutRequest : List Event :=
  connectVisitor ++ [.visit (.writeFile [2, 0, 0, 0, 1]), .visit .closeHandle,
    .server (.take 4), .server .ret, .server (.take 1), .server .ret]

/-- The state after `cutRequest`: the builder is about to be handed a byte that no
    client has sent. -/
def cutState : Desk :=
  { server := { Server.start with
      pc := .build, got := [1], rSize := 2, request := some [1, 0xCD] }
    pipe := { Pipe.create with
      state := .closing, toServer := { taken := [2, 0, 0, 0, 1], queue := [] } } }

theorem reachable_cutState (reuse : Bool) :
    Reachable (sessions (echoConfig reuse)) cutState := by
  have hrun : (sessions (echoConfig reuse)).run cutRequest = some cutState := by
    cases reuse <;> decide
  exact Exec.of_run hrun

theorem cutState_handsOver (reuse : Bool) : ¬ ReallyReceived (echoConfig reuse) cutState := by
  intro h
  obtain ⟨p, hp, -, -, htaken⟩ := h rfl
  cases hp
  have hlen := congrArg List.length htaken
  cases reuse <;> exact absurd hlen (by decide)

theorem cutRequest_not_reallyReceived :
    (Reachable (sessions (echoConfig false)) cutState ∧
        ¬ ReallyReceived (echoConfig false) cutState) ∧
      Reachable (sessions (echoConfig true)) cutState ∧
        ¬ ReallyReceived (echoConfig true) cutState :=
  ⟨⟨reachable_cutState false, cutState_handsOver false⟩,
    reachable_cutState true, cutState_handsOver true⟩

end IpcWin.Pipes
