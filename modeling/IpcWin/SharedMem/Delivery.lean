/-
  IpcWin.SharedMem.Delivery

  The request direction of shared memory mode.

  The two request sections change hands with the two auto-reset events, so the
  server copies out what the client wrote, in turn, and is never more than one
  request behind; while it copies, the client does not write.  None of this
  depends on the reply direction, whose events no one resets: it holds in every
  run, however far one side has run ahead there.
-/

import IpcWin.SharedMem.Exchange

namespace IpcWin.SharedMem

open IpcWin.Lib IpcWin.Wire

/-! ## What the two programs do to the request sections -/

/-- The step is the client's second copy into the request sections: the pair of
    size and data that they hold from then on. -/
def wrote (s : State) : Proc → Option Received
  | .server => none
  | .client =>
      match s.client.pc with
      | .writeData =>
          (copyTo s.client.rdataView s.kernel.clientMessageData s.client.rdata.bytes).map
            fun _ => s.client.rdata.received
      | _ => none

/-- The step is the server's second copy out of the request sections: the pair of
    size and data that it has then. -/
def copied (s : State) : Proc → Option Received
  | .client => none
  | .server =>
      match s.server.pc with
      | .readData =>
          (copyFrom s.server.requestDataView s.kernel.clientMessageData
            s.server.requestPacket.toNat).map fun bs => (s.server.requestPacket, some bs)
      | _ => none

/-- The server has been released by `ClientMadeRequestEvent` and has not finished
    copying. -/
def ServerPc.copying : ServerPc → Prop
  | .openSize | .openData | .mapRequestSize | .readSize | .mapRequestData | .readData => True
  | _ => False

/-- The client's next step writes into a request section. -/
def ClientPc.writing : ClientPc → Prop
  | .writeSize | .writeData => True
  | _ => False

/-! ## Both as values of the state -/

/-- One if the request in hand has been written. -/
def ClientPhase.wrote : ClientPhase → Nat
  | .written | .asking | .awaiting | .gotSize | .gotData => 1
  | _ => 0

/-- The requests written so far. -/
def ClientView.written (cfg : Config) (c : ClientView) : List Received :=
  (List.range (c.handed.length + c.phase.wrote)).map fun i => (cfg.request i).received

/-- The requests copied out so far: those the builder has been handed, and the one
    that it is about to be. -/
def ServerView.copiedOut (s : ServerView) : List Received :=
  match s.phase with
  | .copied | .building => s.received ++ [(s.requestPacket, some s.request)]
  | _ => s.received

/-- Whether the server holds a request that the builder has not been handed. -/
def ServerPhase.inHand : ServerPhase → Nat
  | .copied | .building => 1
  | _ => 0

/-- What has been copied out is the requests in turn, one for each that the builder
    has been handed and one more while it is in hand. -/
theorem Requests.copiedOut_eq {cfg : Config} {c : ClientView} {s : ServerView} {k : KernelView}
    (h : Requests cfg c s k) :
    s.copiedOut = (List.range (s.received.length + s.phase.inHand)).map
      fun i => (cfg.request i).received := by
  have hinHand : s.phase = .copied ∨ s.phase = .building →
      s.received ++ [(s.requestPacket, some s.request)] =
        (List.range (s.received.length + 1)).map fun i => (cfg.request i).received := by
    intro hp
    have hpacket := h.requestPacket (.inr hp)
    have hrequest := h.request hp
    rw [List.range_succ, List.map_append, ← h.received, hpacket, hrequest]
    rfl
  unfold ServerView.copiedOut
  cases hp : s.phase with
  | copied => exact hinHand (.inl hp)
  | building => exact hinHand (.inr hp)
  | _ => exact h.received

/-- The server has copied no more than the client wrote, and at most one less. -/
theorem Tokens.copied_le_written {c : ClientView} {s : ServerView} {k : KernelView}
    (h : Tokens c s k) :
    s.received.length + s.phase.inHand ≤ c.handed.length + c.phase.wrote ∧
      c.handed.length + c.phase.wrote ≤ s.received.length + s.phase.inHand + 1 := by
  obtain ⟨hone, hcount⟩ := h
  -- with one token, the request in hand and those on their way are settled by the two places
  cases hc : c.phase <;> cases hs : s.phase <;>
    simp only [hc, hs, ClientPhase.holds, ClientPhase.asked, ClientPhase.wrote,
      ServerPhase.holds, ServerPhase.taken, ServerPhase.inHand] at hone hcount ⊢ <;>
    omega

/-- While the server copies, the client does not hold the sections, and only with
    them in its hands does it write. -/
theorem Tokens.not_writing {s : State} (h : Tokens s.client.view s.server.view s.kernel.view)
    (hcopying : s.server.pc.copying) : ¬ s.client.pc.writing := by
  intro hwriting
  have hholds : s.server.pc.phase.holds = 1 := by
    cases hp : s.server.pc <;> simp [hp, ServerPc.copying] at hcopying <;> rfl
  have hclient : s.client.pc.phase.holds = 1 := by
    cases hp : s.client.pc <;> simp [hp, ClientPc.writing] at hwriting <;> rfl
  have hone := h.one
  simp only [Client.view, Server.view, hholds, hclient] at hone
  omega

/-! ## Steps -/

theorem copiedOut_server {cfg : Config} {s s' : Server} {k k' : Kernel} {c : Client}
    (h : s.step cfg k = some (s', k')) :
    s'.view.copiedOut = s.view.copiedOut ++
      (copied { client := c, server := s, kernel := k } .server).toList := by
  cases hpc : s.pc <;> simp only [Server.step, hpc] at h
  case waitMade =>
    split_ifs at h
    cases h
    unfold Server.released
    split_ifs <;> simp [ServerView.copiedOut, copied, Server.view, hpc, ServerPc.phase]
  case readData =>
    split_ifs at h
    split at h
    · rename_i hnone
      cases h
      simp [ServerView.copiedOut, copied, Server.view, Server.crash, hpc, ServerPc.phase, hnone]
    · rename_i bs hbs
      cases h
      simp [ServerView.copiedOut, copied, Server.view, hpc, ServerPc.phase, hbs]
  case build =>
    split_ifs at h
    cases h
    unfold Server.build
    split_ifs <;> simp [ServerView.copiedOut, copied, Server.view, hpc, ServerPc.phase]
  case readSize | writeSize | writeData =>
    split_ifs at h
    split at h
    · cases h
      simp [ServerView.copiedOut, copied, Server.view, Server.crash, hpc, ServerPc.phase]
    · cases h
      simp [ServerView.copiedOut, copied, Server.view, hpc, ServerPc.phase]
  -- every other step neither copies nor builds
  all_goals
    split_ifs at h
    cases h
    simp [ServerView.copiedOut, copied, Server.view, hpc, ServerPc.phase]

theorem written_client {cfg : Config} {c c' : Client} {k k' : Kernel} {srv : Server}
    (hr : Requests cfg c.view srv.view k.view) (h : c.step cfg k = some (c', k')) :
    c'.view.written cfg = c.view.written cfg ++
      (wrote { client := c, server := srv, kernel := k } .client).toList := by
  cases hpc : c.pc <;> simp only [Client.step, hpc] at h
  case build =>
    split_ifs at h
    cases h
    unfold Client.build
    split_ifs <;>
      simp [ClientView.written, wrote, Client.view, hpc, ClientPc.phase, ClientPhase.wrote]
  case writeData =>
    split_ifs at h
    split at h
    · rename_i hnone
      cases h
      simp [ClientView.written, wrote, Client.view, Client.crash, hpc, ClientPc.phase,
        ClientPhase.wrote, hnone]
    · rename_i sec hsec
      cases h
      -- what is written is the request that the client is at
      have hrdata : c.rdata = cfg.request c.handed.length := by
        apply hr.rdata
        right
        simp only [Client.view, hpc, ClientPc.phase]
      simp only [ClientView.written, wrote, Client.view, hpc, ClientPc.phase, ClientPhase.wrote,
        hsec, Option.map_some, Option.toList_some, List.range_succ, List.map_append, List.map_cons,
        List.map_nil, Nat.add_zero, ← hrdata]
  case waitResponse =>
    split_ifs at h
    cases h
    unfold Client.released
    split_ifs <;>
      simp [ClientView.written, wrote, Client.view, hpc, ClientPc.phase, ClientPhase.wrote]
  case readSize | writeSize | readData =>
    split_ifs at h
    split at h
    · cases h
      simp [ClientView.written, wrote, Client.view, Client.crash, hpc, ClientPc.phase,
        ClientPhase.wrote]
    · cases h
      simp [ClientView.written, wrote, Client.view, hpc, ClientPc.phase, ClientPhase.wrote]
  -- every other step writes nothing, and the last one only begins the next count
  all_goals
    split_ifs at h
    cases h
    simp [ClientView.written, wrote, Client.view, hpc, ClientPc.phase, ClientPhase.wrote]

/-! ## Runs -/

theorem observed_copied {cfg : Config} {tr : List (State × Proc)} {s : State}
    (h : Exec (conversation cfg) tr s) : observed copied tr = s.server.view.copiedOut := by
  apply h.observed_eq (I := fun _ => True) _ _ (fun _ _ => trivial)
  · show (Server.start cfg).view.copiedOut = []
    unfold ServerView.copiedOut
    rw [Server.start_phase]
    rfl
  · intro t a t' _ hs
    rcases conversation_step hs with ⟨c, k, rfl, hstep, rfl⟩ | ⟨srv, k, rfl, hstep, rfl⟩
    · exact (List.append_nil _).symm
    · exact copiedOut_server hstep

theorem observed_wrote {cfg : Config} {tr : List (State × Proc)} {s : State}
    (h : Exec (conversation cfg) tr s) (hpass : ∀ t ∈ visited tr s, Passing cfg t) :
    observed wrote tr = s.client.view.written cfg := by
  apply h.observed_eq _ _ hpass
  · show (Client.start cfg).view.written cfg = []
    unfold ClientView.written
    rw [Client.start_phase]
    rfl
  · intro t a t' hI hs
    rcases conversation_step hs with ⟨c, k, rfl, hstep, rfl⟩ | ⟨srv, k, rfl, hstep, rfl⟩
    · exact written_client hI.requests hstep
    · exact (List.append_nil _).symm

/-- What a run of the request direction should look like: the pairs copied out are
    a prefix of those written and at most one behind, those written are the
    client's requests in turn, and no write falls into the server's copying. -/
structure RequestsDelivered (cfg : Config) (tr : List (State × Proc)) (s : State) : Prop where
  copied_prefix : observed copied tr <+: observed wrote tr
  none_lost : (observed wrote tr).length ≤ (observed copied tr).length + 1
  wrote_eq : observed wrote tr =
    (List.range (observed wrote tr).length).map fun i => (cfg.request i).received
  exclusive : ∀ t ∈ visited tr s, t.server.pc.copying → ¬ t.client.pc.writing

theorem requestsDelivered_of_exec {cfg : Config} {tr : List (State × Proc)} {s : State}
    (h : Exec (conversation cfg) tr s) : RequestsDelivered cfg tr s := by
  have hpass : ∀ t ∈ visited tr s, Passing cfg t := by
    intro t ht
    obtain ⟨tr', -, hexec⟩ := h.prefix ht
    exact hexec.invariant_all (passing_init cfg) (fun _ _ _ hI hs => passing_step hI hs)
  have hlast : Passing cfg s := hpass s (by simp)
  have hwrote := observed_wrote h hpass
  have hcopied := (observed_copied h).trans hlast.requests.copiedOut_eq
  obtain ⟨hle, hge⟩ := hlast.tokens.copied_le_written
  unfold ClientView.written at hwrote
  refine ⟨?_, ?_, ?_, fun t ht => (hpass t ht).tokens.not_writing⟩
  · rw [hcopied, hwrote]
    exact map_range_prefix _ hle
  · rw [hcopied, hwrote]
    simpa using hge
  · rw [hwrote, List.length_map, List.length_range]

/-- The client has run ahead to a third request, which the server has not copied. -/
theorem hastyRounds_requestsDelivered :
    ∃ tr s, Exec (conversation twoReplies) tr s ∧
      observed copied tr = [(1, some [0x3F]), (1, some [0x3F])] ∧
      RequestsDelivered twoReplies tr s := by
  have hrun : ((conversation twoReplies).run (hastyRounds ++ List.replicate 9 .client)).map
      (fun s => s.server.view.copiedOut) = some [(1, some [0x3F]), (1, some [0x3F])] := by
    decide +kernel
  obtain ⟨s, hs, hcopied⟩ := Option.map_eq_some_iff.mp hrun
  obtain ⟨tr, hexec⟩ := Exec.of_run hs
  exact ⟨tr, s, hexec, (observed_copied hexec).trans hcopied, requestsDelivered_of_exec hexec⟩

end IpcWin.SharedMem
