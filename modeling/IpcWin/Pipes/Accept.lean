/-
  IpcWin.Pipes.Accept

  When the accept loop of `pipe_init` ends.

  The loop calls `ConnectNamedPipe` until it returns non-zero.  A client that
  opens the instance while the server is blocked inside the call ends it.  A
  client that opens it before the call makes every later call return zero, with
  `ERROR_PIPE_CONNECTED`, and the loop does not look at the error: the client
  then waits for a reply for good.
-/

import IpcWin.Pipes.Conversation

namespace IpcWin.Pipes

open IpcWin.Lib IpcWin.Wire

/-- The server is in the accept loop. -/
def ServerPc.inAccept : ServerPc → Prop
  | .connect => True
  | .connecting => True
  | _ => False

instance : (pc : ServerPc) → Decidable pc.inAccept
  | .connect | .connecting => isTrue trivial
  | .create | .readSize | .readData | .build | .write | .flush | .disconnect | .close =>
      isFalse not_false

/-- Whenever a client is connected, the next step of the accept loop leaves it. -/
def AcceptEnds (cfg : Config) (s : State) : Prop :=
  s.pipe.state = .connected → s.server.pc.inAccept →
    ∃ s', (conversation cfg).step (.server .run) s = some s' ∧ ¬ s'.server.pc.inAccept

/-- If the step is the client opening the instance, the server is already blocked
    inside `ConnectNamedPipe`. -/
def OpensWhileConnecting (s : State) (a : Action) : Prop :=
  a = .client .run → s.client.pc = .createFile → s.server.pc = .connecting

instance (s : State) (a : Action) : Decidable (OpensWhileConnecting s a) :=
  inferInstanceAs (Decidable (_ → _ → _))

/-- The loop can only fail to end by calling `ConnectNamedPipe` with a client connected. -/
theorem acceptEnds_iff (cfg : Config) (s : State) :
    AcceptEnds cfg s ↔ ¬ (s.pipe.state = .connected ∧ s.server.pc = .connect) := by
  refine ⟨?_, ?_⟩
  · rintro h ⟨hp, hpc⟩
    -- on an instance with a client the call returns zero, and the loop goes round
    obtain ⟨s', hs', hout⟩ := h hp (by rw [hpc]; trivial)
    have hspin : (conversation cfg).step (.server .run) s = some s := by
      simp [conversation, Server.step, hpc, hp]
    rw [hspin, Option.some.injEq] at hs'
    subst hs'
    exact hout (by rw [hpc]; trivial)
  · intro h hp hin
    have hpc : s.server.pc = .connecting := by
      cases hpc : s.server.pc with
      | connect => exact absurd ⟨hp, hpc⟩ h
      | connecting => rfl
      | _ => simp [hpc, ServerPc.inAccept] at hin
    refine ⟨{ s with server := s.server.enter }, ?_, ?_⟩
    · simp [conversation, Server.step, hpc, hp]
    · exact not_false

/-! ## The invariant -/

/-- An instance that can be opened is one the server is accepting on, and the
    server does not call `ConnectNamedPipe` on an instance with a client. -/
structure Accepting (s : State) : Prop where
  listening : s.pipe.state = .listening → s.server.pc.inAccept
  connected : s.pipe.state = .connected → s.server.pc ≠ .connect

/-- Only the accept loop has an instance that can be opened. -/
theorem listening_step {cfg : Config} {s s' : State} {a : Action}
    (hs : (conversation cfg).step a s = some s')
    (h : s.pipe.state = .listening → s.server.pc.inAccept) :
    s'.pipe.state = .listening → s'.server.pc.inAccept := by
  rcases conversation_step hs with ⟨io, srv, p, -, hstep, rfl⟩ | ⟨io, c, p, -, hstep, rfl⟩
  · cases hstep with
    | create | block => exact fun _ => trivial
    | accept _ hp => exact fun hl => absurd hl hp
    | disconnect | close => exact fun hl => by cases hl
    | spin => exact h
    | takeSize hpc | clientClosed hpc | sized hpc | takeData hpc | readNull hpc | dataRead hpc
    | reply hpc | putReply hpc | confirmed hpc | written hpc | flushed hpc =>
        -- the server is in `replyPipes`, so the instance cannot be opened
        intro hl
        have hin := h hl
        rw [hpc] at hin
        exact hin.elim
  · cases hstep with
    | createFile => exact fun hl => by cases hl
    | close =>
        intro hl
        unfold Client.closeHandle at hl
        split_ifs at hl
        exact h hl
    | _ => exact h

theorem accepting_step {cfg : Config} {s s' : State} {a : Action} (h : Accepting s)
    (ha : OpensWhileConnecting s a) (hs : (conversation cfg).step a s = some s') :
    Accepting s' := by
  refine ⟨listening_step hs h.listening, ?_⟩
  have hconn := h.connected
  rcases conversation_step hs with ⟨io, srv, p, -, hstep, rfl⟩ | ⟨io, c, p, rfl, hstep, rfl⟩
  · cases hstep with
    | create => exact fun hc => by cases hc
    | spin => exact hconn
    | takeSize hpc | takeData hpc | putReply hpc => exact fun _ => by simp [hpc]
    | confirmed | flushed =>
        intro _
        rw [Server.finish_pc]
        split <;> simp
    | _ => exact fun _ => by simp
  · cases hstep with
    | createFile hpc => exact fun _ => by simp [ha rfl hpc]
    | close =>
        intro hl
        unfold Client.closeHandle at hl
        split_ifs at hl
        exact hconn hl
    | _ => exact hconn

/-- The client's step at `CreateFile` opens an instance that can be opened. -/
theorem createFile_step {cfg : Config} {s s' : State}
    (hs : (conversation cfg).step (.client .run) s = some s') (hpc : s.client.pc = .createFile) :
    s.pipe.state = .listening ∧ s'.pipe.state = .connected ∧ s'.server = s.server := by
  rcases conversation_step hs with ⟨_, _, _, hc, _, _⟩ | ⟨_, c, p, hc, hstep, rfl⟩
  · cases hc
  · cases hc
    cases hstep with
    | createFile _ hl => exact ⟨hl, rfl, rfl⟩
    | enter h | waited h | request h | close h | deliver h => simp [hpc] at h

/-- In every run, the accept loop ends at its next step in all states with a
    client connected exactly when the client only ever opens an instance while
    the server is blocked inside `ConnectNamedPipe`. -/
theorem acceptEnds_iff_opensWhileConnecting {cfg : Config} {tr : List (State × Action)} {s : State}
    (h : Exec (conversation cfg) tr s) :
    (∀ t ∈ visited tr s, AcceptEnds cfg t) ↔ Meets OpensWhileConnecting tr := by
  refine ⟨?_, ?_⟩
  · rintro hends ⟨t, a⟩ hmem rfl hpc
    -- the instance that is opened is one the server is accepting on
    obtain ⟨t', hvis, hstep⟩ := h.step_of_mem hmem
    obtain ⟨hl, hconn, hsrv⟩ := createFile_step hstep hpc
    have hin : t.server.pc.inAccept := by
      obtain ⟨tr', -, hexec⟩ := h.prefix (mem_visited.mpr (.inl ⟨_, hmem⟩))
      exact hexec.invariant_all (I := fun s => s.pipe.state = .listening → s.server.pc.inAccept)
        (fun hl => by cases hl) (fun _ _ _ hI hs => listening_step hs hI) hl
    have hend := (acceptEnds_iff cfg t').mp (hends t' hvis)
    rw [hsrv] at hend
    show t.server.pc = .connecting
    cases hpc' : t.server.pc with
    | connecting => rfl
    | connect => exact absurd ⟨hconn, hpc'⟩ hend
    | _ => simp [hpc', ServerPc.inAccept] at hin
  · intro hmeets t ht
    have hinit : Accepting (conversation cfg).init :=
      ⟨fun hl => (by cases hl), fun hc => (by cases hc)⟩
    have hacc : Accepting t :=
      h.invariant_visited hinit (fun _ _ _ hI ha hs => accepting_step hI ha hs) hmeets t ht
    exact (acceptEnds_iff cfg t).mpr fun hbad => hacc.connected hbad.1 hbad.2

/-! ## A client that is too early, and one that is not -/

/-- One-byte requests and replies, each over an instance of its own. -/
def oneByteConfig : Config :=
  { reuse := false, oneway := false, inbuf := 64, outbuf := 64, shortReads := false
    junk := fun _ => 0
    request := fun _ => .ofByte 0x41
    builder := fun _ => .ofByte 0x42 }

/-- The instance is created, and opened before the server calls `ConnectNamedPipe`. -/
def earlyOpen : List Action :=
  [.server .run, .client .run, .client .run, .client .run, .client .run, .client (.put 5),
    .client .ret]

/-- The state that `earlyOpen` leads to: the request is queued, and the client
    waits for the reply. -/
def earlyState : State :=
  { server := { Server.start with pc := .connect }
    client := { Client.start with pc := .readSize, hPipe := true, made := 1 }
    pipe := { Pipe.create with
      state := .connected, toServer := { taken := [], queue := [1, 0, 0, 0, 0x41] } } }

/-- From there no step of either program changes anything any more. -/
theorem earlyOpen_hangs :
    (∃ tr, Exec (conversation oneByteConfig) tr earlyState) ∧
      ¬ AcceptEnds oneByteConfig earlyState ∧ earlyState.client.pc = .readSize ∧
      ∀ a t, (conversation oneByteConfig).step a earlyState = some t → t = earlyState := by
  have hrun : (conversation oneByteConfig).run earlyOpen = some earlyState := by decide
  refine ⟨Exec.of_run hrun, ?_, rfl, ?_⟩
  · rw [acceptEnds_iff]
    exact fun h => h ⟨rfl, rfl⟩
  · rintro (io | io) t ht
    · rcases conversation_step ht with ⟨_, srv, p, -, hstep, rfl⟩ | ⟨_, _, _, hc, _, _⟩
      · cases hstep with
        | spin => rfl
        | block _ hp => cases hp
        | _ => contradiction
      · cases hc
    · rcases conversation_step ht with ⟨_, _, _, hc, _, _⟩ | ⟨_, c, p, -, hstep, rfl⟩
      · cases hc
      · cases hstep with
        | takeSize _ j hr =>
            obtain ⟨h1, hle, -⟩ := readPiece_eq_some.mp hr
            simp [earlyState, Pipe.create] at hle
            omega
        | sized _ hr => simp [earlyState, Client.start, readReturns, oneByteConfig, Pipe.gone] at hr
        | _ => contradiction

/-- The server is blocked inside the call when the client opens the instance. -/
def patientOpen : List Action :=
  [.server .run, .server .run, .client .run, .client .run, .client .run, .server .run]

theorem patientOpen_acceptEnds :
    ∃ tr s, s.pipe.state = .connected ∧
      ((∀ t ∈ visited tr s, AcceptEnds oneByteConfig t) ↔ Meets OpensWhileConnecting tr) ∧
      Meets OpensWhileConnecting tr := by
  have hrun : (conversation oneByteConfig).runIf (fun s a => decide (OpensWhileConnecting s a))
      patientOpen (conversation oneByteConfig).init = some
        { server := Server.start.enter
          client := { Client.start with pc := .build, hPipe := true }
          pipe := { Pipe.create with state := .connected } } := by decide
  obtain ⟨tr, hexec, hmeets⟩ := Exec.of_runIf hrun
  exact ⟨tr, _, rfl, acceptEnds_iff_opensWhileConnecting hexec,
    fun e he => of_decide_eq_true (hmeets e he)⟩

end IpcWin.Pipes
