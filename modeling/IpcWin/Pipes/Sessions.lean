/-
  IpcWin.Pipes.Sessions

  The pipe server and one client after the other.

  The clients are arbitrary: whoever opens the instance writes and reads what it
  likes and disconnects when it likes.  A server that outlives its clients comes
  back to an instance that a client has open or can open, whatever happens
  (`Outlives`).  With `-r` it does not, because `replyPipes` returns and is called
  again with the same transport ("CLIENT CLOSED", again and again), and without
  `-r` it does not when a client comes and goes before `ConnectNamedPipe` is
  called (`outlives_iff_closesServed`).
-/

import IpcWin.Lib.Transition
import IpcWin.Pipes.Server
import Mathlib.Data.Prod.Lex

namespace IpcWin.Pipes

open IpcWin.Lib IpcWin.Wire

/-! ## Any client -/

/-- What a client can do with the pipe. -/
inductive Visit where
  /-- `CreateFile` -/
  | createFile
  /-- a piece of a `WriteFile` -/
  | writeFile (bs : List Byte)
  /-- a piece of a `ReadFile` -/
  | readFile (n : Nat)
  /-- `CloseHandle`, or the end of the process -/
  | closeHandle
deriving DecidableEq, Repr

/-- A client opens an instance that is there to be opened, and uses one that it has
    open. -/
def Pipe.visit (cfg : Config) (v : Visit) (p : Pipe) : Option Pipe :=
  match v with
  | .createFile => if p.state = .listening then some { p with state := .connected } else none
  | .writeFile bs =>
      if p.state = .connected ∧ p.toServer.queue.length + bs.length ≤ cfg.inbuf then
        some { p with toServer := p.toServer.put bs }
      else none
  | .readFile n =>
      if p.state = .connected then some { p with toClient := p.toClient.take n } else none
  | .closeHandle => if p.state = .connected then some { p with state := .closing } else none

/-- The server and its pipe. -/
structure Desk where
  server : Server
  pipe : Pipe
deriving DecidableEq, Repr

/-- The server moves, or a client does. -/
inductive Event where
  | server (io : Io)
  | visit (v : Visit)
deriving DecidableEq, Repr

/-- The server with its clients as a transition system. -/
def sessions (cfg : Config) : System Desk Event where
  init := { server := .start, pipe := .absent }
  step
    | .server io, s => (s.server.step cfg io s.pipe).map fun q => { server := q.1, pipe := q.2 }
    | .visit v, s => (s.pipe.visit cfg v).map fun p => { s with pipe := p }

/-- A step of the sessions is one of the server or one of a client. -/
theorem sessions_step {cfg : Config} {a : Event} {s s' : Desk}
    (h : (sessions cfg).step a s = some s') :
    (∃ io srv p, a = .server io ∧ s.server.step cfg io s.pipe = some (srv, p) ∧
        s' = { server := srv, pipe := p }) ∨
      ∃ v p, a = .visit v ∧ s.pipe.visit cfg v = some p ∧ s' = { s with pipe := p } := by
  cases a with
  | server io =>
      obtain ⟨⟨srv, p⟩, hstep, rfl⟩ := Option.map_eq_some_iff.mp h
      exact .inl ⟨io, srv, p, rfl, hstep, rfl⟩
  | visit v =>
      obtain ⟨p, hstep, rfl⟩ := Option.map_eq_some_iff.mp h
      exact .inr ⟨v, p, rfl, hstep, rfl⟩

/-- A client does nothing with an instance that it can neither open nor use. -/
theorem visit_eq_none {cfg : Config} {v : Visit} {p : Pipe} (h₁ : p.state ≠ .listening)
    (h₂ : p.state ≠ .connected) : p.visit cfg v = none := by
  cases v <;> simp [Pipe.visit, h₁, h₂]

/-- Only `CloseHandle` leaves an instance that is not connected. -/
theorem visit_connected {cfg : Config} {v : Visit} {p p' : Pipe} (hv : v ≠ .closeHandle)
    (h : p.visit cfg v = some p') : p'.state = .connected := by
  cases v with
  | createFile =>
      simp only [Pipe.visit] at h
      split_ifs at h
      cases h
      rfl
  | writeFile bs =>
      simp only [Pipe.visit] at h
      split_ifs at h with hp
      cases h
      exact hp.1
  | readFile n =>
      simp only [Pipe.visit] at h
      split_ifs at h with hp
      cases h
      exact hp
  | closeHandle => exact absurd rfl hv

/-! ## Outliving a client -/

/-- A client has the instance open, or can open it. -/
def Served (s : Desk) : Prop := s.pipe.state = .connected ∨ s.pipe.state = .listening

/-- The server is bound to come to an instance that a client has open or can open. -/
def Outlives (cfg : Config) (s : Desk) : Prop := Inevitable (sessions cfg) Served s

/-- If the step is a client's disconnect, the server is without `-r` and not in its
    accept loop outside `ConnectNamedPipe`. -/
def ClosesServed (cfg : Config) (s : Desk) (a : Event) : Prop :=
  a = .visit .closeHandle → cfg.reuse = false ∧ s.server.pc ≠ .connect

instance (cfg : Config) (s : Desk) (a : Event) : Decidable (ClosesServed cfg s a) :=
  inferInstanceAs (Decidable (_ → _ ∧ _))

/-! ## The server at the instance -/

/-- Where the server can be, by the state of its instance. -/
def PipeState.Holds : PipeState → ServerPc → Prop
  | .absent, pc => pc = .create
  | .listening, pc => pc = .connect ∨ pc = .connecting
  | .connected, pc | .closing, pc => pc ≠ .create ∧ pc ≠ .close
  | .disconnected, pc => pc = .close

/-- The server is where the instance says, no `ReadFile` in progress has taken more
    than it was called for, and with `-r` the instance is never taken down. -/
structure AtDesk (cfg : Config) (s : Desk) : Prop where
  holds : s.pipe.state.Holds s.server.pc
  size : s.server.pc = .readSize → s.server.got.length ≤ 4
  data : s.server.pc = .readData →
    ∀ block, s.server.request = some block → s.server.got.length ≤ block.length
  kept : cfg.reuse = true → s.server.pc ≠ .disconnect ∧ s.server.pc ≠ .close

/-- The calls of `replyPipes` that use the transport. -/
def ServerPc.replying : ServerPc → Prop
  | .create | .connect | .connecting | .close => False
  | _ => True

/-- The transport of `replyPipes` has or had a client. -/
theorem PipeState.Holds.live {st : PipeState} {pc : ServerPc} (h : st.Holds pc)
    (hpc : pc.replying) : st = .connected ∨ st = .closing := by
  cases st with
  | connected => exact .inl rfl
  | closing => exact .inr rfl
  | absent | disconnected =>
      cases (show pc = _ from h)
      exact hpc.elim
  | listening =>
      rcases (show pc = _ ∨ pc = _ from h) with rfl | rfl <;> exact hpc.elim

theorem PipeState.Holds.of_live {st : PipeState} {pc : ServerPc}
    (h : st = .connected ∨ st = .closing) (hpc : pc ≠ .create ∧ pc ≠ .close) : st.Holds pc := by
  rcases h with rfl | rfl <;> exact hpc

namespace AtDesk

variable {cfg : Config} {s : Desk}

theorem init (cfg : Config) : AtDesk cfg (sessions cfg).init where
  holds := rfl
  size h := by cases h
  data h := by cases h
  kept _ := by simp [sessions, Server.start]

/-- A visit leaves the server where it is. -/
theorem visit {v : Visit} {p : Pipe} (h : AtDesk cfg s) (hv : s.pipe.visit cfg v = some p) :
    AtDesk cfg { s with pipe := p } := by
  refine ⟨?_, h.size, h.data, h.kept⟩
  have hholds := h.holds
  -- an instance that can be visited is one that the server has created
  have hpc : s.server.pc ≠ .create ∧ s.server.pc ≠ .close := by
    cases hst : s.pipe.state with
    | connected | closing =>
        rw [hst] at hholds
        exact hholds
    | listening =>
        rw [hst] at hholds
        rcases (show s.server.pc = _ ∨ s.server.pc = _ from hholds) with hpc | hpc <;> simp [hpc]
    | absent | disconnected =>
        rw [visit_eq_none (by simp [hst]) (by simp [hst])] at hv
        cases hv
  apply PipeState.Holds.of_live _ hpc
  by_cases hclose : v = .closeHandle
  · subst hclose
    simp only [Pipe.visit] at hv
    split_ifs at hv
    cases hv
    exact .inr rfl
  · exact .inl (visit_connected hclose hv)

theorem server {io : Io} {srv : Server} {p : Pipe} (h : AtDesk cfg s)
    (hs : Server.Step cfg s.server s.pipe io srv p) : AtDesk cfg { server := srv, pipe := p } := by
  have hlive : ∀ {pc : ServerPc}, s.server.pc = pc → pc.replying →
      s.pipe.state = .connected ∨ s.pipe.state = .closing := by
    rintro _ rfl hpc
    exact h.holds.live hpc
  have henter : ∀ srv' : Server, (s.pipe.state = .connected ∨ s.pipe.state = .closing) →
      AtDesk cfg { server := srv'.enter, pipe := s.pipe } := by
    intro srv' hstate
    exact ⟨PipeState.Holds.of_live hstate (by simp), fun _ => Nat.zero_le 4,
      (fun hpc => by cases hpc), fun _ => by simp⟩
  have hfinish : ∀ srv' : Server, (s.pipe.state = .connected ∨ s.pipe.state = .closing) →
      AtDesk cfg { server := srv'.finish cfg, pipe := s.pipe } := by
    intro srv' hstate
    unfold Server.finish
    split_ifs with hr
    · exact henter srv' hstate
    · exact ⟨PipeState.Holds.of_live hstate (by simp), (fun hpc => by cases hpc),
        (fun hpc => by cases hpc), fun hr' => absurd hr' hr⟩
  cases hs with
  | create => exact ⟨.inl rfl, (fun hpc => by cases hpc), (fun hpc => by cases hpc), fun _ => by simp⟩
  | block _ hp =>
      refine ⟨?_, (fun hpc => by cases hpc), (fun hpc => by cases hpc), fun _ => by simp⟩
      show s.pipe.state.Holds .connecting
      rw [hp]
      exact .inr rfl
  | spin => exact h
  | accept hpc hp =>
      apply henter
      have hholds := h.holds
      rw [hpc] at hholds
      cases hst : s.pipe.state with
      | connected => exact .inl rfl
      | closing => exact .inr rfl
      | listening => exact absurd hst hp
      | absent | disconnected =>
          rw [hst] at hholds
          cases hholds
  | takeSize hpc j hr =>
      obtain ⟨-, hj, hlen, rfl, rfl⟩ := readPiece_eq_some.mp hr
      refine ⟨h.holds, ?_, (fun hd => by simp [hpc] at hd), h.kept⟩
      intro _
      show (s.server.got ++ _).length ≤ 4
      rw [List.length_append, List.length_take]
      omega
  | clientClosed hpc => exact henter s.server (hlive hpc trivial)
  | sized hpc =>
      exact ⟨PipeState.Holds.of_live (hlive hpc trivial) (by simp), (fun hd => by cases hd),
        fun _ _ _ => Nat.zero_le _, fun _ => by simp⟩
  | takeData hpc j hb hr =>
      obtain ⟨-, hj, hlen, rfl, rfl⟩ := readPiece_eq_some.mp hr
      refine ⟨h.holds, (fun hd => by simp [hpc] at hd), ?_, h.kept⟩
      intro _ block hblock
      cases hb.symm.trans hblock
      show (s.server.got ++ _).length ≤ _
      rw [List.length_append, List.length_take]
      omega
  | putReply hpc j hw =>
      exact ⟨h.holds, (fun hd => by simp [hpc] at hd), (fun hd => by simp [hpc] at hd), h.kept⟩
  | confirmed hpc => exact hfinish _ (hlive hpc trivial)
  | flushed hpc => exact hfinish _ (hlive hpc trivial)
  | disconnect hpc =>
      refine ⟨rfl, (fun hd => by cases hd), (fun hd => by cases hd), ?_⟩
      intro hr
      exact absurd hpc (h.kept hr).1
  | close hpc =>
      exact ⟨rfl, (fun hd => by cases hd), (fun hd => by cases hd), fun _ => by simp⟩
  | readNull hpc | dataRead hpc | reply hpc | written hpc =>
      exact ⟨PipeState.Holds.of_live (hlive hpc trivial) (by simp), (fun hd => by simp at hd),
        (fun hd => by simp at hd), fun _ => by simp⟩

theorem step {s' : Desk} {a : Event} (h : AtDesk cfg s)
    (hs : (sessions cfg).step a s = some s') : AtDesk cfg s' := by
  rcases sessions_step hs with ⟨io, srv, p, -, hstep, rfl⟩ | ⟨v, p, -, hv, rfl⟩
  · exact h.server (Server.step_cases hstep)
  · exact h.visit hv

end AtDesk

/-! ## On the way to the next client -/

/-- A client that has gone leaves a server that will take the instance down: it is
    without `-r`, and not in its accept loop. -/
structure Recovers (cfg : Config) (s : Desk) : Prop where
  atDesk : AtDesk cfg s
  closing : s.pipe.state = .closing → cfg.reuse = false ∧ s.server.pc ≠ .connect

/-- How many calls there are, at most, up to the next `CreateNamedPipe`. -/
def ServerPc.rank : ServerPc → Nat
  | .connect => 0
  | .create => 1
  | .close => 2
  | .disconnect => 3
  | .flush => 4
  | .write => 5
  | .build => 6
  | .readData => 7
  | .readSize => 8
  | .connecting => 9

/-- First the calls that are left, then the bytes that the current one may still
    move. -/
def Desk.measure (s : Desk) : ℕ ×ₗ ℕ :=
  toLex (s.server.pc.rank, s.pipe.toServer.queue.length + s.server.pending.length)

theorem Desk.measure_lt_of_rank {s s' : Desk} (h : s'.server.pc.rank < s.server.pc.rank) :
    s'.measure < s.measure :=
  Prod.Lex.toLex_lt_toLex.mpr (.inl h)

theorem Desk.measure_lt_of_bytes {s s' : Desk} (hpc : s'.server.pc = s.server.pc)
    (h : s'.pipe.toServer.queue.length + s'.server.pending.length <
      s.pipe.toServer.queue.length + s.server.pending.length) :
    s'.measure < s.measure :=
  Prod.Lex.toLex_lt_toLex.mpr (.inr ⟨congrArg ServerPc.rank hpc, h⟩)

/-- With the client gone, a `ReadFile` takes what is left or returns. -/
theorem read_of_gone {m : Nat} {got : List Byte} (ch : Channel Byte) (hle : got.length ≤ m) :
    readPiece m got ch 1 ≠ none ∨ ∀ shortReads, readReturns shortReads true m got ch = true := by
  by_cases htake : readPiece m got ch 1 = none
  · right
    intro shortReads
    by_contra hret
    obtain ⟨hqueue, -⟩ := read_blocked hle htake hret
    exact hret (by simp [readReturns, hqueue])
  · exact .inl htake

/-- With the client gone, no call of the server blocks. -/
theorem AtDesk.step_of_gone {cfg : Config} {s : Desk} (h : AtDesk cfg s)
    (hgone : s.pipe.gone = true) (hlisten : s.pipe.state ≠ .listening) :
    ∃ io, (s.server.step cfg io s.pipe).isSome = true := by
  cases hpc : s.server.pc with
  | create | build | disconnect | close => exact ⟨.run, by simp [Server.step, hpc]⟩
  | connect | connecting => exact ⟨.run, by simp [Server.step, hpc, hlisten]⟩
  | readSize =>
      rcases read_of_gone s.pipe.toServer (h.size hpc) with htake | hret
      · exact ⟨.take 1, by simpa [Server.step, hpc, Option.isSome_iff_ne_none] using htake⟩
      · refine ⟨.ret, ?_⟩
        simp only [Server.step, hpc, hgone, hret cfg.shortReads, if_true]
        split_ifs <;> rfl
  | readData =>
      cases hb : s.server.request with
      | none => exact ⟨.ret, by simp [Server.step, hpc, hb]⟩
      | some block =>
          rcases read_of_gone s.pipe.toServer (h.data hpc block hb) with htake | hret
          · refine ⟨.take 1, ?_⟩
            simpa [Server.step, hpc, hb, Option.isSome_iff_ne_none] using htake
          · exact ⟨.ret, by simp [Server.step, hpc, hb, hgone, hret cfg.shortReads]⟩
  | write =>
      refine ⟨.ret, ?_⟩
      simp only [Server.step, hpc, writeReturns, hgone, Bool.or_true, if_true]
      split_ifs <;> rfl
  | flush => exact ⟨.run, by simp [Server.step, hpc, hgone]⟩

namespace Recovers

variable {cfg : Config} {s : Desk}

/-- Without a client the server always has a step. -/
theorem progress (h : Recovers cfg s) : Served s ∨ ∃ a s', (sessions cfg).step a s = some s' := by
  by_cases hserved : Served s
  · exact .inl hserved
  · right
    have hgone : s.pipe.gone = true := by
      simp only [Served, not_or] at hserved
      simp [Pipe.gone, hserved.1]
    obtain ⟨io, hio⟩ := h.atDesk.step_of_gone hgone fun hl => hserved (.inr hl)
    obtain ⟨q, hq⟩ := Option.isSome_iff_exists.mp hio
    refine ⟨.server io, { server := q.1, pipe := q.2 }, ?_⟩
    simp only [sessions, hq, Option.map_some]

/-- Without a client every step is one on the way to the next instance. -/
theorem step {s' : Desk} {a : Event} (h : Recovers cfg s) (hserved : ¬ Served s)
    (hs : (sessions cfg).step a s = some s') :
    Recovers cfg s' ∧ s'.measure < s.measure := by
  have hdesk' := h.atDesk.step hs
  have hholds := h.atDesk.holds
  simp only [Served, not_or] at hserved
  rcases sessions_step hs with ⟨io, srv, p, -, hstep, rfl⟩ | ⟨v, p, -, hv, -⟩
  · -- in `replyPipes` the client has gone, so the instance is going to be taken down
    have hreuse : ∀ {pc : ServerPc}, s.server.pc = pc → pc.replying → cfg.reuse = false := by
      rintro _ rfl hpc
      exact (h.closing ((hholds.live hpc).resolve_left hserved.1)).1
    cases Server.step_cases hstep with
    | create hpc =>
        refine ⟨⟨hdesk', (fun hc => by cases hc)⟩, Desk.measure_lt_of_rank ?_⟩
        simp [hpc, ServerPc.rank]
    | block _ hp => exact absurd hp hserved.2
    | spin hpc =>
        -- the accept loop has no instance that a client has left
        exfalso
        cases hst : s.pipe.state with
        | listening => exact hserved.2 hst
        | connected => exact hserved.1 hst
        | closing => exact (h.closing hst).2 hpc
        | absent | disconnected =>
            rw [hst, hpc] at hholds
            cases hholds
    | clientClosed hpc hr => simp [hreuse hpc trivial] at hr
    | takeSize hpc j hr | takeData hpc j _ hr =>
        obtain ⟨hj, hle, -, rfl, rfl⟩ := readPiece_eq_some.mp hr
        refine ⟨⟨hdesk', fun hc => ⟨(h.closing hc).1, by simp [hpc]⟩⟩,
          Desk.measure_lt_of_bytes rfl ?_⟩
        show (s.pipe.toServer.queue.drop j).length + s.server.pending.length < _
        rw [List.length_drop]
        omega
    | putReply hpc j hw =>
        obtain ⟨hj, hle, -, rfl, rfl⟩ := writePiece_eq_some.mp hw
        refine ⟨⟨hdesk', fun hc => ⟨(h.closing hc).1, by simp [hpc]⟩⟩,
          Desk.measure_lt_of_bytes rfl ?_⟩
        show s.pipe.toServer.queue.length + (s.server.pending.drop j).length < _
        rw [List.length_drop]
        omega
    | confirmed hpc | flushed hpc =>
        have hr := hreuse hpc trivial
        refine ⟨⟨hdesk', fun hc => ⟨hr, ?_⟩⟩, Desk.measure_lt_of_rank ?_⟩
        · simp [Server.finish_pc, hr]
        · simp [Server.finish_pc, hr, hpc, ServerPc.rank]
    | disconnect hpc | close hpc =>
        refine ⟨⟨hdesk', (fun hc => by cases hc)⟩, Desk.measure_lt_of_rank ?_⟩
        simp [hpc, ServerPc.rank]
    | accept hpc | sized hpc | readNull hpc | dataRead hpc | reply hpc | written hpc =>
        refine ⟨⟨hdesk', fun hc => ⟨(h.closing hc).1, by simp⟩⟩, Desk.measure_lt_of_rank ?_⟩
        simp [hpc, ServerPc.rank]
  · rw [visit_eq_none hserved.2 hserved.1] at hv
    cases hv

/-- A server that recovers comes to an instance that a client has open or can open. -/
theorem outlives (h : Recovers cfg s) : Outlives cfg s :=
  Inevitable.of_wellFounded (I := Recovers cfg) wellFounded_lt Desk.measure
    (fun _ hI => hI.progress) (fun _ _ _ hI hserved hs => hI.step hserved hs) h

end Recovers

/-! ## The server that does not recover -/

/-- The client has gone, and the server goes round in its accept loop, or with `-r` in
    its main loop. -/
def Stranded (cfg : Config) (s : Desk) : Prop :=
  s.pipe.state = .closing ∧
    (s.server.pc = .connect ∨
      cfg.reuse = true ∧ s.server.pc ≠ .create ∧ s.server.pc ≠ .disconnect ∧ s.server.pc ≠ .close)

theorem Stranded.not_served {cfg : Config} {s : Desk} (h : Stranded cfg s) : ¬ Served s := by
  rintro (hs | hs) <;> simp [h.1] at hs

theorem Stranded.step {cfg : Config} {s s' : Desk} {a : Event} (h : Stranded cfg s)
    (hs : (sessions cfg).step a s = some s') : Stranded cfg s' := by
  obtain ⟨hst, hloop⟩ := h
  rcases sessions_step hs with ⟨io, srv, p, -, hstep, rfl⟩ | ⟨v, p, -, hv, -⟩
  · have hreuse : s.server.pc ≠ .connect → cfg.reuse = true := by
      intro hpc
      exact (hloop.resolve_left hpc).1
    cases Server.step_cases hstep with
    | create hpc => simp [hpc] at hloop
    | block _ hp => simp [hst] at hp
    | spin => exact ⟨hst, hloop⟩
    | disconnect hpc => simp [hpc] at hloop
    | close hpc => simp [hpc] at hloop
    | confirmed hpc | flushed hpc =>
        have hr := hreuse (by simp [hpc])
        rw [Server.finish_of_reuse hr]
        exact ⟨hst, .inr ⟨hr, by simp⟩⟩
    | takeSize hpc | takeData hpc | putReply hpc =>
        exact ⟨hst, .inr ⟨hreuse (by simp [hpc]), by simp [hpc]⟩⟩
    | accept hpc | clientClosed hpc | sized hpc | readNull hpc | dataRead hpc | reply hpc
    | written hpc => exact ⟨hst, .inr ⟨hreuse (by simp [hpc]), by simp⟩⟩
  · rw [visit_eq_none (by simp [hst]) (by simp [hst])] at hv
    cases hv

theorem Stranded.not_outlives {cfg : Config} {s : Desk} (h : Stranded cfg s) :
    ¬ Outlives cfg s :=
  not_inevitable (T := Stranded cfg) (fun _ hT => hT.not_served) (fun _ _ _ hT hs => hT.step hs) h

/-! ## Which runs the server outlives -/

theorem recovers_step {cfg : Config} {s s' : Desk} {a : Event} (h : Recovers cfg s)
    (ha : ClosesServed cfg s a) (hs : (sessions cfg).step a s = some s') : Recovers cfg s' := by
  by_cases hserved : Served s
  · refine ⟨h.atDesk.step hs, ?_⟩
    rcases sessions_step hs with ⟨io, srv, p, -, hstep, rfl⟩ | ⟨v, p, rfl, hv, rfl⟩
    · -- the server does not leave an instance with a client to be closed
      intro hc
      exfalso
      have hstate : p.state = s.pipe.state ∨ p.state ≠ .closing := by
        cases Server.step_cases hstep with
        | create | disconnect | close => simp [Pipe.create, Pipe.disconnect]
        | _ => exact .inl rfl
      rcases hstate with heq | hne
      · rw [show p.state = .closing from hc] at heq
        rcases hserved with hst | hst <;> simp [hst] at heq
      · exact hne hc
    · intro hc
      by_cases hv' : v = .closeHandle
      · subst hv'
        exact ha rfl
      · have hconn := visit_connected hv' hv
        rw [show p.state = .closing from hc] at hconn
        cases hconn
  · exact (h.step hserved hs).1

/-- In every run, the server outlives its clients in all states exactly when each of
    them disconnects from a server without `-r` that is not in its accept loop
    outside `ConnectNamedPipe`. -/
theorem outlives_iff_closesServed {cfg : Config} {tr : List (Desk × Event)} {s : Desk}
    (h : Exec (sessions cfg) tr s) :
    (∀ t ∈ visited tr s, Outlives cfg t) ↔ Meets (ClosesServed cfg) tr := by
  constructor
  · rintro hall ⟨t, a⟩ hmem rfl
    -- otherwise the disconnect would leave the server stranded
    obtain ⟨t', hvis, hstep⟩ := h.step_of_mem hmem
    obtain ⟨tr', -, hexec⟩ := h.prefix (mem_visited.mpr (.inl ⟨_, hmem⟩))
    have hdesk : AtDesk cfg t := hexec.invariant_all (AtDesk.init cfg) fun _ _ _ hI hs => hI.step hs
    have hout := hall t' hvis
    rcases sessions_step hstep with ⟨_, _, _, hio, -, -⟩ | ⟨v, p, hv', hv, rfl⟩
    · cases hio
    cases hv'
    have hconn : t.pipe.state = .connected := by
      by_contra hne
      simp [Pipe.visit, hne] at hv
    have hp : p = { t.pipe with state := .closing } := by
      simpa [Pipe.visit, hconn, eq_comm] using hv
    subst hp
    have hholds := hdesk.holds
    rw [hconn] at hholds
    by_contra hbad
    refine Stranded.not_outlives ⟨rfl, ?_⟩ hout
    by_cases hpc : t.server.pc = .connect
    · exact .inl hpc
    · have hr : cfg.reuse = true := by
        by_contra hr
        exact hbad ⟨eq_false_of_ne_true hr, hpc⟩
      exact .inr ⟨hr, hholds.1, hdesk.kept hr⟩
  · intro hmeets t ht
    have hinit : Recovers cfg (sessions cfg).init :=
      ⟨AtDesk.init cfg, (fun hc => by cases hc)⟩
    have hrec : Recovers cfg t :=
      h.invariant_visited hinit (fun _ _ _ hI ha hs => recovers_step hI ha hs) hmeets t ht
    exact hrec.outlives

/-! ## A client that goes, with and without `-r` -/

/-- A server for requests of any kind. -/
def echoConfig (reuse : Bool) : Config :=
  { reuse := reuse, oneway := false, inbuf := 64, outbuf := 64, shortReads := false
    junk := fun _ => 0xCD
    request := fun _ => .empty
    builder := fun _ => .empty }

/-- A client opens the instance, is accepted and goes. -/
def shortVisit : List Event :=
  [.server .run, .server .run, .visit .createFile, .server .run, .visit .closeHandle]

/-- The server begins to read from the client that has gone. -/
def visitedState : Desk :=
  { server := Server.start.enter, pipe := { Pipe.create with state := .closing } }

/-- With `-r` the server reads from the instance that the client has left for good. -/
theorem shortVisit_strands :
    (∃ tr, Exec (sessions (echoConfig true)) tr visitedState) ∧
      ¬ Outlives (echoConfig true) visitedState := by
  have hrun : (sessions (echoConfig true)).run shortVisit = some visitedState := by decide
  refine ⟨Exec.of_run hrun, Stranded.not_outlives ⟨rfl, .inr ⟨rfl, ?_⟩⟩⟩
  exact ⟨by decide, by decide, by decide⟩

theorem shortVisit_outlives :
    ∃ tr s, s.pipe.state = .closing ∧
      ((∀ t ∈ visited tr s, Outlives (echoConfig false) t) ↔
        Meets (ClosesServed (echoConfig false)) tr) ∧
      Meets (ClosesServed (echoConfig false)) tr := by
  have hrun : (sessions (echoConfig false)).runIf
      (fun s a => decide (ClosesServed (echoConfig false) s a)) shortVisit
      (sessions (echoConfig false)).init = some visitedState := by decide
  obtain ⟨tr, hexec, hmeets⟩ := Exec.of_runIf hrun
  exact ⟨tr, visitedState, rfl, outlives_iff_closesServed hexec,
    fun e he => of_decide_eq_true (hmeets e he)⟩

end IpcWin.Pipes
