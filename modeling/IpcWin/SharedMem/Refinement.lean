/-
  IpcWin.SharedMem.Refinement

  The conversation through the shared memory makes one call after another, as
  long as the client reads no reply that the server still owes: then it is at no
  time ahead of the server (`Paced`), and the two builders are called in turn.
-/

import IpcWin.Calls
import IpcWin.SharedMem.Exchange

namespace IpcWin.SharedMem

open IpcWin.Lib IpcWin.Wire

/-- What has gone through the two builders. -/
def State.calls (s : State) : Calls :=
  { received := s.server.received, handed := s.client.handed }

theorem ClientPhase.asked_le_one (p : ClientPhase) : p.asked ≤ 1 := by
  cases p <;> simp [asked]

/-- The client has been handed no reply to a request that was not received, and
    reads only a reply to one that was. -/
structure Paced (c : ClientView) (s : ServerView) : Prop where
  handed_le : c.handed.length ≤ s.received.length
  reading : c.phase = .gotSize ∨ c.phase = .gotData →
    s.received.length = c.handed.length + 1

namespace Paced

variable {cfg : Config} {pc : ClientPc} {c c' : ClientView} {s s' : ServerView}
  {k k' : KernelView}

/-- The server builds the reply to the one request that is not answered. -/
theorem building_eq (hp : Paced c s) (ht : Tokens c s k) (h : s.phase = .building) :
    s.received.length = c.handed.length := by
  have hcount := ht.count
  simp only [h, ServerPhase.taken] at hcount
  -- one request is in hand, and at most one is asked for
  have hone := c.phase.asked_le_one
  have hle := hp.handed_le
  omega

theorem server (hp : Paced c s) (ht : Tokens c s k) (hm : Server.Moves cfg s k s' k') :
    Paced c s' := by
  cases hm with
  | build h =>
      have heq := hp.building_eq ht h
      refine ⟨?_, ?_⟩
      · simp only [List.length_append, List.length_singleton]
        omega
      · intro _
        simp only [List.length_append, List.length_singleton]
        omega
  | silent => exact hp
  | take | readSize | readData | tell | writeSize | writeData | finish =>
      exact ⟨hp.handed_le, hp.reading⟩

theorem client (hp : Paced c s) (ht : Tokens c s k) (hs : pc = .readSize → ¬ s.phase.owesSize)
    (hm : Client.Moves cfg pc c k c' k') : Paced c' s := by
  cases hm with
  | silent => exact hp
  | readSize h hpc =>
      -- the server owes no reply, so it has handed the request to the builder
      have hb : s.phase ≠ .building := fun hb => hs hpc (by rw [hb]; trivial)
      have hlen := ht.awaiting_eq (by rw [h]; rfl) (by rw [h]; rfl) hb
      exact ⟨hp.handed_le, fun _ => hlen⟩
  | readData h => exact ⟨hp.handed_le, fun _ => hp.reading (.inl h)⟩
  | deliver h =>
      have hlen := hp.reading (.inr h)
      refine ⟨?_, by simp⟩
      simp only [List.length_append, List.length_singleton]
      omega
  | build | writeSize | writeData | ask | resume => exact ⟨hp.handed_le, by simp⟩

/-- A move of the server is the serving of a call or not seen. -/
theorem serving (hp : Paced c s) (ht : Tokens c s k) (hr : Requests cfg c s k)
    (hm : Server.Moves cfg s k s' k') :
    s'.received = s.received ∨
      (s.received.length = c.handed.length ∧
        s'.received = s.received ++ [(cfg.request s.received.length).received]) := by
  cases hm with
  | build h =>
      refine .inr ⟨hp.building_eq ht h, ?_⟩
      show s.received ++ [(s.requestPacket, some s.request)] = _
      rw [hr.requestPacket (.inr (.inr h)), hr.request (.inr h), Packet.received]
  | _ => exact .inl rfl

/-- A move of the client is the answering of a call or not seen. -/
theorem answering (hp : Paced c s) (hr : Requests cfg c s k) (ha : Replies cfg c s k)
    (hm : Client.Moves cfg pc c k c' k') :
    c'.handed = c.handed ∨
      (s.received.length = c.handed.length + 1 ∧
        c'.handed = c.handed ++ [(cfg.builder s.received).received]) := by
  cases hm with
  | deliver h =>
      have hlen := hp.reading (.inr h)
      refine .inr ⟨hlen, ?_⟩
      show c.handed ++ [(c.packet, some c.data)] = _
      rw [ha.packet (.inr h), ha.copy h, hr.received, hlen]
      rfl
  | _ => exact .inl rfl

end Paced

/-- What holds in every run in which the client reads no reply that is still owed. -/
structure Orderly (cfg : Config) (s : State) : Prop where
  passing : Passing cfg s
  replies : Replies cfg s.client.view s.server.view s.kernel.view
  paced : Paced s.client.view s.server.view

namespace Orderly

variable {cfg : Config}

theorem init (cfg : Config) : Orderly cfg (conversation cfg).init := by
  have hc : (Client.start cfg).view.phase = .idle := Client.start_phase cfg
  exact ⟨passing_init cfg, replies_init cfg, Nat.le_refl 0, by simp [conversation, hc]⟩

theorem step {s s' : State} {a : Proc} (h : Orderly cfg s) (ha : ReadsAfterWrites s a)
    (hs : (conversation cfg).step a s = some s') : Orderly cfg s' := by
  obtain ⟨hpass, hrep, hpaced⟩ := h
  refine ⟨passing_step hpass hs, ?_, ?_⟩
  · exact replies_step hpass hrep ha hs
  · rcases conversation_step hs with ⟨c, k, rfl, hstep, rfl⟩ | ⟨srv, k, -, hstep, rfl⟩
    · exact hpaced.client hpass.tokens (ha rfl).1 (Client.moves_of_step hpass.events hstep)
    · exact hpaced.server hpass.tokens (Server.moves_of_step hpass.events hstep)

end Orderly

/-- The conversation through the shared memory refines one call after another. -/
def refinesCalls (cfg : Config) :
    Refinement (conversation cfg) (calls cfg.request cfg.builder) ReadsAfterWrites where
  abs := State.calls
  inv := Orderly cfg
  inv_init := Orderly.init cfg
  inv_step _ _ _ hI ha hs := hI.step ha hs
  abs_init := rfl
  abs_step s a s' hI ha hs := by
    obtain ⟨hpass, hrep, hpaced⟩ := hI
    rcases conversation_step hs with ⟨c, k, -, hstep, rfl⟩ | ⟨srv, k, -, hstep, rfl⟩
    · have hm := Client.moves_of_step hpass.events hstep
      rcases hpaced.answering hpass.requests hrep hm with heq | ⟨hlen, heq⟩
      · exact .inl (congrArg (Calls.mk s.server.received) heq)
      · exact .inr ⟨.answer, Calls.step_answer hlen rfl heq⟩
    · have hm := Server.moves_of_step hpass.events hstep
      rcases hpaced.serving hpass.tokens hpass.requests hm with heq | ⟨hlen, heq⟩
      · exact .inl (congrArg (fun l => Calls.mk l s.client.handed) heq)
      · exact .inr ⟨.serve, Calls.step_serve hlen heq rfl⟩

/-- In every state of such a run at most one call is not answered, and all others
    have been answered in turn. -/
theorem inTurn_of_readsAfterWrites {cfg : Config} {tr : List (State × Proc)} {s : State}
    (h : Exec (conversation cfg) tr s) (hreads : Meets ReadsAfterWrites tr) :
    ∀ t ∈ visited tr s, t.calls.InTurn cfg.request cfg.builder :=
  (refinesCalls cfg).invariant_visited Calls.inTurn_init (fun _ _ _ => Calls.inTurn_step) h hreads

end IpcWin.SharedMem
