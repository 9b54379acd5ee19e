/-
  IpcWin.Calls

  What the transports are for: one call after another.

  A client makes requests in turn and is handed the reply to each before it makes
  the next; the server is handed every request once, whole and in turn.  Nothing
  here says how the bytes travel.  The pipe and the shared memory are each shown
  to refine this system, `Pipes.refinesCalls` and `SharedMem.refinesCalls`.
-/

import IpcWin.Lib.Transition
import IpcWin.Wire.Packet

namespace IpcWin

open IpcWin.Lib IpcWin.Wire

/-- What has gone through: the requests that the server's builder has been handed
    and the replies that the client's builder has been handed. -/
structure Calls where
  received : List Received
  handed : List Received

/-- The two halves of a call. -/
inductive Call where
  | serve
  | answer

/-- One call after another: a request is served when every earlier one has been
    answered, and answered with what the builder makes of it. -/
def calls (request : Nat → Packet) (builder : List Received → Packet) : System Calls Call where
  init := { received := [], handed := [] }
  step
    | .serve, s =>
        if s.received.length = s.handed.length then
          some { s with received := s.received ++ [(request s.received.length).received] }
        else none
    | .answer, s =>
        if s.received.length = s.handed.length + 1 then
          some { s with handed := s.handed ++ [(builder s.received).received] }
        else none

/-- The requests and the replies have gone through in turn, and at most one call
    is not answered yet. -/
structure Calls.InTurn (request : Nat → Packet) (builder : List Received → Packet)
    (s : Calls) : Prop where
  received : s.received = (List.range s.received.length).map fun k => (request k).received
  handed : s.handed =
    (List.range s.handed.length).map fun k => (replyTo request builder k).received
  answered_le : s.handed.length ≤ s.received.length
  le_succ : s.received.length ≤ s.handed.length + 1

namespace Calls

variable {request : Nat → Packet} {builder : List Received → Packet} {s s' : Calls}

/-- A call is served. -/
theorem step_serve (h : s.received.length = s.handed.length)
    (hrec : s'.received = s.received ++ [(request s.received.length).received])
    (hhanded : s'.handed = s.handed) : (calls request builder).step .serve s = some s' := by
  cases s'
  simp only at hrec hhanded
  simp only [calls, if_pos h, hrec, hhanded]

/-- A call is answered. -/
theorem step_answer (h : s.received.length = s.handed.length + 1)
    (hrec : s'.received = s.received)
    (hhanded : s'.handed = s.handed ++ [(builder s.received).received]) :
    (calls request builder).step .answer s = some s' := by
  cases s'
  simp only at hrec hhanded
  simp only [calls, if_pos h, hrec, hhanded]

theorem inTurn_init : InTurn request builder (calls request builder).init :=
  ⟨rfl, rfl, Nat.le_refl 0, Nat.zero_le 1⟩

theorem inTurn_step {a : Call} (h : InTurn request builder s)
    (hs : (calls request builder).step a s = some s') : InTurn request builder s' := by
  obtain ⟨hrec, hhanded, hle, hsucc⟩ := h
  cases a with
  | serve =>
      simp only [calls] at hs
      split_ifs at hs with heq
      cases hs
      refine ⟨snoc_eq_map_range hrec rfl, hhanded, ?_, ?_⟩
      · simp only [List.length_append, List.length_singleton]
        omega
      · simp only [List.length_append, List.length_singleton]
        omega
  | answer =>
      simp only [calls] at hs
      split_ifs at hs with heq
      cases hs
      refine ⟨hrec, snoc_eq_map_range hhanded ?_, ?_, ?_⟩
      · rw [replyTo, ← heq, ← hrec]
      · simp only [List.length_append, List.length_singleton]
        omega
      · simp only [List.length_append, List.length_singleton]
        omega

/-- Whatever the transport, the replies of two conversations with the same
    requests and the same builder agree as far as both have come. -/
theorem InTurn.handed_prefix {t : Calls} (hs : InTurn request builder s)
    (ht : InTurn request builder t) (hle : s.handed.length ≤ t.handed.length) :
    s.handed <+: t.handed := by
  rw [hs.handed, ht.handed]
  obtain ⟨d, hd⟩ := Nat.exists_eq_add_of_le hle
  rw [hd, List.range_add, List.map_append]
  exact List.prefix_append _ _

end Calls

end IpcWin
