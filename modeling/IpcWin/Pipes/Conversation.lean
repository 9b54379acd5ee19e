/-
  IpcWin.Pipes.Conversation

  One server and one client over the pipe, their steps interleaved freely.
-/

import IpcWin.Lib.Transition
import IpcWin.Pipes.Client

namespace IpcWin.Pipes

open IpcWin.Lib IpcWin.Wire

/-- The two programs and the pipe between them. -/
structure State where
  server : Server
  client : Client
  pipe : Pipe
deriving DecidableEq, Repr

/-- Which program moves, and how. -/
inductive Action where
  | server (io : Io)
  | client (io : Io)
deriving DecidableEq, Repr

/-- The conversation as a transition system. -/
def conversation (cfg : Config) : System State Action where
  init := { server := .start, client := .start, pipe := .absent }
  step
    | .server io, s =>
        (s.server.step cfg io s.pipe).map fun q => { s with server := q.1, pipe := q.2 }
    | .client io, s =>
        (s.client.step cfg io s.pipe).map fun q => { s with client := q.1, pipe := q.2 }

/-- A step of the conversation is one of either program. -/
theorem conversation_step {cfg : Config} {a : Action} {s s' : State}
    (h : (conversation cfg).step a s = some s') :
    (∃ io srv p, a = .server io ∧ Server.Step cfg s.server s.pipe io srv p ∧
        s' = { s with server := srv, pipe := p }) ∨
      ∃ io c p, a = .client io ∧ Client.Step cfg s.client s.pipe io c p ∧
        s' = { s with client := c, pipe := p } := by
  cases a with
  | server io =>
      obtain ⟨⟨srv, p⟩, hstep, rfl⟩ := Option.map_eq_some_iff.mp h
      exact .inl ⟨io, srv, p, rfl, Server.step_cases hstep, rfl⟩
  | client io =>
      obtain ⟨⟨c, p⟩, hstep, rfl⟩ := Option.map_eq_some_iff.mp h
      exact .inr ⟨io, c, p, rfl, Client.step_cases hstep, rfl⟩

end IpcWin.Pipes
