/-
  IpcWin.Pipes.Refinement

  Over one reused connection in request/response mode, the conversation whose
  `ReadFile` calls fill their buffers makes one call after another: the server's
  builder is called when the request has been taken whole, the client's when the
  reply has, and every other step is invisible.
-/

import IpcWin.Calls
import IpcWin.Pipes.Rounds

namespace IpcWin.Pipes

open IpcWin.Lib IpcWin.Wire

/-- What has gone through the two builders. -/
def State.calls (s : State) : Calls :=
  { received := s.server.received, handed := s.client.delivered }

theorem Client.outstanding_le_one (c : Client) : c.outstanding ≤ 1 := by
  unfold outstanding
  split <;> simp

namespace Rounds

variable {cfg : Config} {s : State}

/-- The server builds the reply to the one request that is not answered. -/
theorem serving (h : Rounds cfg s) (hpc : s.server.pc = .build) :
    s.server.received.length = s.client.delivered.length ∧
      (s.server.rSize, s.server.request) = (cfg.request s.server.received.length).received := by
  have hread := h.server.reading
  simp only [Server.frameRead, hpc] at hread
  obtain ⟨hreq, htaken⟩ := hread.done
  -- the frame in hand is one of those the client has made
  have hmade : s.server.received.length + 1 ≤ s.client.made :=
    InFrame.le_of_prefix (InFrame.idle_iff.mpr htaken)
      ((Channel.taken_prefix_written _).trans h.requests_prefix)
  have hcall := h.client.made
  have hone := s.client.outstanding_le_one
  have hle := h.delivered_le
  exact ⟨by omega, hreq⟩

/-- The client is handed the reply to its last request. -/
theorem answering (h : Rounds cfg s) (hpc : s.client.pc = .deliver) :
    s.server.received.length = s.client.delivered.length + 1 ∧
      (s.client.responseSize, s.client.response) =
        (cfg.builder s.server.received).received := by
  have hread := h.client.reading
  simp only [Client.frameRead, hpc] at hread
  obtain ⟨hreply, htaken⟩ := hread.done
  have hgot : s.client.delivered.length + 1 ≤ s.server.received.length :=
    InFrame.le_of_prefix (InFrame.idle_iff.mpr htaken)
      ((Channel.taken_prefix_written _).trans h.replies_prefix)
  have hcall := h.client.made
  have hone := s.client.outstanding_le_one
  have hle := h.received_le
  have heq : s.server.received.length = s.client.delivered.length + 1 := by omega
  refine ⟨heq, ?_⟩
  rw [hreply, h.server.received, heq]
  rfl

/-- A step of the server is the serving of a call or not seen. -/
theorem calls_server {io : Io} {srv : Server} {p : Pipe} (hr : cfg.reuse = true)
    (ho : cfg.oneway = false) (h : Rounds cfg s) (hs : Server.Step cfg s.server s.pipe io srv p) :
    { s with server := srv, pipe := p }.calls = s.calls ∨
      ∃ b, (IpcWin.calls cfg.request cfg.builder).step b s.calls =
        some { s with server := srv, pipe := p }.calls := by
  cases hs with
  | reply hpc =>
      obtain ⟨heq, hreq⟩ := h.serving hpc
      rw [Server.reply_of_not_oneway ho]
      refine .inr ⟨.serve, Calls.step_serve heq ?_ rfl⟩
      show s.server.received ++ [(s.server.rSize, s.server.request)] = _
      rw [hreq]
      rfl
  | confirmed hpc | flushed hpc =>
      rw [Server.finish_of_reuse hr]
      exact .inl rfl
  | _ => exact .inl rfl

/-- A step of the client is the answering of a call or not seen. -/
theorem calls_client {io : Io} {c : Client} {p : Pipe} (ho : cfg.oneway = false)
    (h : Rounds cfg s) (hs : Client.Step cfg s.client s.pipe io c p) :
    { s with client := c, pipe := p }.calls = s.calls ∨
      ∃ b, (IpcWin.calls cfg.request cfg.builder).step b s.calls =
        some { s with client := c, pipe := p }.calls := by
  cases hs with
  | deliver hpc =>
      obtain ⟨heq, hreply⟩ := h.answering hpc
      rw [Client.deliver_of_not_oneway ho]
      refine .inr ⟨.answer, Calls.step_answer heq rfl ?_⟩
      show s.client.delivered ++ [(s.client.responseSize, s.client.response)] = _
      rw [hreply]
      rfl
  | _ => exact .inl rfl

end Rounds

/-- The conversation over one reused pipe refines one call after another. -/
def refinesCalls {cfg : Config} (hr : cfg.reuse = true) (ho : cfg.oneway = false) :
    Refinement (conversation cfg) (calls cfg.request cfg.builder) FullReads where
  abs := State.calls
  inv := Rounds cfg
  inv_init := Rounds.init cfg
  inv_step _ _ _ hI ha hs := hI.step hr ho ha hs
  abs_init := rfl
  abs_step s a s' hI _ hs := by
    rcases conversation_step hs with ⟨io, srv, p, -, hstep, rfl⟩ | ⟨io, c, p, -, hstep, rfl⟩
    · exact hI.calls_server hr ho hstep
    · exact hI.calls_client ho hstep

/-- In every state of such a run at most one call is not answered, and all others
    have been answered in turn. -/
theorem inTurn_of_fullReads {cfg : Config} {tr : List (State × Action)} {s : State}
    (hr : cfg.reuse = true) (ho : cfg.oneway = false) (h : Exec (conversation cfg) tr s)
    (hfull : Meets FullReads tr) : ∀ t ∈ visited tr s, t.calls.InTurn cfg.request cfg.builder :=
  (refinesCalls hr ho).invariant_visited Calls.inTurn_init (fun _ _ _ => Calls.inTurn_step) h hfull

end IpcWin.Pipes
