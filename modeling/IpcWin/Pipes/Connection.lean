/-
  IpcWin.Pipes.Connection

  What holds of a reused connection in either mode, request/response or one-way.

  With `-r` the pipe is made once and kept (`Kept`), so that neither end ever
  finds the other one gone.  The server then is inside the frame that its count
  of requests says (`server_reading`), and what the client has written is the
  frames of the requests it has made (`Sending`), whatever goes the other way.
-/

import IpcWin.Pipes.Conversation
import IpcWin.Pipes.FrameReader

namespace IpcWin.Pipes

open IpcWin.Lib IpcWin.Wire

/-! ## The two readers -/

/-- Where the server is in the frame it reads. -/
def Server.frameRead (srv : Server) : FrameRead :=
  match srv.pc with
  | .readSize => .size srv.got
  | .readData => .data srv.rSize srv.request srv.got
  | .build => .whole srv.rSize srv.request
  | _ => .idle

/-- Where the client is in the frame it reads. -/
def Client.frameRead (c : Client) : FrameRead :=
  match c.pc with
  | .readSize => .size c.got
  | .readData => .data c.responseSize c.response c.got
  | .close => .whole c.responseSize c.response
  | .deliver => .whole c.responseSize c.response
  | _ => .idle

/-! ## The connection -/

/-- Over a reused connection the pipe is never taken down, and both programs use it
    only once it is connected. -/
structure Kept (s : State) : Prop where
  create : s.server.pc = .create → s.pipe = .absent
  created : s.server.pc ≠ .create → s.pipe.state = .listening ∨ s.pipe.state = .connected
  serving : s.server.pc ≠ .create → s.server.pc ≠ .connect → s.server.pc ≠ .connecting →
    s.pipe.state = .connected
  kept : s.server.pc ≠ .disconnect ∧ s.server.pc ≠ .close
  handle : s.client.hPipe = true → s.pipe.state = .connected
  calling : s.client.pc ≠ .start → s.client.pc ≠ .waitPipe → s.client.pc ≠ .createFile →
    s.client.hPipe = true

namespace Kept

variable {s : State}

/-- The client makes a request only over the connected pipe. -/
theorem connected_of_calling (h : Kept s) (h₁ : s.client.pc ≠ .start)
    (h₂ : s.client.pc ≠ .waitPipe) (h₃ : s.client.pc ≠ .createFile) :
    s.pipe.state = .connected :=
  h.handle (h.calling h₁ h₂ h₃)

/-- A server that stays in its loop keeps the connection. -/
theorem of_server (h : Kept s) {srv : Server} {p : Pipe} (hconn : s.pipe.state = .connected)
    (hp : p.state = s.pipe.state)
    (hpc : srv.pc ≠ .create ∧ srv.pc ≠ .disconnect ∧ srv.pc ≠ .close) :
    Kept { s with server := srv, pipe := p } where
  create hc := absurd hc hpc.1
  created _ := .inr (hp.trans hconn)
  serving _ _ _ := hp.trans hconn
  kept := hpc.2
  handle _ := hp.trans hconn
  calling := h.calling

/-- A client that does not touch its handle keeps the connection. -/
theorem of_client (h : Kept s) {c : Client} {p : Pipe}
    (hp : p = s.pipe ∨ (s.pipe.state = .connected ∧ p.state = .connected))
    (hh : c.hPipe = true → s.client.hPipe = true)
    (hcall : c.pc ≠ .start → c.pc ≠ .waitPipe → c.pc ≠ .createFile → c.hPipe = true) :
    Kept { s with client := c, pipe := p } := by
  have hstate : p.state = s.pipe.state := by
    rcases hp with rfl | ⟨h₁, h₂⟩
    · rfl
    · rw [h₁, h₂]
  refine ⟨?_, ?_, ?_, h.kept, ?_, hcall⟩
  · intro hc
    rcases hp with rfl | ⟨h₁, -⟩
    · exact h.create hc
    · rw [h.create hc] at h₁
      cases h₁
  · intro hc
    rw [hstate]
    exact h.created hc
  · intro h₁ h₂ h₃
    exact hstate.trans (h.serving h₁ h₂ h₃)
  · intro hc
    exact hstate.trans (h.handle (hh hc))

theorem init (cfg : Config) : Kept (conversation cfg).init where
  create _ := rfl
  created hc := absurd rfl hc
  serving hc _ _ := absurd rfl hc
  kept := by simp [conversation, Server.start]
  handle hh := by cases hh
  calling hc _ _ := absurd rfl hc

end Kept

theorem kept_server {cfg : Config} {s : State} {io : Io} {srv : Server} {p : Pipe}
    (hr : cfg.reuse = true) (h : Kept s) (hs : Server.Step cfg s.server s.pipe io srv p) :
    Kept { s with server := srv, pipe := p } := by
  have hloop : ∀ {pc : ServerPc}, s.server.pc = pc → pc ≠ .create → pc ≠ .connect →
      pc ≠ .connecting → s.pipe.state = .connected := by
    rintro _ rfl h₁ h₂ h₃
    exact h.serving h₁ h₂ h₃
  cases hs with
  | create hpc =>
      -- there was no instance before this one, so no client has a handle
      have habs := h.create hpc
      refine ⟨(by simp), fun _ => .inl rfl, fun _ h₂ => absurd rfl h₂, (by simp), ?_,
        h.calling⟩
      intro hh
      have hconn := h.handle hh
      rw [habs] at hconn
      cases hconn
  | block hpc hp =>
      exact ⟨(by simp), fun _ => .inl hp, fun _ _ h₃ => absurd rfl h₃, (by simp), h.handle,
        h.calling⟩
  | spin => exact h
  | accept hpc hp =>
      have hconn := (h.created (by simp [hpc])).resolve_left hp
      exact h.of_server hconn rfl (by simp)
  | disconnect hpc => exact absurd hpc h.kept.1
  | close hpc => exact absurd hpc h.kept.2
  | confirmed hpc | flushed hpc =>
      rw [Server.finish_of_reuse hr]
      exact h.of_server (hloop hpc (by simp) (by simp) (by simp)) rfl (by simp)
  | reply hpc => exact h.of_server (hloop hpc (by simp) (by simp) (by simp)) rfl (by simp)
  | takeSize hpc | takeData hpc | putReply hpc =>
      exact h.of_server (hloop hpc (by simp) (by simp) (by simp)) rfl (by simp [hpc])
  | clientClosed hpc | sized hpc | readNull hpc | dataRead hpc | written hpc =>
      exact h.of_server (hloop hpc (by simp) (by simp) (by simp)) rfl (by simp)

theorem kept_client {cfg : Config} {s : State} {io : Io} {c : Client} {p : Pipe}
    (hr : cfg.reuse = true) (h : Kept s) (hs : Client.Step cfg s.client s.pipe io c p) :
    Kept { s with client := c, pipe := p } := by
  have hloop : ∀ {pc : ClientPc}, s.client.pc = pc → pc ≠ .start → pc ≠ .waitPipe →
      pc ≠ .createFile → s.client.hPipe = true := by
    rintro _ rfl h₁ h₂ h₃
    exact h.calling h₁ h₂ h₃
  cases hs with
  | enter hpc =>
      refine h.of_client (.inl rfl) ?_ ?_
      · simp only [Client.enter, Bool.and_eq_true]
        exact And.left
      · cases hh : s.client.hPipe <;> simp [Client.enter, hh, hr]
  | waited => exact h.of_client (.inl rfl) id (fun _ _ h₃ => absurd rfl h₃)
  | createFile hpc hp =>
      refine ⟨?_, fun _ => .inr rfl, fun _ _ _ => rfl, h.kept, fun _ => rfl,
        fun _ _ _ => rfl⟩
      intro hc
      -- the instance was there to be opened, so the server has created it
      rw [h.create hc] at hp
      cases hp
  | close hpc =>
      have hh := hloop hpc (by simp) (by simp) (by simp)
      refine h.of_client (.inl ?_) id (fun _ _ _ => hh)
      simp [Client.closeHandle, hr]
  | deliver hpc =>
      have hh := hloop hpc (by simp) (by simp) (by simp)
      refine h.of_client (.inl rfl) (fun _ => hh) ?_
      unfold Client.deliver
      split_ifs <;> exact fun hstart => absurd rfl hstart
  | putRequest hpc | takeSize hpc | takeData hpc | takeAck hpc =>
      have hh := hloop hpc (by simp) (by simp) (by simp)
      exact h.of_client (.inr ⟨h.handle hh, h.handle hh⟩) id (fun _ _ _ => hh)
  | request hpc | sent hpc | sized hpc | readNull hpc | dataRead hpc | acked hpc =>
      have hh := hloop hpc (by simp) (by simp) (by simp)
      exact h.of_client (.inl rfl) id (fun _ _ _ => hh)

/-- What the client has put in and taken out does not change by a server step. -/
theorem server_keeps {cfg : Config} {s : State} {io : Io} {srv : Server} {p : Pipe}
    (h : Kept s) (hs : Server.Step cfg s.server s.pipe io srv p) :
    p.toServer.written = s.pipe.toServer.written ∧ p.toClient.taken = s.pipe.toClient.taken := by
  cases hs with
  | create hpc =>
      rw [h.create hpc]
      exact ⟨rfl, rfl⟩
  | takeSize _ j hpiece | takeData _ j _ hpiece =>
      obtain ⟨-, -, -, -, rfl⟩ := readPiece_eq_some.mp hpiece
      exact ⟨Channel.take_written _ _, rfl⟩
  | putReply _ j hpiece =>
      obtain ⟨-, -, -, -, rfl⟩ := writePiece_eq_some.mp hpiece
      exact ⟨rfl, Channel.put_taken _ _⟩
  | disconnect hpc => exact absurd hpc h.kept.1
  | _ => exact ⟨rfl, rfl⟩

/-- What the server has put in and taken out does not change by a client step. -/
theorem client_keeps {cfg : Config} {s : State} {io : Io} {c : Client} {p : Pipe}
    (hr : cfg.reuse = true) (hs : Client.Step cfg s.client s.pipe io c p) :
    p.toServer.taken = s.pipe.toServer.taken ∧ p.toClient.written = s.pipe.toClient.written := by
  cases hs with
  | putRequest _ j hpiece =>
      obtain ⟨-, -, -, -, rfl⟩ := writePiece_eq_some.mp hpiece
      exact ⟨Channel.put_taken _ _, rfl⟩
  | takeSize _ j hpiece | takeData _ j _ hpiece | takeAck _ j hpiece =>
      obtain ⟨-, -, -, -, rfl⟩ := readPiece_eq_some.mp hpiece
      exact ⟨rfl, Channel.take_written _ _⟩
  | close =>
      rw [Client.closeHandle_of_reuse hr]
      exact ⟨rfl, rfl⟩
  | _ => exact ⟨rfl, rfl⟩

/-- A `WriteFile` to a live pipe returns with nothing left. -/
theorem pending_eq_nil {p : Pipe} {pending : List Byte} (hconn : p.state = .connected)
    (hw : writeReturns p.gone pending = true) : pending = [] := by
  simpa [writeReturns, Pipe.gone, hconn] using hw

/-! ## Reads that come back full -/

/-- If no `ReadFile` returns short, one over a live pipe returns with its buffer
    full. -/
theorem full_of_readReturns {cfg : Config} {p : Pipe} {m : Nat} {got : List Byte}
    {ch : Channel Byte} (hshort : cfg.shortReads = false) (hconn : p.state = .connected)
    (hret : readReturns cfg.shortReads p.gone m got ch = true) : got.length = m := by
  simpa [readReturns, hshort, Pipe.gone, hconn] using hret

theorem server_full {cfg : Config} {srv srv' : Server} {p p' : Pipe}
    (hshort : cfg.shortReads = false) (hconn : p.state = .connected)
    (hs : Server.Step cfg srv p .ret srv' p') : srv.frameRead.Full := by
  cases hs with
  | clientClosed _ _ hgone => simp [Pipe.gone, hconn] at hgone
  | sized hpc hret =>
      simp only [Server.frameRead, hpc]
      exact full_of_readReturns hshort hconn hret
  | dataRead hpc hb hret =>
      simp only [Server.frameRead, hpc, hb]
      exact full_of_readReturns hshort hconn hret
  | readNull hpc hb => simp [Server.frameRead, hpc, hb, FrameRead.Full]
  | confirmed hpc | written hpc => simp [Server.frameRead, hpc, FrameRead.Full]

theorem client_full {cfg : Config} {c c' : Client} {p p' : Pipe}
    (hshort : cfg.shortReads = false) (hconn : p.state = .connected)
    (hs : Client.Step cfg c p .ret c' p') : c.frameRead.Full := by
  cases hs with
  | sized hpc hret =>
      simp only [Client.frameRead, hpc]
      exact full_of_readReturns hshort hconn hret
  | dataRead hpc hb hret =>
      simp only [Client.frameRead, hpc, hb]
      exact full_of_readReturns hshort hconn hret
  | readNull hpc hb => simp [Client.frameRead, hpc, hb, FrameRead.Full]
  | sent hpc | acked hpc => simp [Client.frameRead, hpc, FrameRead.Full]

/-! ## Reading a frame -/

/-- The server has not come to its reply yet. -/
def ServerPc.asked : ServerPc → Prop
  | .connect | .connecting | .readSize | .readData | .build => True
  | _ => False

/-- Up to its reply the server stays inside the frame it reads. -/
theorem server_asked {cfg : Config} {srv srv' : Server} {io : Io} {p p' : Pipe}
    {f : Nat → Packet} {n k : Nat} (hasked : srv.pc.asked)
    (hlive : srv.pc = .readSize → p.gone = false) (hpre : p.toServer.taken <+: frames f k)
    (hfull : io = .ret → srv.frameRead.Full) (h : InFrame f p.toServer.taken n srv.frameRead)
    (hs : Server.Step cfg srv p io srv' p') :
    InFrame f p'.toServer.taken (if srv.pc = .build then n + 1 else n) srv'.frameRead := by
  cases hs with
  | spin hpc =>
      rw [if_neg (by simp [hpc])]
      exact h
  | block hpc =>
      simp only [Server.frameRead, hpc] at h ⊢
      exact h
  | accept hpc =>
      simp only [Server.frameRead, hpc] at h ⊢
      exact h.begin
  | takeSize hpc j hpiece =>
      simp only [Server.frameRead, hpc] at h ⊢
      exact h.takeSize hpiece
  | clientClosed hpc _ hgone =>
      rw [hlive hpc] at hgone
      cases hgone
  | sized hpc =>
      have hlen := hfull rfl
      simp only [Server.frameRead, hpc] at h hlen ⊢
      exact h.sized cfg.junk hpre hlen
  | takeData hpc j hb hpiece =>
      simp only [Server.frameRead, hpc, hb] at h ⊢
      exact h.takeData hpiece
  | readNull hpc hb =>
      simp only [Server.frameRead, hpc, hb] at h
      obtain ⟨-, b, hnone, -⟩ := h.reads
      cases hnone
  | dataRead hpc hb =>
      have hlen := hfull rfl
      simp only [Server.frameRead, hpc, hb] at h hlen ⊢
      exact h.dataRead hpre hlen
  | reply hpc =>
      simp only [Server.frameRead, hpc] at h
      rw [if_pos hpc, Server.frameRead, Server.reply_pc, InFrame.idle_iff]
      exact h.done.2
  | create hpc | putReply hpc | confirmed hpc | written hpc | flushed hpc | disconnect hpc
  | close hpc =>
      rw [hpc] at hasked
      exact hasked.elim

/-- The client stays inside the frame it reads until the reply is handed over. -/
theorem client_reading {cfg : Config} {c c' : Client} {io : Io} {p p' : Pipe}
    {f : Nat → Packet} {n k : Nat} (ho : cfg.oneway = false) (hack : c.pc ≠ .readAck)
    (hpre : p.toClient.taken <+: frames f k) (hfull : io = .ret → c.frameRead.Full)
    (h : InFrame f p.toClient.taken n c.frameRead) (hs : Client.Step cfg c p io c' p') :
    InFrame f p'.toClient.taken (if c.pc = .deliver then n + 1 else n) c'.frameRead := by
  cases hs with
  | enter hpc =>
      rw [if_neg (by simp [hpc])]
      simp only [Client.frameRead, hpc] at h
      unfold Client.enter
      cases c.hPipe && cfg.reuse <;> exact h
  | waited hpc | createFile hpc | request hpc =>
      simp only [Client.frameRead, Client.request, hpc] at h ⊢
      exact h
  | putRequest hpc j hpiece =>
      obtain ⟨-, -, -, -, rfl⟩ := writePiece_eq_some.mp hpiece
      simp only [Client.frameRead, hpc] at h ⊢
      exact h
  | sent hpc =>
      simp only [Client.frameRead, hpc] at h
      rw [if_neg (by simp [hpc])]
      simp only [Client.sent, ho]
      exact h.begin
  | takeSize hpc j hpiece =>
      simp only [Client.frameRead, hpc] at h ⊢
      exact h.takeSize hpiece
  | sized hpc =>
      have hlen := hfull rfl
      simp only [Client.frameRead, hpc] at h hlen
      rw [if_neg (by simp [hpc])]
      exact h.sized cfg.junk hpre hlen
  | takeData hpc j hb hpiece =>
      simp only [Client.frameRead, hpc, hb] at h ⊢
      exact h.takeData hpiece
  | readNull hpc hb =>
      simp only [Client.frameRead, hpc, hb] at h
      obtain ⟨-, b, hnone, -⟩ := h.reads
      cases hnone
  | dataRead hpc hb =>
      have hlen := hfull rfl
      simp only [Client.frameRead, hpc, hb] at h hlen
      rw [if_neg (by simp [hpc])]
      exact h.dataRead hpre hlen
  | close hpc =>
      simp only [Client.frameRead, hpc] at h
      rw [if_neg (by simp [hpc])]
      unfold Client.closeHandle
      split_ifs <;> exact h
  | deliver hpc =>
      simp only [Client.frameRead, hpc] at h
      rw [if_pos hpc, Client.deliver_of_not_oneway ho]
      show InFrame f p.toClient.taken (n + 1) .idle
      rw [InFrame.idle_iff]
      exact h.done.2
  | takeAck hpc | acked hpc => exact absurd hpc hack

/-! ## The requests over a kept connection -/

/-- The server is inside the next frame after the ones it has read whole. -/
theorem server_reading {cfg : Config} {s : State} {io : Io} {srv : Server} {p : Pipe} {n k : Nat}
    (hr : cfg.reuse = true) (hkept : Kept s) (hpre : s.pipe.toServer.taken <+: frames cfg.request k)
    (hfull : io = .ret → s.server.frameRead.Full)
    (h : InFrame cfg.request s.pipe.toServer.taken n s.server.frameRead)
    (hs : Server.Step cfg s.server s.pipe io srv p) :
    InFrame cfg.request p.toServer.taken (if s.server.pc = .build then n + 1 else n)
      srv.frameRead := by
  have hlive : s.server.pc = .readSize → s.pipe.gone = false := by
    intro hpc
    simp [Pipe.gone, hkept.serving (by simp [hpc]) (by simp [hpc]) (by simp [hpc])]
  by_cases hasked : s.server.pc.asked
  · exact server_asked hasked hlive hpre hfull h hs
  -- behind the request nothing is read until the next round
  cases hs with
  | create hpc =>
      have habs := hkept.create hpc
      simp only [Server.frameRead, hpc, habs] at h ⊢
      exact h
  | putReply hpc j hpiece =>
      simp only [Server.frameRead, hpc] at h ⊢
      exact h
  | written hpc =>
      simp only [Server.frameRead, hpc] at h ⊢
      exact h
  | confirmed hpc | flushed hpc =>
      rw [Server.finish_of_reuse hr]
      simp only [Server.frameRead, hpc] at h ⊢
      exact h.begin
  | disconnect hpc => exact absurd hpc hkept.kept.1
  | close hpc => exact absurd hpc hkept.kept.2
  | spin hpc | block hpc | accept hpc | takeSize hpc | clientClosed hpc | sized hpc | takeData hpc
  | readNull hpc | dataRead hpc | reply hpc =>
      rw [hpc] at hasked
      exact absurd trivial hasked

/-- What the client has written is the frames of the requests it has made, but for
    what the `WriteFile` in progress has left. -/
structure Sending (cfg : Config) (c : Client) (p : Pipe) : Prop where
  writing : p.toServer.written ++ c.pending = frames cfg.request c.made
  idle : c.pc ≠ .write → c.pending = []

theorem sending_step {cfg : Config} {s : State} {io : Io} {c : Client} {p : Pipe}
    (hr : cfg.reuse = true) (hkept : Kept s) (h : Sending cfg s.client s.pipe)
    (hs : Client.Step cfg s.client s.pipe io c p) : Sending cfg c p := by
  obtain ⟨hwrite, hidle⟩ := h
  cases hs with
  | enter hpc => exact ⟨hwrite, fun _ => hidle (by simp [hpc])⟩
  | request hpc =>
      rw [hidle (by simp [hpc]), List.append_nil] at hwrite
      refine ⟨?_, fun hw => absurd rfl hw⟩
      show s.pipe.toServer.written ++ frame (cfg.request s.client.made) = _
      rw [hwrite]
      rfl
  | putRequest hpc j hpiece =>
      obtain ⟨-, -, -, rfl, rfl⟩ := writePiece_eq_some.mp hpiece
      refine ⟨?_, fun hw => absurd hpc hw⟩
      rw [Channel.put_written, List.append_assoc, List.take_append_drop]
      exact hwrite
  | sent hpc hw =>
      -- `WriteFile` returned over a live pipe: the whole frame is in the queue
      have hconn := hkept.connected_of_calling (by simp [hpc]) (by simp [hpc]) (by simp [hpc])
      rw [pending_eq_nil hconn hw] at hwrite
      exact ⟨hwrite, fun _ => rfl⟩
  | close hpc =>
      rw [Client.closeHandle_of_reuse hr]
      exact ⟨hwrite, fun _ => hidle (by simp [hpc])⟩
  | deliver hpc =>
      unfold Client.deliver
      split_ifs <;> exact ⟨hwrite, fun _ => hidle (by simp [hpc])⟩
  | waited hpc | createFile hpc | takeSize hpc | sized hpc | takeData hpc | readNull hpc
  | dataRead hpc | takeAck hpc | acked hpc =>
      exact ⟨hwrite, fun _ => hidle (by simp [hpc])⟩

end IpcWin.Pipes
