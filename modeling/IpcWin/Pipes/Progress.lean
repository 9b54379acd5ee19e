/-
  IpcWin.Pipes.Progress

  Over one reused connection the two programs are never both blocked.

  Payloads may be far longer than the queues, so that either program can be
  blocked in the middle of a frame, and the server in its flush as well.  A
  program that writes waits for the other one to take bytes, one that reads
  waits for bytes.  But requests and answers take turns (`Turns`): no byte of an
  answer is under way before its request has been queued whole, and when nothing
  is under way one of the two has a frame to write.  In one-way mode the answer
  to a request is a confirmation of one byte (`OneWay`).
-/

import IpcWin.Pipes.Rounds

namespace IpcWin.Pipes

open IpcWin.Lib IpcWin.Wire

/-! ## The rounds without short reads -/

/-- If no `ReadFile` returns short, every one over the kept connection fills its
    buffer. -/
theorem fullReads_of_kept {cfg : Config} {s s' : State} {a : Action}
    (hshort : cfg.shortReads = false) (hkept : Kept s)
    (hs : (conversation cfg).step a s = some s') : FullReads s a := by
  rcases conversation_step hs with ⟨io, srv, p, rfl, hstep, rfl⟩ | ⟨io, c, p, rfl, hstep, rfl⟩
  · refine ⟨?_, (fun h => by cases h)⟩
    intro hret
    cases hret
    -- a call returns only in `replyPipes`
    have hconn : s.pipe.state = .connected := by
      apply hkept.serving
      all_goals
        intro hpc
        cases hstep <;> simp_all
    exact server_full hshort hconn hstep
  · refine ⟨(fun h => by cases h), ?_⟩
    intro hret
    cases hret
    have hconn : s.pipe.state = .connected := by
      apply hkept.connected_of_calling
      all_goals
        intro hpc
        cases hstep <;> simp_all
    exact client_full hshort hconn hstep

/-- Request/response mode. -/
theorem rounds_of_exec {cfg : Config} {tr : List (State × Action)} {s : State}
    (hr : cfg.reuse = true) (ho : cfg.oneway = false) (hshort : cfg.shortReads = false)
    (h : Exec (conversation cfg) tr s) : Rounds cfg s :=
  h.invariant_all (Rounds.init cfg) fun _ _ _ hI hs =>
    hI.step hr ho (fullReads_of_kept hshort hI.connected.toKept hs) hs

/-! ## One-way mode -/

/-- The confirmations: one byte for each request. -/
def ack : Nat → List Byte := fun _ => [1]

/-- What the client holds of the confirmation it has read. -/
def Client.ackRead (c : Client) : List Byte :=
  match c.pc with
  | .readAck | .close | .deliver => c.got
  | _ => []

/-- The client is before, inside or behind the `ReadFile` of the confirmation. -/
def Client.AckReads (c : Client) : Prop :=
  match c.pc with
  | .readSize | .readData => False
  | .readAck => c.got.length ≤ 1
  | .close | .deliver => c.got = [1]
  | _ => True

/-- The server has read `n` requests whole and confirmed them, the client is done
    with `d` calls. -/
structure OneWay (cfg : Config) (n d : Nat) (s : State) : Prop where
  kept : Kept s
  reading : InFrame cfg.request s.pipe.toServer.taken n s.server.frameRead
  telling : s.pipe.toClient.written ++ s.server.pending = stream ack n
  idle : s.server.pc ≠ .write → s.server.pending = []
  sending : Sending cfg s.client s.pipe
  got : s.pipe.toClient.taken = stream ack d ++ s.client.ackRead
  made : s.client.made = d + s.client.outstanding
  ackReads : s.client.AckReads

namespace OneWay

variable {cfg : Config} {n d : Nat} {s : State}

theorem init (cfg : Config) : OneWay cfg 0 0 (conversation cfg).init where
  kept := Kept.init cfg
  reading := ⟨rfl, trivial⟩
  telling := rfl
  idle _ := rfl
  sending := ⟨rfl, fun _ => rfl⟩
  got := rfl
  made := rfl
  ackReads := trivial

/-- All bytes on the way to the server are frames of requests made. -/
theorem requests_prefix (h : OneWay cfg n d s) :
    s.pipe.toServer.written <+: frames cfg.request s.client.made := by
  rw [← h.sending.writing]
  exact List.prefix_append _ _

/-- All bytes on the way to the client are confirmations. -/
theorem acks_prefix (h : OneWay cfg n d s) : s.pipe.toClient.written <+: stream ack n := by
  rw [← h.telling]
  exact List.prefix_append _ _

theorem server {io : Io} {srv : Server} {p : Pipe} (hr : cfg.reuse = true)
    (ho : cfg.oneway = true) (h : OneWay cfg n d s) (hfull : io = .ret → s.server.frameRead.Full)
    (hs : Server.Step cfg s.server s.pipe io srv p) :
    OneWay cfg (if s.server.pc = .build then n + 1 else n) d
      { s with server := srv, pipe := p } := by
  have hpre := (Channel.taken_prefix_written _).trans h.requests_prefix
  have hread := server_reading hr h.kept hpre hfull h.reading hs
  obtain ⟨hwritten, htaken⟩ := server_keeps h.kept hs
  have hsend : Sending cfg s.client p := ⟨hwritten ▸ h.sending.writing, h.sending.idle⟩
  have hgot : p.toClient.taken = stream ack d ++ s.client.ackRead := htaken.trans h.got
  have htell : p.toClient.written ++ srv.pending =
      stream ack (if s.server.pc = .build then n + 1 else n) ∧
      (srv.pc ≠ .write → srv.pending = []) := by
    have htold := h.telling
    cases hs with
    | create hpc =>
        rw [h.kept.create hpc] at htold
        rw [if_neg (by simp [hpc])]
        exact ⟨htold, fun _ => h.idle (by simp [hpc])⟩
    | spin hpc =>
        rw [if_neg (by simp [hpc])]
        exact ⟨htold, h.idle⟩
    | reply hpc =>
        -- the confirmation of the request that has been read is owed
        rw [h.idle (by simp [hpc]), List.append_nil] at htold
        rw [if_pos hpc, Server.reply, if_pos ho]
        refine ⟨?_, fun hw => absurd rfl hw⟩
        show s.pipe.toClient.written ++ [1] = stream ack (n + 1)
        rw [htold]
        rfl
    | putReply hpc j hpiece =>
        obtain ⟨-, -, -, rfl, rfl⟩ := writePiece_eq_some.mp hpiece
        rw [if_neg (by simp [hpc])]
        refine ⟨?_, fun hw => absurd hpc hw⟩
        rw [Channel.put_written, List.append_assoc, List.take_append_drop]
        exact htold
    | confirmed hpc _ hw =>
        have hconn := h.kept.serving (by simp [hpc]) (by simp [hpc]) (by simp [hpc])
        rw [pending_eq_nil hconn hw] at htold
        rw [if_neg (by simp [hpc]), Server.finish_of_reuse hr]
        exact ⟨htold, fun _ => rfl⟩
    | flushed hpc =>
        rw [if_neg (by simp [hpc]), Server.finish_of_reuse hr]
        exact ⟨htold, fun _ => h.idle (by simp [hpc])⟩
    | disconnect hpc => exact absurd hpc h.kept.kept.1
    | close hpc => exact absurd hpc h.kept.kept.2
    | written _ hone => simp [ho] at hone
    | block hpc | accept hpc | takeSize hpc | clientClosed hpc | sized hpc | takeData hpc
    | readNull hpc | dataRead hpc =>
        rw [if_neg (by simp [hpc])]
        exact ⟨htold, fun _ => h.idle (by simp [hpc])⟩
  exact ⟨kept_server hr h.kept hs, hread, htell.1, htell.2, hsend, hgot, h.made, h.ackReads⟩

theorem client {io : Io} {c : Client} {p : Pipe} (hr : cfg.reuse = true)
    (ho : cfg.oneway = true) (hshort : cfg.shortReads = false) (h : OneWay cfg n d s)
    (hs : Client.Step cfg s.client s.pipe io c p) :
    OneWay cfg n (if s.client.pc = .deliver then d + 1 else d)
      { s with client := c, pipe := p } := by
  obtain ⟨htaken, hwritten⟩ := client_keeps hr hs
  have hread : InFrame cfg.request p.toServer.taken n s.server.frameRead := htaken ▸ h.reading
  have htell : p.toClient.written ++ s.server.pending = stream ack n := hwritten ▸ h.telling
  have hack : p.toClient.taken = stream ack (if s.client.pc = .deliver then d + 1 else d) ++
        c.ackRead ∧
      c.made = (if s.client.pc = .deliver then d + 1 else d) + c.outstanding ∧ c.AckReads := by
    have hgot := h.got
    have hmade := h.made
    have hreads := h.ackReads
    cases hs with
    | enter hpc =>
        simp only [Client.ackRead, Client.outstanding, hpc] at hgot hmade
        rw [if_neg (by simp [hpc])]
        unfold Client.enter
        cases s.client.hPipe && cfg.reuse with
        | true => exact ⟨hgot, hmade, trivial⟩
        | false => exact ⟨hgot, hmade, trivial⟩
    | waited hpc | createFile hpc =>
        simp only [Client.ackRead, Client.outstanding, hpc] at hgot hmade
        rw [if_neg (by simp [hpc])]
        exact ⟨hgot, hmade, trivial⟩
    | request hpc =>
        simp only [Client.ackRead, Client.outstanding, hpc] at hgot hmade
        rw [if_neg (by simp [hpc])]
        exact ⟨hgot, congrArg (· + 1) hmade, trivial⟩
    | putRequest hpc j hpiece =>
        obtain ⟨-, -, -, rfl, rfl⟩ := writePiece_eq_some.mp hpiece
        simp only [Client.ackRead, Client.outstanding, Client.AckReads, hpc] at hgot hmade hreads ⊢
        rw [if_neg (by simp)]
        exact ⟨hgot, hmade, trivial⟩
    | sent hpc =>
        simp only [Client.ackRead, Client.outstanding, hpc] at hgot hmade
        rw [if_neg (by simp [hpc])]
        simp only [Client.sent, ho]
        exact ⟨hgot, hmade, Nat.zero_le 1⟩
    | takeAck hpc j hpiece =>
        obtain ⟨-, hj, hlen, rfl, rfl⟩ := readPiece_eq_some.mp hpiece
        simp only [Client.ackRead, Client.outstanding, hpc] at hgot hmade
        rw [if_neg (by simp [hpc])]
        simp only [Client.ackRead, Client.outstanding, Client.AckReads, hpc]
        refine ⟨?_, hmade, ?_⟩
        · rw [Channel.take_taken, hgot, List.append_assoc]
        · rw [List.length_append, List.length_take]
          omega
    | acked hpc hret =>
        have hconn := h.kept.connected_of_calling (by simp [hpc]) (by simp [hpc]) (by simp [hpc])
        have hlen : s.client.got.length = 1 := by
          simpa [readReturns, hshort, Pipe.gone, hconn] using hret
        have hpre := (Channel.taken_prefix_written _).trans h.acks_prefix
        simp only [Client.ackRead, Client.outstanding, hpc] at hgot hmade
        rw [hgot] at hpre
        -- nothing but confirmations comes this way
        have hne : s.client.got ≠ [] := by
          intro hnil
          simp [hnil] at hlen
        have hone : s.client.got = [1] :=
          (prefix_frame hpre hne (Nat.le_of_eq hlen)).eq_of_length hlen
        rw [if_neg (by simp [hpc])]
        exact ⟨hgot, hmade, hone⟩
    | close hpc =>
        rw [Client.closeHandle_of_reuse hr, if_neg (by simp [hpc])]
        simp only [Client.ackRead, Client.outstanding, Client.AckReads, hpc] at hgot hmade hreads
        exact ⟨hgot, hmade, hreads⟩
    | deliver hpc =>
        simp only [Client.ackRead, Client.outstanding, Client.AckReads, hpc] at hgot hmade hreads
        rw [if_pos hpc, Client.deliver, if_pos ho]
        refine ⟨?_, hmade, trivial⟩
        rw [hgot, hreads]
        exact (List.append_nil _).symm
    | takeSize hpc | sized hpc | takeData hpc | readNull hpc | dataRead hpc =>
        simp only [Client.AckReads, hpc] at hreads
  exact ⟨kept_client hr h.kept hs, hread, htell, h.idle, sending_step hr h.kept h.sending hs,
    hack.1, hack.2.1, hack.2.2⟩

end OneWay

theorem oneWay_of_exec {cfg : Config} {tr : List (State × Action)} {s : State}
    (hr : cfg.reuse = true) (ho : cfg.oneway = true) (hshort : cfg.shortReads = false)
    (h : Exec (conversation cfg) tr s) : ∃ n d, OneWay cfg n d s := by
  refine h.invariant_all (I := fun s => ∃ n d, OneWay cfg n d s) ⟨0, 0, OneWay.init cfg⟩ ?_
  rintro s a s' ⟨n, d, hI⟩ hs
  have hfull := fullReads_of_kept hshort hI.kept hs
  rcases conversation_step hs with ⟨io, srv, p, rfl, hstep, rfl⟩ | ⟨io, c, p, rfl, hstep, rfl⟩
  · refine ⟨_, d, hI.server hr ho ?_ hstep⟩
    rintro rfl
    exact hfull.1 rfl
  · exact ⟨n, _, hI.client hr ho hshort hstep⟩

/-! ## A program that is blocked -/

/-- The program has no step. -/
def Server.Blocked (cfg : Config) (srv : Server) (p : Pipe) : Prop :=
  ∀ io, srv.step cfg io p = none

def Client.Blocked (cfg : Config) (c : Client) (p : Pipe) : Prop :=
  ∀ io, c.step cfg io p = none

/-- A blocked server waits for the client to take bytes, or in the middle of a
    frame for bytes of it. -/
theorem Server.Blocked.waits {cfg : Config} {s : State} {n : Nat} (hout : 0 < cfg.outbuf)
    (hconn : s.pipe.state = .connected)
    (hread : InFrame cfg.request s.pipe.toServer.taken n s.server.frameRead)
    (hidle : s.server.pc ≠ .write → s.server.pending = [])
    (h : s.server.Blocked cfg s.pipe) :
    s.pipe.toClient.queue ≠ [] ∨
      s.server.frameRead.piece.length < (frame (cfg.request n)).length ∧
        s.server.pending = [] ∧ s.pipe.toServer.queue = [] := by
  cases hpc : s.server.pc with
  | create | build | disconnect | close =>
      have hrun := h .run
      simp [Server.step, hpc] at hrun
  | connect | connecting =>
      have hrun := h .run
      simp [Server.step, hpc, hconn] at hrun
  | readSize =>
      have htake := h (.take 1)
      have hret := h .ret
      have hnil := hidle (by simp [hpc])
      simp only [Server.frameRead, hpc] at hread ⊢
      simp only [Server.step, hpc, Option.map_eq_none_iff] at htake
      simp only [Server.step, hpc] at hret
      have hlen : ¬ readReturns cfg.shortReads s.pipe.gone 4 s.server.got s.pipe.toServer = true := by
        intro hreturns
        rw [if_pos hreturns] at hret
        split_ifs at hret
      obtain ⟨hqueue, hlt⟩ := read_blocked hread.reads htake hlen
      refine .inr ⟨?_, hnil, hqueue⟩
      rw [FrameRead.piece, frame_length]
      omega
  | readData =>
      have htake := h (.take 1)
      have hret := h .ret
      have hnil := hidle (by simp [hpc])
      simp only [Server.frameRead, hpc] at hread ⊢
      obtain ⟨hword, block, hb, hblen, hle⟩ := hread.reads
      simp only [Server.step, hpc, hb, Option.map_eq_none_iff] at htake
      simp only [Server.step, hpc, hb, ite_eq_right_iff, reduceCtorEq, imp_false] at hret
      obtain ⟨hqueue, hlt⟩ := read_blocked hle htake hret
      refine .inr ⟨?_, hnil, hqueue⟩
      rw [FrameRead.piece, List.length_append, intBytes_length, frame_length]
      omega
  | write =>
      have hput := h (.put 1)
      have hret := h .ret
      simp only [Server.step, hpc, Option.map_eq_none_iff] at hput
      simp only [Server.step, hpc] at hret
      have hlen : ¬ writeReturns s.pipe.gone s.server.pending = true := by
        intro hreturns
        rw [if_pos hreturns] at hret
        split_ifs at hret
      exact .inl (write_blocked hout hput hlen).2
  | flush =>
      have hrun := h .run
      simp only [Server.step, hpc, ite_eq_right_iff, reduceCtorEq, imp_false] at hrun
      refine .inl ?_
      intro hqueue
      exact hrun (by simp [hqueue])

/-- What a client in a call waits for when it is blocked: that the server takes
    bytes, or bytes of the reply or of the confirmation. -/
inductive Client.Waits (c : Client) (p : Pipe) : Prop
  | room (h : c.pc = .write) (hpending : c.pending ≠ []) (hqueue : p.toServer.queue ≠ [])
  | size (h : c.pc = .readSize) (hlen : c.got.length < 4) (hqueue : p.toClient.queue = [])
  | data (h : c.pc = .readData) {block : List Byte} (hb : c.response = some block)
      (hlen : c.got.length < block.length) (hqueue : p.toClient.queue = [])
  | ack (h : c.pc = .readAck) (hlen : c.got.length < 1) (hqueue : p.toClient.queue = [])

/-- The client has a request or a reply outstanding. -/
def ClientPc.inCall : ClientPc → Prop
  | .start | .waitPipe | .createFile => False
  | _ => True

/-- The client makes a call only over the connected pipe. -/
theorem Kept.connected_of_inCall {s : State} (h : Kept s) (hcall : s.client.pc.inCall) :
    s.pipe.state = .connected := by
  apply h.connected_of_calling
  all_goals
    intro hpc
    rw [hpc] at hcall
    exact hcall

/-- No `ReadFile` in progress has taken more than it was called for. -/
def Client.Fits (c : Client) : Prop :=
  match c.pc with
  | .readSize => c.got.length ≤ 4
  | .readData => ∀ block, c.response = some block → c.got.length ≤ block.length
  | .readAck => c.got.length ≤ 1
  | _ => True

theorem Client.Blocked.waits {cfg : Config} {c : Client} {p : Pipe} (hin : 0 < cfg.inbuf)
    (hcall : c.pc.inCall) (hfits : c.Fits) (h : c.Blocked cfg p) : c.Waits p := by
  cases hpc : c.pc with
  | start | waitPipe | createFile =>
      rw [hpc] at hcall
      exact hcall.elim
  | build | close | deliver =>
      have hrun := h .run
      simp [Client.step, hpc] at hrun
  | write =>
      have hput := h (.put 1)
      have hret := h .ret
      simp only [Client.step, hpc, Option.map_eq_none_iff] at hput
      simp only [Client.step, hpc, ite_eq_right_iff, reduceCtorEq, imp_false] at hret
      obtain ⟨hpending, hqueue⟩ := write_blocked hin hput hret
      exact .room hpc hpending hqueue
  | readSize =>
      have htake := h (.take 1)
      have hret := h .ret
      simp only [Client.Fits, hpc] at hfits
      simp only [Client.step, hpc, Option.map_eq_none_iff] at htake
      simp only [Client.step, hpc, ite_eq_right_iff, reduceCtorEq, imp_false] at hret
      obtain ⟨hqueue, hlt⟩ := read_blocked hfits htake hret
      exact .size hpc hlt hqueue
  | readData =>
      have htake := h (.take 1)
      have hret := h .ret
      simp only [Client.Fits, hpc] at hfits
      cases hb : c.response with
      | none => simp [Client.step, hpc, hb] at hret
      | some block =>
          simp only [Client.step, hpc, hb, Option.map_eq_none_iff] at htake
          simp only [Client.step, hpc, hb, ite_eq_right_iff, reduceCtorEq, imp_false] at hret
          obtain ⟨hqueue, hlt⟩ := read_blocked (hfits block hb) htake hret
          exact .data hpc hb hlt hqueue
  | readAck =>
      have htake := h (.take 1)
      have hret := h .ret
      simp only [Client.Fits, hpc] at hfits
      simp only [Client.step, hpc, Option.map_eq_none_iff] at htake
      simp only [Client.step, hpc, ite_eq_right_iff, reduceCtorEq, imp_false] at hret
      obtain ⟨hqueue, hlt⟩ := read_blocked hfits htake hret
      exact .ack hpc hlt hqueue

/-! ## Never both -/

namespace Rounds

variable {cfg : Config} {s : State}

/-- Requests and replies take turns. -/
theorem turns (h : Rounds cfg s) (hout : s.client.outstanding = 1) :
    Turns (fun k => frame (cfg.request k)) (fun k => frame (cfg.reply k))
      s.server.received.length s.client.delivered.length s.pipe.toServer s.pipe.toClient
      s.client.pending s.server.frameRead.piece s.server.pending s.client.frameRead.piece where
  asked := by
    rw [← hout, ← h.client.made]
    exact h.client.writing
  heard := h.server.reading.taken_eq
  told := h.server.writing
  got := h.client.reading.taken_eq

theorem fits (h : Rounds cfg s) : s.client.Fits := by
  have hreads := h.client.reading.reads
  cases hpc : s.client.pc with
  | readSize =>
      simp only [Client.frameRead, hpc] at hreads
      simp only [Client.Fits, hpc]
      exact hreads
  | readData =>
      simp only [Client.frameRead, hpc] at hreads
      obtain ⟨-, b, hb, -, hle⟩ := hreads
      simp only [Client.Fits, hpc]
      intro block hblock
      cases hb.symm.trans hblock
      exact hle
  | readAck => exact absurd hpc h.connected.answered
  | _ => simp [Client.Fits, hpc]

theorem unblocked (h : Rounds cfg s) (hin : 0 < cfg.inbuf) (hout : 0 < cfg.outbuf)
    (hcall : s.client.pc.inCall) :
    ¬ (s.server.Blocked cfg s.pipe ∧ s.client.Blocked cfg s.pipe) := by
  rintro ⟨hserver, hclient⟩
  have hserver' := hserver.waits hout (h.connected.toKept.connected_of_inCall hcall)
    h.server.reading h.server.idle
  cases hclient.waits hin hcall h.fits with
  | room hpc hpending hqueue =>
      have hback := (h.turns (by simp [Client.outstanding, hpc])).back_queue_eq_nil hpending
      rcases hserver' with hreply | ⟨-, -, hnone⟩
      · exact hreply hback
      · exact hqueue hnone
  | size hpc hlen hqueue =>
      have hturns := h.turns (by simp [Client.outstanding, hpc])
      rcases hserver' with hreply | ⟨hask, hidle, hnone⟩
      · exact hreply hqueue
      · rw [h.client.idle (by simp [hpc]), hidle] at hturns
        refine hturns.not_both_waiting hnone hqueue hask ?_
        simp only [Client.frameRead, hpc, FrameRead.piece, frame_length]
        omega
  | data hpc hb hlen hqueue =>
      have hturns := h.turns (by simp [Client.outstanding, hpc])
      have hreads := h.client.reading.reads
      rcases hserver' with hreply | ⟨hask, hidle, hnone⟩
      · exact hreply hqueue
      · rw [h.client.idle (by simp [hpc]), hidle] at hturns
        refine hturns.not_both_waiting hnone hqueue hask ?_
        simp only [Client.frameRead, hpc, hb] at hreads ⊢
        obtain ⟨-, b, hsome, hblen, -⟩ := hreads
        cases hsome
        rw [FrameRead.piece, List.length_append, intBytes_length, frame_length]
        omega
  | ack hpc => exact absurd hpc h.connected.answered

end Rounds

namespace OneWay

variable {cfg : Config} {n d : Nat} {s : State}

/-- Requests and confirmations take turns. -/
theorem turns (h : OneWay cfg n d s) (hout : s.client.outstanding = 1) :
    Turns (fun k => frame (cfg.request k)) ack n d s.pipe.toServer s.pipe.toClient
      s.client.pending s.server.frameRead.piece s.server.pending s.client.ackRead where
  asked := by
    rw [← hout, ← h.made]
    exact h.sending.writing
  heard := h.reading.taken_eq
  told := h.telling
  got := h.got

theorem fits (h : OneWay cfg n d s) : s.client.Fits := by
  have hreads := h.ackReads
  cases hpc : s.client.pc with
  | readSize | readData =>
      simp only [Client.AckReads, hpc] at hreads
  | readAck =>
      simp only [Client.AckReads, hpc] at hreads
      simp only [Client.Fits, hpc]
      exact hreads
  | _ => simp [Client.Fits, hpc]

theorem unblocked (h : OneWay cfg n d s) (hin : 0 < cfg.inbuf) (hout : 0 < cfg.outbuf)
    (hcall : s.client.pc.inCall) :
    ¬ (s.server.Blocked cfg s.pipe ∧ s.client.Blocked cfg s.pipe) := by
  rintro ⟨hserver, hclient⟩
  have hserver' := hserver.waits hout (h.kept.connected_of_inCall hcall) h.reading h.idle
  have hreads := h.ackReads
  cases hclient.waits hin hcall h.fits with
  | room hpc hpending hqueue =>
      have hback := (h.turns (by simp [Client.outstanding, hpc])).back_queue_eq_nil hpending
      rcases hserver' with hconfirm | ⟨-, -, hnone⟩
      · exact hconfirm hback
      · exact hqueue hnone
  | ack hpc hlen hqueue =>
      have hturns := h.turns (by simp [Client.outstanding, hpc])
      rcases hserver' with hconfirm | ⟨hask, hidle, hnone⟩
      · exact hconfirm hqueue
      · rw [h.sending.idle (by simp [hpc]), hidle] at hturns
        refine hturns.not_both_waiting hnone hqueue hask ?_
        simp only [Client.ackRead, hpc]
        exact hlen
  | size hpc | data hpc => simp only [Client.AckReads, hpc] at hreads

end OneWay

/-- Over one reused connection, in either mode, the client in a call and the server
    are never both blocked, whatever the payloads, the builder and the sizes of the
    two queues.  (A server that is still in its accept loop is not blocked but
    calls `ConnectNamedPipe` again.) -/
theorem not_both_blocked {cfg : Config} {tr : List (State × Action)} {s : State}
    (hr : cfg.reuse = true) (hshort : cfg.shortReads = false) (hin : 0 < cfg.inbuf)
    (hout : 0 < cfg.outbuf) (h : Exec (conversation cfg) tr s) (hcall : s.client.pc.inCall) :
    ¬ (s.server.Blocked cfg s.pipe ∧ s.client.Blocked cfg s.pipe) := by
  cases ho : cfg.oneway with
  | false => exact (rounds_of_exec hr ho hshort h).unblocked hin hout hcall
  | true =>
      obtain ⟨n, d, hone⟩ := oneWay_of_exec hr ho hshort h
      exact hone.unblocked hin hout hcall

/-- Two-byte requests over queues of one byte each. -/
def narrowConfig : Config := { twoByteConfig with shortReads := false, inbuf := 1, outbuf := 1 }

/-- The client is in the middle of the length word and the queue is full. -/
def midFrame : List Action :=
  [.server .run, .server .run, .client .run, .client .run, .client .run, .server .run,
    .client .run, .client (.put 1), .server (.take 1), .client (.put 1)]

theorem midFrame_not_both_blocked :
    ∃ tr s, Exec (conversation narrowConfig) tr s ∧ s.client.pending.length = 4 ∧
      s.pipe.toServer.queue.length = narrowConfig.inbuf ∧
      ¬ (s.server.Blocked narrowConfig s.pipe ∧ s.client.Blocked narrowConfig s.pipe) := by
  have hrun : (conversation narrowConfig).run midFrame = some
      { server := { Server.start.enter with got := [2] }
        client :=
          { Client.start with pc := .write, hPipe := true, pending := [0, 0, 1, 2], made := 1 }
        pipe := { Pipe.create with
          state := .connected, toServer := { taken := [2], queue := [0] } } } := by decide
  obtain ⟨tr, hexec⟩ := Exec.of_run hrun
  exact ⟨tr, _, hexec, rfl, rfl,
    not_both_blocked rfl rfl (by decide) (by decide) hexec trivial⟩

end IpcWin.Pipes
