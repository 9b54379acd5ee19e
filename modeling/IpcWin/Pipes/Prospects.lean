/-
  IpcWin.Pipes.Prospects

  What can still come of any number of clients with one server, without `-r`.

  No call is bound to be answered, for a client can always be early (`Spins`).  But
  as long as none has been, every client can be served: the call in progress can be
  brought to its end (`Asking.possible`, `Answering.possible`), the server can go on
  to its next instance (`Between.possible_listening`), and the client can open it
  before anyone else (`Between.possible_opened`).  So a client can be served any
  number of further times exactly if the server does not spin
  (`served_possible_iff`).
-/

import IpcWin.Pipes.Refinement
import IpcWin.Pipes.Returns
import IpcWin.Pipes.Standstill

namespace IpcWin.Pipes

open IpcWin.Lib IpcWin.Wire

/-! ## What the steps of a call leave as it is -/

section Frame

variable {cfg : Config} {srv srv' : Server} {c c' : Client} {p p' : Pipe} {io : Io}

/-- Only a new instance takes the server to `ConnectNamedPipe`. -/
theorem Server.Step.not_connect (h : Server.Step cfg srv p io srv' p')
    (hcreate : srv.pc ≠ .create) (hconnect : srv.pc ≠ .connect) : srv'.pc ≠ .connect := by
  cases h with
  | create hpc => exact absurd hpc hcreate
  | block hpc | spin hpc => exact absurd hpc hconnect
  | takeSize hpc | takeData hpc | putReply hpc => simp [hpc]
  | confirmed | flushed =>
      unfold Server.finish
      split_ifs <;> simp
  | _ => simp

/-- A client that hears has nothing left to send. -/
theorem Client.Step.toServer_of_hears (h : Client.Step cfg c p io c' p') (hhears : c.Hears) :
    p'.toServer = p.toServer := by
  cases h with
  | putRequest hpc j hpiece =>
      obtain ⟨hpos, hj, -⟩ := writePiece_eq_some.mp hpiece
      simp only [Client.Hears, hpc] at hhears
      rw [hhears, List.length_nil] at hj
      omega
  | close =>
      unfold Client.closeHandle
      split_ifs <;> rfl
  | _ => rfl

/-- A server that replies takes nothing. -/
theorem Server.Step.toServer_of_replying (h : Server.Step cfg srv p io srv' p')
    (hpc : srv.pc = .write ∨ srv.pc = .flush) : p'.toServer = p.toServer := by
  cases h with
  | create h | takeSize h | takeData h | disconnect h => simp [h] at hpc
  | _ => rfl

theorem Client.outstanding_of_opening {c : Client} (h : c.pc.opening = true) :
    c.outstanding = 0 := by
  unfold Client.outstanding
  cases hpc : c.pc with
  | start | waitPipe | createFile => rfl
  | _ => simp [hpc, ClientPc.opening] at h

/-- A step that leaves the pipe as it is, with as many calls made and returned as before,
    takes the client on in its call. -/
theorem Client.Step.stage_lt (h : Client.Step cfg c p io c' p) (ho : cfg.oneway = false)
    (hack : c.pc ≠ .readAck) (hmade : c.made = c.delivered.length + c.outstanding)
    (hdel : c'.delivered = c.delivered) (hout : c'.outstanding = c.outstanding) :
    c.pc.stage < c'.pc.stage := by
  have hlt := h.pace_lt ho hack
  have hmade' := h.made ho hmade
  rw [hdel, hout] at hmade'
  omega

theorem Client.outstanding_of_done {q : Packet} (h : c.Rests (some q)) : c.outstanding = 1 := by
  have hopen := h.not_opening
  have hdone := h.1
  unfold Client.outstanding
  cases hpc : c.pc with
  | start | waitPipe | createFile => simp [hpc, ClientPc.opening] at hopen
  | build => simp only [Client.Done, hpc] at hdone
  | _ => rfl

end Frame

/-! ## The steps of the client that has the instance open -/

section Owner

variable {ι : Type*} [DecidableEq ι] {cfg : Config} {request : ι → Nat → Packet}
  {s : Clients ι} {i : ι}

/-- The server or the owner of the instance makes a step. -/
inductive CallStep (cfg : Config) (request : ι → Nat → Packet) (i : ι) (s : Clients ι) :
    Clients ι → Prop
  | server {io : Io} {srv : Server} {p : Pipe}
      (h : Server.Step (cfg.for request i) s.server s.pipe io srv p) :
      CallStep cfg request i s (s.moveServer (srv, p))
  | client {io : Io} {c : Client} {p : Pipe}
      (h : Client.Step (cfg.for request i) (s.client i) s.pipe io c p) :
      CallStep cfg request i s
        { s with client := Function.update s.client i c, pipe := p, owner := some i }

/-- Unless both are blocked, one of the two has a step. -/
theorem exists_callStep (howner : s.owner = some i)
    (h : ¬ (s.server.Blocked (cfg.for request i) s.pipe ∧
      (s.client i).Blocked (cfg.for request i) s.pipe)) :
    ∃ a s', (clients cfg request).step a s = some s' ∧ CallStep cfg request i s s' := by
  rcases not_and_or.mp h with h | h
  · obtain ⟨io, hio⟩ := not_forall.mp h
    obtain ⟨⟨srv, p⟩, hstep⟩ := Option.ne_none_iff_exists'.mp hio
    refine ⟨.server io, s.moveServer (srv, p), ?_, .server (Server.step_cases hstep)⟩
    have hsame : s.server.step cfg io s.pipe = some (srv, p) := hstep
    simp only [clients, hsame, Option.map_some]
  · obtain ⟨io, hio⟩ := not_forall.mp h
    obtain ⟨⟨c, p⟩, hstep⟩ := Option.ne_none_iff_exists'.mp hio
    refine ⟨.client i io, _, ?_, .client (Client.step_cases hstep)⟩
    simp only [clients, seen_of_owner howner, hstep, Option.map_some, moveClient_of_owner howner]

/-- The client `i` has the instance open, and has been handed `d`. -/
structure Calling (i : ι) (d : List Received) (s : Clients ι) : Prop where
  owner : s.owner = some i
  delivered : (s.client i).delivered = d
  made : (s.client i).made = (s.client i).delivered.length + (s.client i).outstanding

variable {d : List Received} {s' : Clients ι}

/-- Until the client is handed its reply or the server makes a new instance. -/
theorem Calling.step (h : Calling i d s) (hs : CallStep cfg request i s s')
    (ho : cfg.oneway = false) (hcreate : s.server.pc ≠ .create)
    (hdel : (s'.client i).delivered = (s.client i).delivered) : Calling i d s' := by
  cases hs with
  | server => exact ⟨(if_neg hcreate).trans h.owner, h.delivered, h.made⟩
  | client hstep =>
      refine ⟨rfl, hdel.trans h.delivered, ?_⟩
      simp only [Function.update_self]
      exact hstep.made ho h.made

omit [DecidableEq ι] in
theorem Calling.made_le (h : Calling i d s) : (s.client i).made ≤ d.length + 1 := by
  rw [h.made, h.delivered]
  exact Nat.add_le_add_left (Client.outstanding_le_one _) _

/-- Every step of a call takes it further. -/
theorem CallStep.pace_lt (hs : CallStep cfg request i s s') (ho : cfg.oneway = false)
    (hconn : s.pipe.state = .connected) (hack : (s.client i).pc ≠ .readAck)
    (hstart : s.server.pc ≠ .create ∧ s.server.pc ≠ .connect)
    (hkept : s'.pipe.state = .connected) (hclose : s.server.pc ≠ .close) :
    (s.pair i).pace < (s'.pair i).pace := by
  have ho' : (cfg.for request i).oneway = false := ho
  cases hs with
  | @server io srv p hstep =>
      have hdisconnect : s.server.pc ≠ .disconnect := by
        intro hpc
        cases hstep with
        | disconnect => cases hkept
        | _ hother => rw [hpc] at hother; cases hother
      have hlt := hstep.pace_lt ho' hstart ⟨hdisconnect, hclose⟩ fun _ => hconn
      show s.pipe.traffic + (9 * (s.client i).made + (s.client i).pc.stage) +
          (5 * s.server.received.length + s.server.pc.stage) <
        p.traffic + (9 * (s.client i).made + (s.client i).pc.stage) +
          (5 * srv.received.length + srv.pc.stage)
      omega
  | client hstep =>
      have hlt := hstep.pace_lt ho' hack
      simp only [Clients.pair, Function.update_self, State.pace]
      exact Nat.add_lt_add_right hlt _

/-! ## From stage to stage -/

variable {m q : Packet}

omit [DecidableEq ι] in
theorem Asking.pace_le (h : Asking (cfg.for request i) m (s.pair i)) (hcall : Calling i d s) :
    (s.pair i).pace ≤ 2 * (frame m).length + 9 * (d.length + 1) + 12 +
      5 * s.server.received.length := by
  have hasked : s.pipe.toServer.written.length ≤ (frame m).length :=
    h.client.written_prefix.length_le
  have hheard := (Channel.taken_prefix_written s.pipe.toServer).length_le
  have hquiet : s.pipe.toClient = .empty := h.quiet
  have hmade := hcall.made_le
  have hc := (s.client i).pc.stage_le
  have hs := s.server.pc.stage_le
  simp only [State.pace, Pipe.traffic, Clients.pair, hquiet]
  simp only [Channel.empty, Channel.written, List.append_nil, List.length_nil] at hasked hheard ⊢
  omega

/-- A request that is on its way can be answered, unless the server spins. -/
theorem Asking.possible (ho : cfg.oneway = false) (hshort : cfg.shortReads = false)
    (hin : 0 < cfg.inbuf) (hout : 0 < cfg.outbuf)
    (h : Asking (cfg.for request i) m (s.pair i)) (hcall : Calling i d s)
    (hconnect : s.server.pc ≠ .connect) :
    Possible (clients cfg request)
      (fun t => Calling i d t ∧ ∃ q, Answering q (t.pair i)) s := by
  let r := s.server.received.length
  -- as long as the request is on its way the two take steps of the call, which come to an end
  let I : Clients ι → Prop := fun t => Asking (cfg.for request i) m (t.pair i) ∧ Calling i d t ∧
    t.server.pc ≠ .connect ∧ t.server.received.length = r
  have hI : I s := ⟨h, hcall, hconnect, rfl⟩
  refine Possible.of_measure (I := I)
    (fun t => 2 * (frame m).length + 9 * (d.length + 1) + 13 + 5 * r - (t.pair i).pace) ?_ hI
  rintro t ⟨hasking, hcall, hconnect, hr⟩
  right
  have hcreate : t.server.pc ≠ .create := by
    intro hpc
    have hasked := hasking.pc
    simp only [Clients.pair, hpc] at hasked
    exact hasked.elim
  have hack : (t.client i).pc ≠ .readAck := by
    intro hpc
    have hasks := hasking.client
    simp only [Clients.pair, Client.Asks, hpc] at hasks
  have hclose : t.server.pc ≠ .close := by
    intro hpc
    have hasked := hasking.pc
    simp only [Clients.pair, hpc] at hasked
    exact hasked.elim
  obtain ⟨a, t', hstep, hcs⟩ := exists_callStep hcall.owner (hasking.unblocked hin hout)
  refine ⟨a, t', hstep, ?_⟩
  -- the server's builder takes the request, or the call is as it was and a step further
  have hnext : (∃ q, Answering q (t'.pair i)) ∧ (t'.client i).delivered = (t.client i).delivered ∨
      Asking (cfg.for request i) m (t'.pair i) ∧
        (t'.client i).delivered = (t.client i).delivered ∧
        t'.server.received = t.server.received ∧ t'.server.pc ≠ .connect := by
    cases hcs with
    | server hserver =>
        rcases hasking.server_step hserver ho hshort with ⟨hsame, hnext⟩ | ⟨-, hnext⟩
        · exact .inr ⟨hnext, rfl, hsame, hserver.not_connect hcreate hconnect⟩
        · exact .inl ⟨⟨_, hnext⟩, rfl⟩
    | client hclient =>
        obtain ⟨hnext, hdel⟩ := hasking.client_step hclient ho hshort
        refine .inr ⟨?_, ?_, rfl, hconnect⟩
        · simpa only [Clients.pair, Function.update_self] using hnext
        · simpa only [Function.update_self, Clients.pair] using hdel
  rcases hnext with ⟨hanswering, hdel⟩ | ⟨hnext, hdel, hsame, hnot⟩
  · exact .inl ⟨hcall.step hcs ho hcreate hdel, hanswering⟩
  · have hcall' := hcall.step hcs ho hcreate hdel
    have hr' : t'.server.received.length = r := (congrArg List.length hsame).trans hr
    refine .inr ⟨⟨hnext, hcall', hnot, hr'⟩, ?_⟩
    have hlt := hcs.pace_lt ho hasking.connected hack ⟨hcreate, hconnect⟩ hnext.connected hclose
    have hle := hnext.pace_le hcall'
    rw [hr'] at hle
    omega

omit [DecidableEq ι] in
theorem Answering.pace_le (h : Answering q (s.pair i)) (hcall : Calling i d s) :
    (s.pair i).pace ≤ 2 * (frame q).length + 9 * (d.length + 1) + 12 +
      5 * s.server.received.length +
      (s.pipe.toServer.written.length + s.pipe.toServer.taken.length) := by
  have htold : s.pipe.toClient.written.length ≤ (frame q).length := by
    rw [← h.telling, List.length_append]
    exact Nat.le_add_right _ _
  have hgot := (Channel.taken_prefix_written s.pipe.toClient).length_le
  have hmade := hcall.made_le
  have hc := (s.client i).pc.stage_le
  have hs := s.server.pc.stage_le
  simp only [State.pace, Pipe.traffic, Clients.pair]
  omega

/-- A reply that is on its way can be read to its end. -/
theorem Answering.possible (hr : cfg.reuse = false) (ho : cfg.oneway = false)
    (hshort : cfg.shortReads = false) (hin : 0 < cfg.inbuf) (hout : 0 < cfg.outbuf)
    (h : Answering q (s.pair i)) (hcall : Calling i d s) :
    Possible (clients cfg request)
      (fun t => Between t.server t.pipe ∧ (t.client i).Rests (some q) ∧
        (t.client i).delivered = d) s := by
  let r := s.server.received.length
  let ch := s.pipe.toServer
  let I : Clients ι → Prop := fun t => Answering q (t.pair i) ∧ Calling i d t ∧
    t.server.received.length = r ∧ t.pipe.toServer = ch
  have hI : I s := ⟨h, hcall, rfl, rfl⟩
  refine Possible.of_measure (I := I)
    (fun t => 2 * (frame q).length + 9 * (d.length + 1) + 13 + 5 * r +
      (ch.written.length + ch.taken.length) - (t.pair i).pace) ?_ hI
  rintro t ⟨hanswering, hcall, hlen, hch⟩
  right
  have hpc : t.server.pc = .write ∨ t.server.pc = .flush ∨ t.server.pc = .disconnect :=
    hanswering.pc
  have hcreate : t.server.pc ≠ .create := by
    rcases hpc with hpc | hpc | hpc <;> simp [hpc]
  have hconnect : t.server.pc ≠ .connect := by
    rcases hpc with hpc | hpc | hpc <;> simp [hpc]
  have hclose : t.server.pc ≠ .close := by
    rcases hpc with hpc | hpc | hpc <;> simp [hpc]
  have hack : (t.client i).pc ≠ .readAck := by
    intro hread
    have hhears := hanswering.client
    simp only [Clients.pair, Client.Hears, hread] at hhears
  have hroom : 0 < (cfg.for request i).inbuf := hin
  obtain ⟨a, t', hstep, hcs⟩ := exists_callStep hcall.owner (hanswering.unblocked hroom hout)
  refine ⟨a, t', hstep, ?_⟩
  -- one of the two is done with the instance, or the call is as it was and a step further
  have hnext : Between t'.server t'.pipe ∧ (t'.client i).Rests (some q) ∧
        (t'.client i).delivered = (t.client i).delivered ∨
      Answering q (t'.pair i) ∧ (t'.client i).delivered = (t.client i).delivered ∧
        t'.server.received = t.server.received ∧ t'.pipe.toServer = t.pipe.toServer := by
    cases hcs with
    | @server io srv p hserver =>
        obtain ⟨hsame, hnext | ⟨hbetween, hrests⟩⟩ := hanswering.server_step hserver hr ho
        · have hreplying : t.server.pc = .write ∨ t.server.pc = .flush := by
            refine hpc.imp_right fun h => h.resolve_right fun hdisconnect => ?_
            have hkept : p.state = .connected := hnext.connected
            cases hserver with
            | disconnect => cases hkept
            | _ hother => rw [hdisconnect] at hother; cases hother
          exact .inr ⟨hnext, rfl, hsame, hserver.toServer_of_replying hreplying⟩
        · exact .inl ⟨hbetween, hrests, rfl⟩
    | client hclient =>
        obtain ⟨hdel, hnext | ⟨hbetween, hrests⟩⟩ := hanswering.client_step hclient hr ho hshort
        · refine .inr ⟨?_, ?_, rfl, hclient.toServer_of_hears hanswering.client⟩
          · simpa only [Clients.pair, Function.update_self] using hnext
          · simpa only [Function.update_self, Clients.pair] using hdel
        · refine .inl ⟨hbetween, ?_, ?_⟩
          · simpa only [Function.update_self] using hrests
          · simpa only [Function.update_self, Clients.pair] using hdel
  rcases hnext with ⟨hbetween, hrests, hdel⟩ | ⟨hnext, hdel, hsame, hch'⟩
  · exact .inl ⟨hbetween, hrests, hdel.trans hcall.delivered⟩
  · have hcall' := hcall.step hcs ho hcreate hdel
    have hlen' : t'.server.received.length = r := (congrArg List.length hsame).trans hlen
    have hch'' : t'.pipe.toServer = ch := hch'.trans hch
    refine .inr ⟨⟨hnext, hcall', hlen', hch''⟩, ?_⟩
    have hlt := hcs.pace_lt ho hanswering.connected hack ⟨hcreate, hconnect⟩ hnext.connected
      hclose
    have hle := hnext.pace_le hcall'
    rw [hlen', hch''] at hle
    omega

/-! ## Between two calls -/

/-- The steps of the server until it waits for a client, at most. -/
def ServerPc.untilAccept : ServerPc → Nat
  | .write => 6
  | .flush => 5
  | .disconnect => 4
  | .close => 3
  | .create => 2
  | .connect => 1
  | .connecting | .readSize | .readData | .build => 0

theorem Between.untilAccept_lt {srv srv' : Server} {p p' : Pipe} {io : Io}
    (hr : cfg.reuse = false) (ho : cfg.oneway = false) (h : Between srv p)
    (hs : Server.Step cfg srv p io srv' p') : srv'.pc.untilAccept < srv.pc.untilAccept := by
  cases hs with
  | create hpc | block hpc | written hpc | disconnect hpc | close hpc =>
      simp [ServerPc.untilAccept, hpc]
  | flushed hpc => simp [ServerPc.untilAccept, Server.finish_pc, hr, hpc]
  | spin hpc hnot => exact absurd (h.accepting (.inl hpc)) hnot
  | accept hpc hnot => exact absurd (h.accepting (.inr hpc)) hnot
  | putReply hpc j hpiece =>
      obtain ⟨hpos, hj, -⟩ := writePiece_eq_some.mp hpiece
      have hidle : srv.pending = [] := h.idle
      rw [hidle, List.length_nil] at hj
      omega
  | confirmed _ hone => rw [ho] at hone; cases hone
  | takeSize hpc | clientClosed hpc | sized hpc => exact absurd hpc h.pc.1
  | takeData hpc | readNull hpc | dataRead hpc => exact absurd hpc h.pc.2.1
  | reply hpc => exact absurd hpc h.pc.2.2

/-- The server waits in `ConnectNamedPipe`, and no client has the instance open. -/
structure Listening (s : Clients ι) : Prop where
  between : Between s.server s.pipe
  connecting : s.server.pc = .connecting
  listening : s.pipe.state = .listening

/-- While the clients stand still the server goes on to its next instance. -/
theorem Between.possible_listening (hr : cfg.reuse = false) (ho : cfg.oneway = false)
    (h : Between s.server s.pipe) :
    Possible (clients cfg request) (fun t => Listening t ∧ t.client = s.client) s := by
  let I : Clients ι → Prop := fun t => Between t.server t.pipe ∧ t.client = s.client
  have hI : I s := ⟨h, rfl⟩
  refine Possible.of_measure (I := I) (fun t => t.server.pc.untilAccept) ?_ hI
  rintro t ⟨hbetween, hclient⟩
  by_cases hwait : t.server.pc = .connecting ∧ t.pipe.state = .listening
  · exact .inl ⟨⟨hbetween, hwait.1, hwait.2⟩, hclient⟩
  · right
    -- a server between two calls is only held up by the client it waits for
    obtain ⟨io, hio⟩ := not_forall.mp fun hblocked => hwait (hbetween.blocked ho hblocked)
    obtain ⟨⟨srv, p⟩, hstep⟩ := Option.ne_none_iff_exists'.mp hio
    have hserver := Server.step_cases hstep
    refine ⟨.server io, t.moveServer (srv, p), ?_, .inr ⟨⟨?_, hclient⟩, ?_⟩⟩
    · simp only [clients, hstep, Option.map_some]
    · exact (hbetween.server_step hr ho hserver).2
    · exact hbetween.untilAccept_lt hr ho hserver

/-- A client that is about to open an instance can be the one that does. -/
theorem Listening.possible_opened (hr : cfg.reuse = false) (ho : cfg.oneway = false)
    (h : Listening s) (hopen : (s.client i).pc.opening = true)
    (hd : (s.client i).delivered = d)
    (hmade : (s.client i).made = (s.client i).delivered.length + (s.client i).outstanding) :
    Possible (clients cfg request)
      (fun t => Calling i d t ∧ t.server.pc ≠ .connect ∧
        ∃ m, Asking (cfg.for request i) m (t.pair i)) s := by
  let I : Clients ι → Prop := fun t => Listening t ∧ (t.client i).pc.opening = true ∧
    (t.client i).delivered = d ∧
    (t.client i).made = (t.client i).delivered.length + (t.client i).outstanding
  have hI : I s := ⟨h, hopen, hd, hmade⟩
  refine Possible.of_measure (I := I) (fun t => 8 - (t.client i).pc.stage) ?_ hI
  rintro t ⟨hlistening, hopen, hd, hmade⟩
  right
  have hfinds : t.finds i = true := by simp [Clients.finds, hopen]
  have hseen : t.seen i = t.pipe := by simp [Clients.seen, hfinds]
  obtain ⟨⟨c, p⟩, hstep⟩ : ∃ r, (t.client i).step (cfg.for request i) .run t.pipe = some r := by
    apply Option.ne_none_iff_exists'.mp
    cases hpc : (t.client i).pc with
    | start | waitPipe | createFile => simp [Client.step, hpc, hlistening.listening]
    | _ => simp [hpc, ClientPc.opening] at hopen
  have hclient := Client.step_cases hstep
  refine ⟨.client i .run, t.moveClient i (c, p), ?_, ?_⟩
  · simp only [clients, hseen, hstep, Option.map_some]
  have hmade' := hclient.made ho hmade
  by_cases hpc : (t.client i).pc = .createFile
  · -- it opens the instance, which the server has called `ConnectNamedPipe` on
    obtain ⟨hdel, hasking⟩ := hlistening.between.opened hclient hr ho hpc
    have hmove : t.moveClient i (c, p) =
        { t with client := Function.update t.client i c, pipe := p, owner := some i } := by
      simp [Clients.moveClient, hfinds, hpc]
    rw [hmove]
    refine .inl ⟨⟨rfl, ?_, ?_⟩, ?_, (cfg.for request i).request (t.client i).made, ?_⟩
    · simpa only [Function.update_self] using hdel.trans hd
    · simpa only [Function.update_self] using hmade'
    · simp [hlistening.connecting]
    · simpa only [Clients.pair, Function.update_self] using hasking
  · -- it comes closer to `CreateFile`
    have hrest : (t.client i).Rests none := hopen
    obtain ⟨rfl, hnext⟩ := hrest.step hclient hr ho hpc fun hnot => by simp [hopen] at hnot
    rw [← hseen, moveClient_seen hpc]
    rcases hnext with ⟨hrests, hdel⟩ | ⟨q, hnone, -⟩
    · right
      have hopen' : c.pc.opening = true := hrests
      refine ⟨⟨⟨hlistening.between, hlistening.connecting, hlistening.listening⟩, ?_, ?_, ?_⟩, ?_⟩
      · simpa only [Function.update_self] using hopen'
      · simpa only [Function.update_self] using hdel.trans hd
      · simpa only [Function.update_self] using hmade'
      · have ho' : (cfg.for request i).oneway = false := ho
        have hack : (t.client i).pc ≠ .readAck := by
          intro hread
          simp [hread, ClientPc.opening] at hopen
        have hout : c.outstanding = (t.client i).outstanding := by
          rw [Client.outstanding_of_opening hopen', Client.outstanding_of_opening hopen]
        have hlt := hclient.stage_lt ho' hack hmade hdel hout
        have hle := c.pc.stage_le
        simp only [Function.update_self]
        omega
    · cases hnone

/-- A client that has read its reply to the end can be handed it. -/
theorem Between.possible_handed (hr : cfg.reuse = false) (ho : cfg.oneway = false)
    (h : Between s.server s.pipe) (hrests : (s.client i).Rests (some q))
    (hd : (s.client i).delivered = d)
    (hmade : (s.client i).made = (s.client i).delivered.length + (s.client i).outstanding) :
    Possible (clients cfg request)
      (fun t => Between t.server t.pipe ∧ (t.client i).delivered = d ++ [q.received]) s := by
  let I : Clients ι → Prop := fun t => Between t.server t.pipe ∧ (t.client i).Rests (some q) ∧
    (t.client i).delivered = d ∧
    (t.client i).made = (t.client i).delivered.length + (t.client i).outstanding
  have hI : I s := ⟨h, hrests, hd, hmade⟩
  refine Possible.of_measure (I := I) (fun t => 8 - (t.client i).pc.stage) ?_ hI
  rintro t ⟨hbetween, hrests, hd, hmade⟩
  right
  have hopen := hrests.not_opening
  have hne : (t.client i).pc ≠ .createFile := by
    intro hpc
    simp [hpc, ClientPc.opening] at hopen
  -- its handle leads to an instance that the server is done with
  have hgone : (t.seen i).state ≠ .connected ∧ (t.seen i).toClient.queue = [] := by
    rw [seen_of_not_opening hopen]
    split_ifs
    · exact ⟨hbetween.gone, hbetween.queue⟩
    · exact ⟨by simp [Pipe.lost], rfl⟩
  obtain ⟨io, hio⟩ := not_forall.mp fun hblocked : (t.client i).Blocked (cfg.for request i)
      (t.seen i) => by
    rcases (hrests.blocked hblocked).1 with hpc | hpc <;> simp [hpc, ClientPc.opening] at hopen
  obtain ⟨⟨c, p⟩, hstep⟩ := Option.ne_none_iff_exists'.mp hio
  have hclient := Client.step_cases hstep
  obtain ⟨rfl, hnext⟩ := hrests.step hclient hr ho hne fun _ => hgone
  refine ⟨.client i io, { t with client := Function.update t.client i c }, ?_, ?_⟩
  · simp only [clients, hstep, Option.map_some, moveClient_seen hne]
  · rcases hnext with ⟨hrests', hdel⟩ | ⟨q', hq, -, hdel⟩
    · right
      have hmade' := hclient.made ho hmade
      refine ⟨⟨hbetween, ?_, ?_, ?_⟩, ?_⟩
      · simpa only [Function.update_self] using hrests'
      · simpa only [Function.update_self] using hdel.trans hd
      · simpa only [Function.update_self] using hmade'
      · have ho' : (cfg.for request i).oneway = false := ho
        have hack : (t.client i).pc ≠ .readAck := by
          intro hpc
          have hdone := hrests.1
          simp only [Client.Done, hpc] at hdone
        have hout : c.outstanding = (t.client i).outstanding := by
          rw [Client.outstanding_of_done hrests', Client.outstanding_of_done hrests]
        have hlt := hclient.stage_lt ho' hack hmade hdel hout
        have hle := c.pc.stage_le
        simp only [Function.update_self]
        omega
    · obtain rfl := Option.some.inj hq
      refine .inl ⟨hbetween, ?_⟩
      simpa only [Function.update_self, hd] using hdel

/-! ## Every client can be served -/

/-- Between two calls every client rests. -/
theorem Between.rests (hr : cfg.reuse = false) (ho : cfg.oneway = false)
    (hshort : cfg.shortReads = false) (hreach : Reachable (clients cfg request) s)
    (h : Between s.server s.pipe) (i : ι) :
    (∃ owed, (s.client i).Rests owed) ∧
      (s.client i).made = (s.client i).delivered.length + (s.client i).outstanding := by
  obtain ⟨t, -, hserves⟩ := serves_of_reachable hr ho hshort hreach
  refine ⟨?_, hserves.made i⟩
  cases hserves.phase with
  | between _ hrest => exact ⟨_, hrest i⟩
  | asking j _ _ hasking => exact absurd hasking.connected h.gone
  | answering j q _ _ hanswering => exact absurd hanswering.connected h.gone

/-- Between two calls any client can make the next one and be handed the reply. -/
theorem Between.possible_served (hr : cfg.reuse = false) (ho : cfg.oneway = false)
    (hshort : cfg.shortReads = false) (hin : 0 < cfg.inbuf) (hout : 0 < cfg.outbuf)
    (hreach : Reachable (clients cfg request) s) (h : Between s.server s.pipe) (i : ι) :
    Possible (clients cfg request)
      (fun t => Between t.server t.pipe ∧
        (t.client i).delivered.length = (s.client i).delivered.length + 1) s := by
  obtain ⟨⟨owed, hrests⟩, hmade⟩ := h.rests hr ho hshort hreach i
  cases owed with
  | some q =>
      refine (h.possible_handed hr ho hrests rfl hmade).bind hreach ?_
      rintro t - ⟨hbetween, hdel⟩
      exact .now ⟨hbetween, by simp [hdel]⟩
  | none =>
      have hopen : (s.client i).pc.opening = true := hrests
      refine (h.possible_listening hr ho).bind hreach ?_
      rintro t ht ⟨hlistening, hclient⟩
      rw [← hclient] at hopen hmade
      refine (hlistening.possible_opened hr ho hopen rfl hmade).bind ht ?_
      rintro u hu ⟨hcall, hconnect, m, hasking⟩
      refine (hasking.possible ho hshort hin hout hcall hconnect).bind hu ?_
      rintro v hv ⟨hcall, q, hanswering⟩
      refine (hanswering.possible hr ho hshort hin hout hcall).bind hv ?_
      rintro w hw ⟨hbetween, hrests, hdel⟩
      obtain ⟨-, hmade'⟩ := hbetween.rests hr ho hshort hw i
      refine (hbetween.possible_handed hr ho hrests hdel hmade').bind hw ?_
      rintro x - ⟨hbetween, hdel⟩
      exact .now ⟨hbetween, by simp [hdel, hclient]⟩

/-- Unless the server spins, the call in progress can be brought to its end. -/
theorem possible_between (hr : cfg.reuse = false) (ho : cfg.oneway = false)
    (hshort : cfg.shortReads = false) (hin : 0 < cfg.inbuf) (hout : 0 < cfg.outbuf)
    (hreach : Reachable (clients cfg request) s) (hspins : ¬ s.Spins) :
    Possible (clients cfg request) (fun t => Between t.server t.pipe) s := by
  obtain ⟨t, -, hserves⟩ := serves_of_reachable hr ho hshort hreach
  have hanswered : ∀ {u : Clients ι} {i q d}, Reachable (clients cfg request) u →
      Answering q (u.pair i) → Calling i d u →
      Possible (clients cfg request) (fun t => Between t.server t.pipe) u := by
    intro u i q d hu hanswering hcall
    refine (hanswering.possible hr ho hshort hin hout hcall).bind hu ?_
    rintro v - ⟨hbetween, -⟩
    exact .now hbetween
  cases hserves.phase with
  | between hbetween => exact .now hbetween
  | asking i howner _ hasking =>
      have hconnect : s.server.pc ≠ .connect := fun hpc => hspins ⟨hpc, hasking.connected⟩
      have hcall : Calling i _ s := ⟨howner, rfl, hserves.made i⟩
      refine (hasking.possible ho hshort hin hout hcall hconnect).bind hreach ?_
      rintro u hu ⟨hcall, q, hanswering⟩
      exact hanswered hu hanswering hcall
  | answering i q howner _ hanswering =>
      exact hanswered hreach hanswering ⟨howner, rfl, hserves.made i⟩

theorem possible_of_not_spins (hr : cfg.reuse = false) (ho : cfg.oneway = false)
    (hshort : cfg.shortReads = false) (hin : 0 < cfg.inbuf) (hout : 0 < cfg.outbuf)
    (hreach : Reachable (clients cfg request) s) (hspins : ¬ s.Spins) (i : ι) (n : Nat) :
    Possible (clients cfg request) (fun t => n ≤ (t.client i).delivered.length) s := by
  refine (possible_between hr ho hshort hin hout hreach hspins).bind hreach ?_
  intro t ht hbetween
  -- one call after the other
  suffices hmore : Possible (clients cfg request)
      (fun u => Between u.server u.pipe ∧ n ≤ (u.client i).delivered.length) t by
    exact hmore.bind ht fun u _ hu => .now hu.2
  induction n with
  | zero => exact .now ⟨hbetween, Nat.zero_le _⟩
  | succ n ih =>
      refine ih.bind ht ?_
      rintro u hu ⟨hbetween, hn⟩
      -- one more, from wherever the last one has ended
      refine (hbetween.possible_served hr ho hshort hin hout hu i).bind hu ?_
      rintro v - ⟨hbetween, hlen⟩
      exact .now ⟨hbetween, by omega⟩

/-- From every state of any number of clients, a given one can be served any number of
    times exactly if the server does not spin. -/
theorem served_possible_iff (hr : cfg.reuse = false) (ho : cfg.oneway = false)
    (hshort : cfg.shortReads = false) (hin : 0 < cfg.inbuf) (hout : 0 < cfg.outbuf)
    (hreach : Reachable (clients cfg request) s) (i : ι) :
    (∀ n, Possible (clients cfg request) (fun t => n ≤ (t.client i).delivered.length) s) ↔
      ¬ s.Spins := by
  constructor
  · intro hserved hspins
    -- the server takes no more requests, and there are no more replies than requests
    obtain ⟨t, ⟨ht, -, hserver⟩, hlen⟩ :=
      (hserved (s.server.received.length + 1)).invariant
        (I := fun t => Reachable (clients cfg request) t ∧ t.Spins ∧ t.server = s.server)
        (fun t a t' ⟨ht, hspin, hserver⟩ hs => by
          obtain ⟨hspin', hserver', -⟩ := hspin.step hr ho hshort ht hs
          exact ⟨ht.step hs, hspin', hserver'.trans hserver⟩)
        ⟨hreach, hspins, rfl⟩
    have hle := delivered_le_received hr ho hshort ht i
    rw [hserver] at hle
    omega
  · intro hspins n
    exact possible_of_not_spins hr ho hshort hin hout hreach hspins i n

end Owner

/-- The server is inside `ConnectNamedPipe` when the first client opens the instance: the
    other one can still be served. -/
theorem patientClient_served_possible_iff :
    ∃ s, Reachable (clients successorConfig oneOrSixteen) s ∧ s.pipe.state = .connected ∧
      ¬ s.Spins ∧
      ((∀ n, Possible (clients successorConfig oneOrSixteen)
        (fun t => n ≤ (t.client false).delivered.length) s) ↔ ¬ s.Spins) := by
  have hrun : ((clients successorConfig oneOrSixteen).run patientClient).map
      (fun s => (s.server.pc, s.pipe.state)) = some (.connecting, .connected) := by decide
  obtain ⟨s, hs, heq⟩ := Option.map_eq_some_iff.mp hrun
  obtain ⟨hpc, hconn⟩ := Prod.mk.inj heq
  have hspins : ¬ s.Spins := by
    intro hspins
    rw [hspins.1] at hpc
    cases hpc
  exact ⟨s, Exec.of_run hs, hconn, hspins,
    served_possible_iff rfl rfl rfl (by decide) (by decide) (Exec.of_run hs) false⟩

end IpcWin.Pipes
