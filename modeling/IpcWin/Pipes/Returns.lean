/-
  IpcWin.Pipes.Returns

  When the calls over a reused connection return.

  Every step but an empty turn of the accept loop moves a byte or brings one of the
  two programs further in its round, and the bytes of a round are those of one
  request and one reply.  So a client that is not done with a call can only keep
  the two programs busy for so long (`pace_lt`, `Rounds.pace_le`), and since one of
  them has a step, its call returns.

  All this needs the server to have left the loop.  A server that has not called
  `ConnectNamedPipe` yet may find the client connected when it does, and then
  nothing is ever read (`answered_inevitable_iff`).
-/

import IpcWin.Pipes.Progress

namespace IpcWin.Pipes

open IpcWin.Lib IpcWin.Wire

/-! ## How far the two programs are -/

/-- The steps since the client last built a request that move no byte, at most. -/
def ClientPc.stage : ClientPc → Nat
  | .write => 0
  | .readSize => 1
  | .readData => 2
  | .readAck => 2
  | .close => 3
  | .deliver => 4
  | .start => 5
  | .waitPipe => 6
  | .createFile => 7
  | .build => 8

/-- The steps since the server last built a reply that move no byte, at most. -/
def ServerPc.stage : ServerPc → Nat
  | .write => 0
  | .flush => 1
  | .connecting => 1
  | .readSize => 2
  | .readData => 3
  | .build => 4
  | .disconnect => 2
  | .close => 3
  | .create | .connect => 0

/-- The bytes that have gone into the two queues and out of them. -/
def Pipe.traffic (p : Pipe) : Nat :=
  p.toServer.written.length + p.toServer.taken.length +
    (p.toClient.written.length + p.toClient.taken.length)

/-- The steps that a conversation has taken, at most. -/
def State.pace (s : State) : Nat :=
  s.pipe.traffic + (9 * s.client.made + s.client.pc.stage) +
    (5 * s.server.received.length + s.server.pc.stage)

theorem length_written_put (ch : Channel Byte) (pending : List Byte) {j : Nat}
    (hj : j ≤ pending.length) :
    (ch.put (pending.take j)).written.length = ch.written.length + j := by
  rw [Channel.put_written, List.length_append, List.length_take, Nat.min_eq_left hj]

theorem length_taken_take (ch : Channel Byte) {j : Nat} (hj : j ≤ ch.queue.length) :
    (ch.take j).taken.length = ch.taken.length + j := by
  rw [Channel.take_taken, List.length_append, List.length_take, Nat.min_eq_left hj]

/-- Every step of a client in request/response mode takes it further. -/
theorem Client.Step.pace_lt {cfg : Config} {c c' : Client} {p p' : Pipe} {io : Io}
    (ho : cfg.oneway = false) (hack : c.pc ≠ .readAck)
    (h : Client.Step cfg c p io c' p') :
    p.traffic + (9 * c.made + c.pc.stage) < p'.traffic + (9 * c'.made + c'.pc.stage) := by
  cases h with
  | enter hpc =>
      unfold Client.enter
      cases c.hPipe && cfg.reuse <;> simp [hpc, ClientPc.stage]
  | request hpc =>
      simp only [Client.request, hpc, ClientPc.stage]
      omega
  | putRequest hpc j hw =>
      obtain ⟨hpos, hj, -, rfl, rfl⟩ := writePiece_eq_some.mp hw
      have hlen := length_written_put p.toServer c.pending hj
      simp only [Pipe.traffic, hlen, Channel.put_taken]
      omega
  | sent hpc =>
      simp [Client.sent, ho, hpc, ClientPc.stage]
  | takeSize hpc j hread | takeData hpc j _ hread =>
      obtain ⟨hpos, hj, -, rfl, rfl⟩ := readPiece_eq_some.mp hread
      have hlen := length_taken_take p.toClient hj
      simp only [Pipe.traffic, hlen, Channel.take_written]
      omega
  | takeAck hpc | acked hpc => exact absurd hpc hack
  | close hpc =>
      unfold Client.closeHandle
      split_ifs <;> simp [Pipe.traffic, hpc, ClientPc.stage]
  | deliver hpc =>
      simp [Client.deliver_of_not_oneway ho, hpc, ClientPc.stage]
  | waited hpc | createFile hpc | sized hpc | readNull hpc | dataRead hpc =>
      simp [Client.sized, Pipe.traffic, hpc, ClientPc.stage]

/-- Every step of a server that has left its start takes it further, until it disconnects. -/
theorem Server.Step.pace_lt {cfg : Config} {s s' : Server} {p p' : Pipe} {io : Io}
    (ho : cfg.oneway = false)
    (hstart : s.pc ≠ .create ∧ s.pc ≠ .connect) (hkept : s.pc ≠ .disconnect ∧ s.pc ≠ .close)
    (hconn : s.pc ≠ .connecting → p.state = .connected)
    (h : Server.Step cfg s p io s' p') :
    p.traffic + (5 * s.received.length + s.pc.stage) <
      p'.traffic + (5 * s'.received.length + s'.pc.stage) := by
  cases h with
  | create hpc => exact absurd hpc hstart.1
  | block hpc | spin hpc => exact absurd hpc hstart.2
  | disconnect hpc => exact absurd hpc hkept.1
  | close hpc => exact absurd hpc hkept.2
  | clientClosed hpc _ hgone =>
      simp [Pipe.gone, hconn (by simp [hpc])] at hgone
  | confirmed _ hone => simp [ho] at hone
  | takeSize hpc j hread | takeData hpc j _ hread =>
      obtain ⟨hpos, hj, -, rfl, rfl⟩ := readPiece_eq_some.mp hread
      have hlen := length_taken_take p.toServer hj
      simp only [Pipe.traffic, hlen, Channel.take_written]
      omega
  | putReply hpc j hw =>
      obtain ⟨hpos, hj, -, rfl, rfl⟩ := writePiece_eq_some.mp hw
      have hlen := length_written_put p.toClient s.pending hj
      simp only [Pipe.traffic, hlen, Channel.put_taken]
      omega
  | reply hpc =>
      simp only [Server.reply_of_not_oneway ho, hpc, ServerPc.stage, List.length_append,
        List.length_singleton]
      omega
  | flushed hpc =>
      unfold Server.finish
      split_ifs <;> simp [Server.enter, hpc, ServerPc.stage]
  | accept hpc | sized hpc | readNull hpc | dataRead hpc | written hpc =>
      simp [Server.enter, Server.sized, hpc, ServerPc.stage]

theorem ClientPc.stage_le (pc : ClientPc) : pc.stage ≤ 8 := by cases pc <;> decide

theorem ServerPc.stage_le (pc : ServerPc) : pc.stage ≤ 4 := by cases pc <;> decide

/-- What a conversation can take up to the end of the `n`-th call. -/
def Config.paceOf (cfg : Config) (n : Nat) : Nat :=
  2 * (frames cfg.request n).length + 2 * (frames cfg.reply n).length + 14 * n + 12

theorem Rounds.pace_le {cfg : Config} {s : State} {n : Nat} (h : Rounds cfg s)
    (hn : s.client.delivered.length < n) : s.pace ≤ cfg.paceOf n := by
  have hmade : s.client.made ≤ n := by
    have hout : s.client.outstanding ≤ 1 := by
      unfold Client.outstanding
      split <;> omega
    have hcount := h.client.made
    omega
  have hreceived := h.received_le
  have hasked : s.pipe.toServer.written.length ≤ (frames cfg.request n).length :=
    h.requests_prefix.length_le.trans (stream_length_le _ hmade)
  have htold : s.pipe.toClient.written.length ≤ (frames cfg.reply n).length :=
    h.replies_prefix.length_le.trans (stream_length_le _ (hreceived.trans hmade))
  have hheard := (Channel.taken_prefix_written s.pipe.toServer).length_le
  have hgot := (Channel.taken_prefix_written s.pipe.toClient).length_le
  have hc := s.client.pc.stage_le
  have hs := s.server.pc.stage_le
  unfold State.pace Pipe.traffic Config.paceOf
  omega

/-! ## One of them has a step -/

/-- With a client connected the client has its handle and is past opening it, and a
    server in its accept loop has received nothing. -/
structure Opened (s : State) : Prop where
  handle : s.pipe.state = .connected →
    s.client.hPipe = true ∧ s.client.pc ≠ .waitPipe ∧ s.client.pc ≠ .createFile
  fresh : s.server.pc = .create ∨ s.server.pc = .connect ∨ s.server.pc = .connecting →
    s.server.received = []

theorem Opened.init (cfg : Config) : Opened (conversation cfg).init :=
  ⟨fun hp => (by cases hp), fun _ => rfl⟩

theorem Opened.step {cfg : Config} {s s' : State} {a : Action} (hr : cfg.reuse = true)
    (hc : Connected s) (h : Opened s) (hs : (conversation cfg).step a s = some s') :
    Opened s' := by
  obtain ⟨hhandle, hfresh⟩ := h
  rcases conversation_step hs with ⟨io, srv, p, -, hstep, rfl⟩ | ⟨io, c, p, -, hstep, rfl⟩
  · cases hstep with
    | create hpc => exact ⟨fun hp => (by cases hp), fun _ => hfresh (.inl hpc)⟩
    | block hpc => exact ⟨hhandle, fun _ => hfresh (.inr (.inl hpc))⟩
    | spin => exact ⟨hhandle, hfresh⟩
    | disconnect hpc => exact absurd hpc hc.kept.1
    | close hpc => exact absurd hpc hc.kept.2
    | takeSize hpc | takeData hpc | putReply hpc =>
        exact ⟨hhandle, by simp [hpc]⟩
    | confirmed | flushed =>
        rw [Server.finish_of_reuse hr]
        exact ⟨hhandle, by simp⟩
    | accept | clientClosed | sized | readNull | dataRead | reply | written =>
        exact ⟨hhandle, by simp⟩
  · cases hstep with
    | enter hpc =>
        refine ⟨?_, hfresh⟩
        intro hp
        obtain ⟨hh, -, -⟩ := hhandle hp
        simp [Client.enter, hh, hr]
    | waited _ hl => exact ⟨fun hp => (by rw [hl] at hp; cases hp), hfresh⟩
    | createFile => exact ⟨fun _ => ⟨rfl, by simp, by simp⟩, hfresh⟩
    | request => exact ⟨fun hp => ⟨(hhandle hp).1, by simp [Client.request]⟩, hfresh⟩
    | putRequest hpc | takeSize hpc | takeData hpc | takeAck hpc =>
        exact ⟨fun hp => ⟨(hhandle hp).1, by simp [hpc]⟩, hfresh⟩
    | sent =>
        refine ⟨fun hp => ⟨(hhandle hp).1, ?_⟩, hfresh⟩
        unfold Client.sent
        cases cfg.oneway <;> simp
    | close =>
        rw [Client.closeHandle_of_reuse hr]
        exact ⟨fun hp => ⟨(hhandle hp).1, by simp⟩, hfresh⟩
    | deliver =>
        refine ⟨fun hp => ?_, hfresh⟩
        unfold Client.deliver
        split_ifs <;> exact ⟨(hhandle hp).1, by simp⟩
    | sized | readNull | dataRead | acked =>
        exact ⟨fun hp => ⟨(hhandle hp).1, by simp [Client.sized]⟩, hfresh⟩

/-- The server has called `ConnectNamedPipe`. -/
def Accepted (s : State) : Prop := s.server.pc ≠ .create ∧ s.server.pc ≠ .connect

theorem Accepted.step {cfg : Config} {s s' : State} {a : Action} (hr : cfg.reuse = true)
    (hc : Connected s) (h : Accepted s) (hs : (conversation cfg).step a s = some s') :
    Accepted s' := by
  rcases conversation_step hs with ⟨io, srv, p, -, hstep, rfl⟩ | ⟨io, c, p, -, -, rfl⟩
  · cases hstep with
    | create hpc => exact absurd hpc h.1
    | block hpc | spin hpc => exact absurd hpc h.2
    | disconnect hpc => exact absurd hpc hc.kept.1
    | close hpc => exact absurd hpc hc.kept.2
    | takeSize hpc | takeData hpc | putReply hpc => exact h
    | confirmed | flushed =>
        rw [Server.finish_of_reuse hr]
        simp [Accepted]
    | accept | clientClosed | sized | readNull | dataRead | reply | written => simp [Accepted]
  · exact h

/-- A program that is not blocked has a step. -/
theorem exists_step_of_not_both_blocked {cfg : Config} {s : State}
    (h : ¬ (s.server.Blocked cfg s.pipe ∧ s.client.Blocked cfg s.pipe)) :
    ∃ a s', (conversation cfg).step a s = some s' := by
  rcases not_and_or.mp h with h | h
  · obtain ⟨io, hio⟩ := not_forall.mp h
    obtain ⟨q, hq⟩ := Option.ne_none_iff_exists'.mp hio
    refine ⟨.server io, { s with server := q.1, pipe := q.2 }, ?_⟩
    simp only [conversation, hq, Option.map_some]
  · obtain ⟨io, hio⟩ := not_forall.mp h
    obtain ⟨q, hq⟩ := Option.ne_none_iff_exists'.mp hio
    refine ⟨.client io, { s with client := q.1, pipe := q.2 }, ?_⟩
    simp only [conversation, hq, Option.map_some]

/-- A client that is not in a call opens the pipe, or goes on with its handle. -/
theorem Opened.opens (cfg : Config) {s : State} (h : Opened s)
    (hp : s.pipe.state = .listening ∨ s.pipe.state = .connected) (hcall : ¬ s.client.pc.inCall) :
    ∃ s', (conversation cfg).step (.client .run) s = some s' := by
  have hlisten : s.client.pc ≠ .start → s.pipe.state = .listening := by
    intro hstart
    refine hp.resolve_right fun hconn => ?_
    obtain ⟨-, hwait, hcreate⟩ := h.handle hconn
    cases hpc : s.client.pc <;> simp_all [ClientPc.inCall]
  cases hpc : s.client.pc with
  | start =>
      refine ⟨{ s with client := s.client.enter cfg }, ?_⟩
      simp [conversation, Client.step, hpc]
  | waitPipe =>
      refine ⟨{ s with client := { s.client with pc := .createFile } }, ?_⟩
      simp [conversation, Client.step, hpc, hlisten (by simp [hpc])]
  | createFile =>
      refine ⟨{ s with
        client := { s.client with pc := .build, hPipe := true }
        pipe := { s.pipe with state := .connected } }, ?_⟩
      simp [conversation, Client.step, hpc, hlisten (by simp [hpc])]
  | _ => exact absurd (by rw [hpc]; trivial) hcall

theorem Accepted.not_stuck {cfg : Config} {s : State} (hin : 0 < cfg.inbuf)
    (hout : 0 < cfg.outbuf) (hr : Rounds cfg s) (ho : Opened s) (h : Accepted s) :
    ∃ a s', (conversation cfg).step a s = some s' := by
  by_cases hcall : s.client.pc.inCall
  · exact exists_step_of_not_both_blocked (hr.unblocked hin hout hcall)
  · obtain ⟨s', hs'⟩ := ho.opens cfg (hr.connected.created h.1) hcall
    exact ⟨_, s', hs'⟩

/-! ## Every call returns, or none -/

/-- What holds in every state without short reads. -/
structure Standing (cfg : Config) (s : State) : Prop where
  rounds : Rounds cfg s
  opened : Opened s

namespace Standing

variable {cfg : Config} {s s' : State} {a : Action}

theorem step (hr : cfg.reuse = true) (ho : cfg.oneway = false) (hshort : cfg.shortReads = false)
    (h : Standing cfg s) (hs : (conversation cfg).step a s = some s') : Standing cfg s' := by
  have hfull := fullReads_of_kept hshort h.rounds.connected.toKept hs
  exact ⟨h.rounds.step hr ho hfull hs, h.opened.step hr h.rounds.connected hs⟩

theorem of_reachable (hr : cfg.reuse = true) (ho : cfg.oneway = false)
    (hshort : cfg.shortReads = false) (h : Reachable (conversation cfg) s) : Standing cfg s :=
  h.invariant ⟨Rounds.init cfg, Opened.init cfg⟩ fun _ _ _ hI hs => hI.step hr ho hshort hs

/-- Over a pipe that is kept no call returns short if the system returns none short. -/
theorem meets_fullReads (hr : cfg.reuse = true) (ho : cfg.oneway = false)
    (hshort : cfg.shortReads = false) {tr : List (State × Action)}
    (h : Exec (conversation cfg) tr s) : Meets FullReads tr := by
  induction h with
  | init => simp
  | step hexec hs ih =>
      have hstand := of_reachable hr ho hshort ⟨_, hexec⟩
      exact meets_snoc.mpr ⟨ih, fullReads_of_kept hshort hstand.rounds.connected.toKept hs⟩

/-- Before the server has left its accept loop, no reply has been delivered. -/
theorem not_delivered (h : Standing cfg s)
    (hpc : s.server.pc = .create ∨ s.server.pc = .connect) : ¬ 1 ≤ s.client.delivered.length := by
  have hle := h.rounds.delivered_le
  rw [h.opened.fresh (hpc.imp_right .inl)] at hle
  simp only [List.length_nil] at hle
  omega

theorem pace_lt (ho : cfg.oneway = false) (h : Standing cfg s)
    (hacc : Accepted s) (hs : (conversation cfg).step a s = some s') : s.pace < s'.pace := by
  have hconn := h.rounds.connected
  rcases conversation_step hs with ⟨io, srv, p, -, hstep, rfl⟩ | ⟨io, c, p, -, hstep, rfl⟩
  · have hlt := hstep.pace_lt ho hacc hconn.kept
      fun hpc => hconn.serving hacc.1 hacc.2 hpc
    show s.pipe.traffic + (9 * s.client.made + s.client.pc.stage) +
        (5 * s.server.received.length + s.server.pc.stage) <
      p.traffic + (9 * s.client.made + s.client.pc.stage) +
        (5 * srv.received.length + srv.pc.stage)
    omega
  · have hlt := hstep.pace_lt ho hconn.answered
    exact Nat.add_lt_add_right hlt _

/-- A server that has called `ConnectNamedPipe` answers every call. -/
theorem inevitable (hr : cfg.reuse = true) (ho : cfg.oneway = false)
    (hshort : cfg.shortReads = false) (hin : 0 < cfg.inbuf) (hout : 0 < cfg.outbuf)
    (h : Standing cfg s) (hacc : Accepted s) (n : Nat) :
    Inevitable (conversation cfg) (fun t => n ≤ t.client.delivered.length) s := by
  have hboth : Standing cfg s ∧ Accepted s := ⟨h, hacc⟩
  apply Inevitable.of_wellFounded (measure fun m : Nat => m).wf
    (fun t : State => cfg.paceOf n + 1 - t.pace)
    (fun t hI => .inr (hI.2.not_stuck hin hout hI.1.rounds hI.1.opened))
    (I := fun t => Standing cfg t ∧ Accepted t) ?_ hboth
  rintro t b t' ⟨hI, hI'⟩ hnot hs
  -- each step takes the two further, and there is an end to `n` calls
  refine ⟨⟨hI.step hr ho hshort hs, hI'.step hr hI.rounds.connected hs⟩, ?_⟩
  have hlt := hI.pace_lt ho hI' hs
  have hle := hI.rounds.pace_le (Nat.lt_of_not_le hnot)
  show cfg.paceOf n + 1 - t'.pace < cfg.paceOf n + 1 - t.pace
  omega

/-- The server is about to call `ConnectNamedPipe` with a client connected. -/
def Trapped (cfg : Config) (s : State) : Prop :=
  Standing cfg s ∧ s.server.pc = .connect ∧ s.pipe.state = .connected

theorem trapped_step (hr : cfg.reuse = true) (ho : cfg.oneway = false)
    (hshort : cfg.shortReads = false) (h : Trapped cfg s)
    (hs : (conversation cfg).step a s = some s') : Trapped cfg s' := by
  obtain ⟨hstand, hpc, hconn⟩ := h
  have hstand' := hstand.step hr ho hshort hs
  rcases conversation_step hs with ⟨io, srv, p, -, hstep, rfl⟩ | ⟨io, c, p, -, hstep, rfl⟩
  · cases hstep with
    | spin => exact ⟨hstand', hpc, hconn⟩
    | block _ hl => rw [hconn] at hl; cases hl
    | create h | accept h | takeSize h | clientClosed h | sized h | takeData h | readNull h
    | dataRead h | reply h | putReply h | confirmed h | written h | flushed h | disconnect h
    | close h =>
        rw [hpc] at h
        cases h
  · refine ⟨hstand', hpc, ?_⟩
    cases hstep with
    | createFile => rfl
    | close =>
        rw [Client.closeHandle_of_reuse hr]
        exact hconn
    | _ => exact hconn

theorem trapped_not_inevitable (hr : cfg.reuse = true) (ho : cfg.oneway = false)
    (hshort : cfg.shortReads = false) (h : Trapped cfg s) :
    ¬ Inevitable (conversation cfg) (fun t => 1 ≤ t.client.delivered.length) s :=
  not_inevitable (fun _ ht => ht.1.not_delivered (.inr ht.2.1))
    (fun _ _ _ => trapped_step hr ho hshort) h

/-- A client may open the pipe before the server calls `ConnectNamedPipe`. -/
theorem connect_not_inevitable (hr : cfg.reuse = true) (ho : cfg.oneway = false)
    (hshort : cfg.shortReads = false) (h : Standing cfg s) (hpc : s.server.pc = .connect) :
    ¬ Inevitable (conversation cfg) (fun t => 1 ≤ t.client.delivered.length) s := by
  have hnot := h.not_delivered (.inr hpc)
  rcases h.rounds.connected.created (by simp [hpc]) with hlisten | hconn
  · -- the client goes on to `CreateFile`, from where it is in front of it
    have hcreate : ∀ t, Standing cfg t → t.server.pc = .connect → t.client.pc = .createFile →
        t.pipe.state = .listening →
        ¬ Inevitable (conversation cfg) (fun t => 1 ≤ t.client.delivered.length) t := by
      intro t ht htpc hcpc hl hev
      have hstep : (conversation cfg).step (.client .run) t = some
          { t with
            client := { t.client with pc := .build, hPipe := true }
            pipe := { t.pipe with state := .connected } } := by
        simp [conversation, Client.step, hcpc, hl]
      exact trapped_not_inevitable hr ho hshort ⟨ht.step hr ho hshort hstep, htpc, rfl⟩
        (hev.step (ht.not_delivered (.inr htpc)) hstep)
    have hwait : ∀ t, Standing cfg t → t.server.pc = .connect → t.client.pc = .waitPipe →
        t.pipe.state = .listening →
        ¬ Inevitable (conversation cfg) (fun t => 1 ≤ t.client.delivered.length) t := by
      intro t ht htpc hcpc hl hev
      have hstep : (conversation cfg).step (.client .run) t = some
          { t with client := { t.client with pc := .createFile } } := by
        simp [conversation, Client.step, hcpc, hl]
      exact hcreate _ (ht.step hr ho hshort hstep) htpc rfl hl
        (hev.step (ht.not_delivered (.inr htpc)) hstep)
    cases hcpc : s.client.pc with
    | createFile => exact hcreate s h hpc hcpc hlisten
    | waitPipe => exact hwait s h hpc hcpc hlisten
    | start =>
        intro hev
        have hhandle : s.client.hPipe = false := by
          cases hh : s.client.hPipe with
          | false => rfl
          | true =>
              rw [h.rounds.connected.handle hh] at hlisten
              cases hlisten
        have hstep : (conversation cfg).step (.client .run) s = some
            { s with client := s.client.enter cfg } := by
          simp [conversation, Client.step, hcpc]
        exact hwait _ (h.step hr ho hshort hstep) hpc (by simp [Client.enter, hhandle]) hlisten
          (hev.step hnot hstep)
    | _ =>
        -- every other place is behind the opening
        have hconn := h.rounds.connected.toKept.connected_of_inCall (by rw [hcpc]; trivial)
        rw [hlisten] at hconn
        cases hconn
  · exact trapped_not_inevitable hr ho hshort ⟨h, hpc, hconn⟩

end Standing

/-- Over one reused connection, whatever has happened so far, every call is bound to
    return exactly if the server has called `ConnectNamedPipe` and not found a client
    there already. -/
theorem answered_inevitable_iff {cfg : Config} {s : State} (hr : cfg.reuse = true)
    (ho : cfg.oneway = false) (hshort : cfg.shortReads = false) (hin : 0 < cfg.inbuf)
    (hout : 0 < cfg.outbuf) (h : Reachable (conversation cfg) s) :
    (∀ n, Inevitable (conversation cfg) (fun t => n ≤ t.client.delivered.length) s) ↔
      s.server.pc ≠ .create ∧ s.server.pc ≠ .connect := by
  have hstand := Standing.of_reachable hr ho hshort h
  constructor
  · intro hev
    refine ⟨?_, ?_⟩
    · intro hpc
      -- the server makes the instance, and a client may be first again
      have hstep : (conversation cfg).step (.server .run) s = some
          { s with server := { s.server with pc := .connect }, pipe := Pipe.create } := by
        simp [conversation, Server.step, hpc]
      exact (hstand.step hr ho hshort hstep).connect_not_inevitable hr ho hshort rfl
        ((hev 1).step (hstand.not_delivered (.inl hpc)) hstep)
    · intro hpc
      exact hstand.connect_not_inevitable hr ho hshort hpc (hev 1)
  · intro hacc n
    exact hstand.inevitable hr ho hshort hin hout hacc n

/-- The server is inside `ConnectNamedPipe`, and no client has opened the pipe yet. -/
theorem waitingServer_answered_inevitable_iff :
    ∃ s, Reachable (conversation narrowConfig) s ∧ s.server.pc = .connecting ∧
      ((∀ n, Inevitable (conversation narrowConfig)
          (fun t => n ≤ t.client.delivered.length) s) ↔
        s.server.pc ≠ .create ∧ s.server.pc ≠ .connect) := by
  have hrun : ((conversation narrowConfig).run [.server .run, .server .run]).map
      (fun s => s.server.pc) = some .connecting := by decide
  obtain ⟨s, hs, hpc⟩ := Option.map_eq_some_iff.mp hrun
  have hreach : Reachable (conversation narrowConfig) s := Exec.of_run hs
  exact ⟨s, hreach, hpc, answered_inevitable_iff rfl rfl rfl (by decide) (by decide) hreach⟩

end IpcWin.Pipes
