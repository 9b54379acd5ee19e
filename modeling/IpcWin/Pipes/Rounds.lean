/-
  IpcWin.Pipes.Rounds

  Rounds over one reused connection in request/response mode.

  Each direction of the pipe carries the frames of one sequence of packets: the
  requests one way, the builder's replies to them the other way.  As long as
  every `ReadFile` returns with its buffer full, each end is at every moment
  inside the frame that its count of rounds says (`ServerRounds`,
  `ClientRounds`), whatever pieces the bytes arrive in.  `cbRead` is never looked
  at, so one short read is enough to break this (`shortRead_not_inStep`).
-/

import IpcWin.Pipes.Connection

namespace IpcWin.Pipes

open IpcWin.Lib IpcWin.Wire

/-! ## What a conversation should do -/

/-- The builder's reply to the `k`-th request. -/
def Config.reply (cfg : Config) : Nat → Packet := replyTo cfg.request cfg.builder

/-- The server has been handed the requests in turn and the client the replies to
    them, and both directions are at a frame boundary between rounds: for the
    server when it begins to read a request, for the client when it is done with
    a call. -/
structure InStep (cfg : Config) (s : State) : Prop where
  received : s.server.received =
    (List.range s.server.received.length).map fun k => (cfg.request k).received
  delivered : s.client.delivered =
    (List.range s.client.delivered.length).map fun k => (cfg.reply k).received
  serverBoundary : s.server.pc = .readSize → s.server.got = [] →
    s.pipe.toServer.taken = frames cfg.request s.server.received.length ∧
      s.pipe.toClient.written = frames cfg.reply s.server.received.length
  clientBoundary : s.client.pc = .start →
    s.server.received.length = s.client.delivered.length ∧
      s.pipe.toServer.taken = frames cfg.request s.client.delivered.length ∧
      s.pipe.toServer.queue = [] ∧
      s.pipe.toClient.taken = frames cfg.reply s.client.delivered.length ∧
      s.pipe.toClient.queue = []

/-! ## The connection -/

/-- If the step is the return of a `ReadFile`, the call has filled its buffer. -/
def FullReads (s : State) (a : Action) : Prop :=
  (a = .server .ret → s.server.frameRead.Full) ∧ (a = .client .ret → s.client.frameRead.Full)

instance (s : State) (a : Action) : Decidable (FullReads s a) :=
  inferInstanceAs (Decidable ((_ → _) ∧ (_ → _)))

/-- Over a reused connection that is kept, the client does not take the one-way branch. -/
structure Connected (s : State) : Prop extends Kept s where
  answered : s.client.pc ≠ .readAck

theorem connected_init (cfg : Config) : Connected (conversation cfg).init :=
  ⟨Kept.init cfg, by simp [conversation, Client.start]⟩

theorem connected_server {cfg : Config} {s : State} {io : Io} {srv : Server} {p : Pipe}
    (hr : cfg.reuse = true) (h : Connected s) (hs : Server.Step cfg s.server s.pipe io srv p) :
    Connected { s with server := srv, pipe := p } :=
  ⟨kept_server hr h.toKept hs, h.answered⟩

theorem connected_client {cfg : Config} {s : State} {io : Io} {c : Client} {p : Pipe}
    (hr : cfg.reuse = true) (ho : cfg.oneway = false) (h : Connected s)
    (hs : Client.Step cfg s.client s.pipe io c p) :
    Connected { s with client := c, pipe := p } := by
  refine ⟨kept_client hr h.toKept hs, ?_⟩
  cases hs with
  | takeAck hpc | acked hpc => exact absurd hpc h.answered
  | enter =>
      unfold Client.enter
      cases s.client.hPipe && cfg.reuse <;> simp
  | putRequest hpc | takeSize hpc | takeData hpc => simp [hpc]
  | sent => simp [Client.sent, ho]
  | deliver => simp [Client.deliver, ho]
  | waited | createFile | request | sized | readNull | dataRead | close =>
      simp [Client.request, Client.sized]

/-! ## The two programs, round by round -/

/-- The server is inside the frame that its count of rounds says, in both
    directions. -/
structure ServerRounds (cfg : Config) (srv : Server) (p : Pipe) : Prop where
  reading : InFrame cfg.request p.toServer.taken srv.received.length srv.frameRead
  writing : p.toClient.written ++ srv.pending = frames cfg.reply srv.received.length
  idle : srv.pc ≠ .write → srv.pending = []
  received : srv.received = (List.range srv.received.length).map fun k => (cfg.request k).received

/-- How many requests of the client have been built and not answered yet. -/
def Client.outstanding (c : Client) : Nat :=
  match c.pc with
  | .start | .waitPipe | .createFile | .build => 0
  | _ => 1

/-- The client is inside the frames that its counts of requests made and of
    replies delivered say; the two counts differ by the call in progress. -/
structure ClientRounds (cfg : Config) (c : Client) (p : Pipe) : Prop where
  reading : InFrame cfg.reply p.toClient.taken c.delivered.length c.frameRead
  writing : p.toServer.written ++ c.pending = frames cfg.request c.made
  idle : c.pc ≠ .write → c.pending = []
  made : c.made = c.delivered.length + c.outstanding
  delivered : c.delivered = (List.range c.delivered.length).map fun k => (cfg.reply k).received

theorem serverRounds_step {cfg : Config} {s : State} {io : Io} {srv : Server} {p : Pipe} {n : Nat}
    (hr : cfg.reuse = true) (ho : cfg.oneway = false) (hc : Connected s)
    (hpre : s.pipe.toServer.taken <+: frames cfg.request n)
    (hfull : io = .ret → s.server.frameRead.Full)
    (h : ServerRounds cfg s.server s.pipe) (hs : Server.Step cfg s.server s.pipe io srv p) :
    ServerRounds cfg srv p := by
  obtain ⟨hread, hwrite, hidle, hrec⟩ := h
  have hread' := server_reading hr hc.toKept hpre hfull hread hs
  cases hs with
  | create hpc =>
      rw [if_neg (by simp [hpc])] at hread'
      rw [hc.create hpc] at hwrite
      exact ⟨hread', hwrite, fun _ => hidle (by simp [hpc]), hrec⟩
  | spin => exact ⟨hread, hwrite, hidle, hrec⟩
  | reply hpc =>
      simp only [Server.frameRead, hpc] at hread
      obtain ⟨hreq, htaken⟩ := hread.done
      -- a whole frame has been taken, and one reply more is owed
      have hnil := hidle (by simp [hpc])
      have hrec' := snoc_eq_map_range hrec hreq
      have hlen : (s.server.received ++ [(s.server.rSize, s.server.request)]).length =
          s.server.received.length + 1 := by simp
      rw [Server.reply_of_not_oneway ho]
      refine ⟨?_, ?_, fun hw => absurd rfl hw, hrec'⟩
      · show InFrame cfg.request _ (s.server.received ++ _).length .idle
        rw [InFrame.idle_iff, hlen, htaken]
      · rw [hnil, List.append_nil] at hwrite
        show s.pipe.toClient.written ++ frame (cfg.builder (s.server.received ++ _)) =
          frames cfg.reply (s.server.received ++ _).length
        rw [hlen, hwrite, hrec', hlen]
        rfl
  | putReply hpc j hpiece =>
      rw [if_neg (by simp [hpc])] at hread'
      obtain ⟨-, -, -, rfl, rfl⟩ := writePiece_eq_some.mp hpiece
      refine ⟨hread', ?_, fun hw => absurd hpc hw, hrec⟩
      rw [Channel.put_written, List.append_assoc, List.take_append_drop]
      exact hwrite
  | confirmed _ hone => simp [ho] at hone
  | written hpc _ hw =>
      have hconn := hc.serving (by simp [hpc]) (by simp [hpc]) (by simp [hpc])
      rw [if_neg (by simp [hpc])] at hread'
      rw [pending_eq_nil hconn hw] at hwrite
      exact ⟨hread', hwrite, fun _ => rfl, hrec⟩
  | flushed hpc =>
      rw [if_neg (by simp [hpc]), Server.finish_of_reuse hr] at hread'
      rw [Server.finish_of_reuse hr]
      exact ⟨hread', hwrite, fun _ => hidle (by simp [hpc]), hrec⟩
  | disconnect hpc => exact absurd hpc hc.kept.1
  | close hpc => exact absurd hpc hc.kept.2
  | block hpc | accept hpc | takeSize hpc | clientClosed hpc | sized hpc | takeData hpc
  | readNull hpc | dataRead hpc =>
      -- a call that reads or waits leaves the replies as they are
      rw [if_neg (by simp [hpc])] at hread'
      exact ⟨hread', hwrite, fun _ => hidle (by simp [hpc]), hrec⟩

theorem clientRounds_step {cfg : Config} {s : State} {io : Io} {c : Client} {p : Pipe} {n : Nat}
    (hr : cfg.reuse = true) (ho : cfg.oneway = false) (hc : Connected s)
    (hpre : s.pipe.toClient.taken <+: frames cfg.reply n)
    (hfull : io = .ret → s.client.frameRead.Full)
    (h : ClientRounds cfg s.client s.pipe) (hs : Client.Step cfg s.client s.pipe io c p) :
    ClientRounds cfg c p := by
  obtain ⟨hread, hwrite, hidle, hmade, hdel⟩ := h
  have hread' := client_reading ho hc.answered hpre hfull hread hs
  obtain ⟨hwrite', hidle'⟩ := sending_step hr hc.toKept ⟨hwrite, hidle⟩ hs
  cases hs with
  | enter hpc =>
      simp only [Client.outstanding, hpc] at hmade
      rw [if_neg (by simp [hpc])] at hread'
      unfold Client.enter at hread' hwrite' hidle' ⊢
      cases hh : s.client.hPipe && cfg.reuse with
      | true =>
          rw [hh] at hread' hidle'
          exact ⟨hread', hwrite', hidle', hmade, hdel⟩
      | false =>
          rw [hh] at hread' hidle'
          exact ⟨hread', hwrite', hidle', hmade, hdel⟩
  | request hpc =>
      simp only [Client.outstanding, hpc] at hmade
      rw [if_neg (by simp [hpc])] at hread'
      exact ⟨hread', hwrite', hidle', congrArg (· + 1) hmade, hdel⟩
  | putRequest hpc | takeSize hpc | takeData hpc =>
      rw [if_neg (by simp [hpc])] at hread'
      exact ⟨hread', hwrite', hidle', hmade, hdel⟩
  | sent hpc =>
      simp only [Client.outstanding, hpc] at hmade
      rw [if_neg (by simp [hpc])] at hread'
      simp only [Client.sent, ho] at hread' ⊢
      exact ⟨hread', hwrite', fun _ => rfl, hmade, hdel⟩
  | takeAck hpc | acked hpc => exact absurd hpc hc.answered
  | deliver hpc =>
      simp only [Client.frameRead, Client.outstanding, hpc] at hread hmade
      have hreply := hread.done.1
      have hlen : (s.client.delivered ++ [(s.client.responseSize, s.client.response)]).length =
          s.client.delivered.length + 1 := by simp
      rw [if_pos hpc] at hread'
      rw [Client.deliver_of_not_oneway ho] at hread' hwrite' hidle' ⊢
      exact ⟨hlen.symm ▸ hread', hwrite', hidle', hmade.trans hlen.symm,
        snoc_eq_map_range hdel hreply⟩
  | waited hpc | createFile hpc | sized hpc | readNull hpc | dataRead hpc | close hpc =>
      simp only [Client.outstanding, hpc] at hmade
      rw [if_neg (by simp [hpc])] at hread'
      exact ⟨hread', hwrite', hidle', hmade, hdel⟩

/-! ## Both programs together -/

/-- The invariant of a conversation in which every `ReadFile` fills its buffer. -/
structure Rounds (cfg : Config) (s : State) : Prop where
  connected : Connected s
  server : ServerRounds cfg s.server s.pipe
  client : ClientRounds cfg s.client s.pipe

namespace Rounds

variable {cfg : Config} {s : State}

/-- All bytes on the way to the server are frames of requests made. -/
theorem requests_prefix (h : Rounds cfg s) :
    s.pipe.toServer.written <+: frames cfg.request s.client.made := by
  rw [← h.client.writing]
  exact List.prefix_append _ _

/-- All bytes on the way to the client are frames of replies to requests received. -/
theorem replies_prefix (h : Rounds cfg s) :
    s.pipe.toClient.written <+: frames cfg.reply s.server.received.length := by
  rw [← h.server.writing]
  exact List.prefix_append _ _

/-- The server has received no more than was made. -/
theorem received_le (h : Rounds cfg s) : s.server.received.length ≤ s.client.made :=
  h.server.reading.le_of_prefix ((Channel.taken_prefix_written _).trans h.requests_prefix)

/-- The client has been handed no more than was received. -/
theorem delivered_le (h : Rounds cfg s) :
    s.client.delivered.length ≤ s.server.received.length :=
  h.client.reading.le_of_prefix ((Channel.taken_prefix_written _).trans h.replies_prefix)

theorem init (cfg : Config) : Rounds cfg (conversation cfg).init where
  connected := connected_init cfg
  server := ⟨⟨rfl, trivial⟩, rfl, fun _ => rfl, rfl⟩
  client := ⟨⟨rfl, trivial⟩, rfl, fun _ => rfl, rfl, rfl⟩

theorem step {s' : State} {a : Action} (hr : cfg.reuse = true) (ho : cfg.oneway = false)
    (h : Rounds cfg s) (hfull : FullReads s a) (hs : (conversation cfg).step a s = some s') :
    Rounds cfg s' := by
  rcases conversation_step hs with ⟨io, srv, p, rfl, hstep, rfl⟩ | ⟨io, c, p, rfl, hstep, rfl⟩
  · obtain ⟨hwritten, htaken⟩ := server_keeps h.connected.toKept hstep
    have hpre := (Channel.taken_prefix_written _).trans h.requests_prefix
    refine ⟨connected_server hr h.connected hstep, ?_, ?_⟩
    · apply serverRounds_step hr ho h.connected hpre _ h.server hstep
      rintro rfl
      exact hfull.1 rfl
    · obtain ⟨hread, hwrite, hidle, hmade, hdel⟩ := h.client
      exact ⟨htaken ▸ hread, hwritten ▸ hwrite, hidle, hmade, hdel⟩
  · obtain ⟨htaken, hwritten⟩ := client_keeps hr hstep
    have hpre := (Channel.taken_prefix_written _).trans h.replies_prefix
    refine ⟨connected_client hr ho h.connected hstep, ?_, ?_⟩
    · obtain ⟨hread, hwrite, hidle, hrec⟩ := h.server
      exact ⟨htaken ▸ hread, hwritten ▸ hwrite, hidle, hrec⟩
    · apply clientRounds_step hr ho h.connected hpre _ h.client hstep
      rintro rfl
      exact hfull.2 rfl

/-- Between two calls of the client both counts agree and nothing is under way. -/
theorem boundary (h : Rounds cfg s) (hpc : s.client.pc = .start) :
    s.server.received.length = s.client.delivered.length ∧
      s.pipe.toServer.taken = frames cfg.request s.client.delivered.length ∧
      s.pipe.toServer.queue = [] ∧
      s.pipe.toClient.taken = frames cfg.reply s.client.delivered.length ∧
      s.pipe.toClient.queue = [] := by
  have hmade : s.client.made = s.client.delivered.length := by
    simp only [h.client.made, Client.outstanding, hpc, Nat.add_zero]
  have hread := h.client.reading
  simp only [Client.frameRead, hpc] at hread
  have hgot := InFrame.idle_iff.mp hread
  have hsent := h.client.writing
  rw [h.client.idle (by simp [hpc]), List.append_nil, hmade] at hsent
  have hle := h.received_le
  have hge := h.delivered_le
  have heq : s.server.received.length = s.client.delivered.length := by omega
  -- what was sent is no longer than what has been taken
  have hserver : s.pipe.toServer.taken = s.pipe.toServer.written := by
    apply (Channel.taken_prefix_written _).eq_of_length_le
    rw [hsent, h.server.reading.taken_eq, heq, List.length_append]
    omega
  have hclient : s.pipe.toClient.taken = s.pipe.toClient.written := by
    apply (Channel.taken_prefix_written _).eq_of_length_le
    rw [hgot, ← heq]
    exact h.replies_prefix.length_le
  exact ⟨heq, hserver.trans hsent, Channel.queue_eq_nil_of_taken_eq hserver, hgot,
    Channel.queue_eq_nil_of_taken_eq hclient⟩

theorem inStep (h : Rounds cfg s) : InStep cfg s where
  received := h.server.received
  delivered := h.client.delivered
  serverBoundary hpc hgot := by
    have htaken := h.server.reading.taken_eq
    have hwritten := h.server.writing
    simp only [Server.frameRead, hpc, hgot, FrameRead.piece, List.append_nil] at htaken
    rw [h.server.idle (by simp [hpc]), List.append_nil] at hwritten
    exact ⟨htaken, hwritten⟩
  clientBoundary := h.boundary

end Rounds

/-- Over one reused connection, in every run whose `ReadFile` calls all return
    with their buffer full, the server receives the payloads in turn, the client
    the replies to them, and every round ends at a frame boundary. -/
theorem inStep_of_fullReads {cfg : Config} {tr : List (State × Action)} {s : State}
    (hr : cfg.reuse = true) (ho : cfg.oneway = false) (h : Exec (conversation cfg) tr s)
    (hfull : Meets FullReads tr) : ∀ t ∈ visited tr s, InStep cfg t := by
  intro t ht
  have hrounds : Rounds cfg t :=
    h.invariant_visited (Rounds.init cfg) (fun _ _ _ hI ha hs => hI.step hr ho ha hs) hfull t ht
  exact hrounds.inStep

/-! ## A round read in pieces, and one cut short -/

/-- Two-byte requests and one-byte replies over one connection whose reads may
    return short. -/
def twoByteConfig : Config :=
  { reuse := true, oneway := false, inbuf := 64, outbuf := 64, shortReads := true
    junk := fun _ => 0xCD
    request := fun _ => { bytes := [1, 2], length_lt := by decide }
    builder := fun _ => .ofByte 0x42 }

/-- The connection is made, the first request is written and its length word read. -/
def firstRequest : List Action :=
  [.server .run, .server .run, .client .run, .client .run, .client .run, .server .run,
    .client .run, .client (.put 6), .client .ret, .server (.take 4), .server .ret]

/-- The payload arrives in two pieces, and the round is completed. -/
def piecewiseRound : List Action :=
  firstRequest ++ [.server (.take 1), .server (.take 1), .server .ret, .server .run,
    .server (.put 5), .server .ret, .client (.take 4), .client .ret, .client (.take 1),
    .client .ret, .client .run, .server .run, .client .run]

/-- The state after `piecewiseRound`. -/
def roundState : State :=
  { server :=
      { pc := .readSize, got := [], rSize := 0, request := some [1, 2], pending := []
        received := [(2, some [1, 2])] }
    client :=
      { pc := .start, hPipe := true, got := [0x42], responseSize := 1, response := some [0x42]
        pending := [], made := 1, delivered := [(1, some [0x42])] }
    pipe :=
      { state := .connected
        toServer := { taken := [2, 0, 0, 0, 1, 2], queue := [] }
        toClient := { taken := [1, 0, 0, 0, 0x42], queue := [] } } }

theorem piecewiseRound_inStep :
    ∃ tr, Exec (conversation twoByteConfig) tr roundState ∧
      ∀ t ∈ visited tr roundState, InStep twoByteConfig t := by
  have hrun : (conversation twoByteConfig).runIf (fun s a => decide (FullReads s a))
      piecewiseRound (conversation twoByteConfig).init = some roundState := by decide
  obtain ⟨tr, hexec, hmeets⟩ := Exec.of_runIf hrun
  exact ⟨tr, hexec, inStep_of_fullReads rfl rfl hexec fun e he => of_decide_eq_true (hmeets e he)⟩

/-- The `ReadFile` for the payload returns with one byte of two. -/
def shortRead : List Action := firstRequest ++ [.server (.take 1), .server .ret, .server .run]

/-- The state after `shortRead`: the builder has been handed a byte that no client
    sent, and the byte that was sent is still queued. -/
def shortState : State :=
  { server :=
      { pc := .write, got := [1], rSize := 2, request := some [1, 0xCD]
        pending := [1, 0, 0, 0, 0x42], received := [(2, some [1, 0xCD])] }
    client :=
      { Client.start with pc := .readSize, hPipe := true, made := 1 }
    pipe :=
      { state := .connected
        toServer := { taken := [2, 0, 0, 0, 1], queue := [2] }
        toClient := .empty } }

/-- One short read of a payload, and the server answers a request that was never
    made. -/
theorem shortRead_not_inStep :
    (∃ tr, Exec (conversation twoByteConfig) tr shortState) ∧ ¬ InStep twoByteConfig shortState := by
  have hrun : (conversation twoByteConfig).run shortRead = some shortState := by decide
  refine ⟨Exec.of_run hrun, ?_⟩
  intro h
  exact absurd h.received (by decide)

end IpcWin.Pipes
