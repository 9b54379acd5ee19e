/-
  IpcWin.Pipes.Teardown

  What is still queued when the server disconnects an instance, without `-r`.

  `DisconnectNamedPipe` discards it.  The reply path calls `FlushFileBuffers`
  first, so that every byte of a reply has been read by then (`Stage`): a call is
  asking until the reply is built, answering until the client has read it whole,
  and from then on the two programs are apart.  The confirmation path has no such
  call, and in any one-way conversation the confirmation can be lost
  (`loses_ack`).
-/

import IpcWin.Pipes.Connection

namespace IpcWin.Pipes

open IpcWin.Lib IpcWin.Wire
open IpcWin.Native (malloc malloc_of_lt)

/-- If the step is the server's `DisconnectNamedPipe`, the client has read all that
    the server has written. -/
def NothingLost (s : State) (a : Action) : Prop :=
  a = .server .run → s.server.pc = .disconnect → s.pipe.toClient.queue = []

instance (s : State) (a : Action) : Decidable (NothingLost s a) :=
  inferInstanceAs (Decidable (_ → _ → _))

/-! ## The stages of a call -/

/-- The client does not use the instance: it is between two calls, or it has read
    the whole of a reply. -/
def Client.Done (c : Client) : Prop :=
  match c.pc with
  | .start | .waitPipe | .createFile => True
  | .readSize | .readData | .close | .deliver => ∃ q, InFrame (fun _ => q) (frame q) 0 c.frameRead
  | _ => False

/-- The client is sending the request `m`. -/
def Client.Asks (cfg : Config) (m : Packet) (c : Client) (p : Pipe) : Prop :=
  match c.pc with
  | .build => m = cfg.request c.made ∧ p.toServer.written = []
  | .write => p.toServer.written ++ c.pending = frame m
  | .readSize => p.toServer.written = frame m ∧ c.got = []
  | _ => False

/-- The client is reading a reply, or is about to. -/
def Client.Hears (c : Client) : Prop :=
  match c.pc with
  | .write => c.pending = []
  | .readSize | .readData | .close => True
  | _ => False

/-- No client has the instance open, or the server has none. -/
structure Apart (s : State) : Prop where
  gone : s.pipe.state ≠ .connected
  accepting : s.server.pc = .connect ∨ s.server.pc = .connecting → s.pipe.state = .listening
  listening : s.pipe.state = .listening → s.server.pc.asked ∧ s.pipe.toServer = .empty ∧
    s.pipe.toClient = .empty
  pc : s.server.pc ≠ .readSize ∧ s.server.pc ≠ .readData ∧ s.server.pc ≠ .build
  idle : s.server.pending = []
  queue : s.pipe.toClient.queue = []
  client : s.client.Done

/-- The request `m` is on its way, and the server has not replied yet. -/
structure Asking (cfg : Config) (m : Packet) (s : State) : Prop where
  connected : s.pipe.state = .connected
  pc : s.server.pc.asked
  idle : s.server.pending = []
  quiet : s.pipe.toClient = .empty
  reading : InFrame (fun _ => m) s.pipe.toServer.taken 0 s.server.frameRead
  client : s.client.Asks cfg m s.pipe

/-- The reply `q` is on its way, and the client has not closed its handle yet. -/
structure Answering (q : Packet) (s : State) : Prop where
  connected : s.pipe.state = .connected
  pc : s.server.pc = .write ∨ s.server.pc = .flush ∨ s.server.pc = .disconnect
  telling : s.pipe.toClient.written ++ s.server.pending = frame q
  idle : s.server.pc ≠ .write → s.server.pending = []
  flushed : s.server.pc = .disconnect → s.pipe.toClient.queue = []
  reading : InFrame (fun _ => q) s.pipe.toClient.taken 0 s.client.frameRead
  client : s.client.Hears

/-- Where a call is. -/
inductive Stage (cfg : Config) (s : State) : Prop
  | apart (h : Apart s)
  | asking {m : Packet} (h : Asking cfg m s)
  | answering {q : Packet} (h : Answering q s)

namespace Stage

variable {cfg : Config} {s : State}

theorem init (cfg : Config) : Stage cfg (conversation cfg).init :=
  .apart
    { gone := by simp [conversation, Pipe.absent]
      accepting := by simp [conversation, Server.start]
      listening := by simp [conversation, Pipe.absent]
      pc := by simp [conversation, Server.start]
      idle := rfl
      queue := rfl
      client := trivial }

/-- In no stage the server disconnects an instance with bytes queued in it. -/
theorem nothingLost (h : Stage cfg s) (a : Action) : NothingLost s a := by
  intro _ hpc
  cases h with
  | apart h => exact h.queue
  | asking h =>
      have hasked := h.pc
      rw [hpc] at hasked
      exact hasked.elim
  | answering h => exact h.flushed hpc

end Stage

/-! ## From stage to stage -/

theorem Client.Asks.congr {cfg : Config} {m : Packet} {c : Client} {p p' : Pipe}
    (h : c.Asks cfg m p) (hp : p'.toServer.written = p.toServer.written) : c.Asks cfg m p' := by
  unfold Client.Asks at h ⊢
  rw [hp]
  exact h

/-- No more than the request has been queued. -/
theorem Client.Asks.written_prefix {cfg : Config} {m : Packet} {c : Client} {p : Pipe}
    (h : c.Asks cfg m p) : p.toServer.written <+: frame m := by
  unfold Client.Asks at h
  split at h
  · rw [h.2]
    exact List.nil_prefix
  · rw [← h]
    exact List.prefix_append _ _
  · rw [h.1]
  · exact h.elim

/-- Once the server has taken the whole of the request, the client waits for the
    reply to it. -/
theorem Client.Asks.hears {cfg : Config} {m q : Packet} {c : Client} {p : Pipe}
    (h : c.Asks cfg m p) (htaken : p.toServer.taken = frame m) :
    c.Hears ∧ InFrame (fun _ => q) [] 0 c.frameRead := by
  have hwritten : p.toServer.written = frame m := by
    apply h.written_prefix.eq_of_length_le
    rw [← htaken]
    exact (Channel.taken_prefix_written _).length_le
  cases hpc : c.pc with
  | build =>
      simp only [Asks, hpc] at h
      exact absurd (hwritten.symm.trans h.2) (frame_ne_nil m)
  | write =>
      simp only [Asks, hpc, hwritten] at h
      simp only [Hears, frameRead, hpc]
      exact ⟨List.append_right_eq_self.mp h, ⟨rfl, trivial⟩⟩
  | readSize =>
      simp only [Asks, hpc] at h
      simp only [Hears, frameRead, hpc, h.2]
      exact ⟨trivial, ⟨rfl, Nat.zero_le 4⟩⟩
  | _ => simp only [Asks, hpc] at h

section Steps

variable {cfg : Config} {s : State} {io : Io}

theorem asking_server {m : Packet} {srv : Server} {p : Pipe} (ho : cfg.oneway = false)
    (hshort : cfg.shortReads = false) (h : Asking cfg m s)
    (hs : Server.Step cfg s.server s.pipe io srv p) :
    Stage cfg { s with server := srv, pipe := p } := by
  have hpre : s.pipe.toServer.taken <+: frames (fun _ => m) 1 :=
    (Channel.taken_prefix_written _).trans h.client.written_prefix
  have hlive : s.server.pc = .readSize → s.pipe.gone = false := by
    intro _
    simp [Pipe.gone, h.connected]
  have hfull : io = .ret → s.server.frameRead.Full := by
    rintro rfl
    exact server_full hshort h.connected hs
  have hread := server_asked h.pc hlive hpre hfull h.reading hs
  cases hs with
  | reply hpc =>
      -- the request has been taken whole, and the reply is all that is written
      rw [if_pos hpc, Server.frameRead, Server.reply_pc, InFrame.idle_iff] at hread
      rw [Server.reply_of_not_oneway ho]
      obtain ⟨hhears, hbegin⟩ := h.client.hears hread
      refine .answering (q := cfg.builder (s.server.received ++ [(s.server.rSize, s.server.request)]))
        ⟨h.connected, .inl rfl, ?_, fun hw => absurd rfl hw, (fun hd => by cases hd), ?_, hhears⟩
      · show s.pipe.toClient.written ++ _ = _
        rw [h.quiet]
        rfl
      · show InFrame _ s.pipe.toClient.taken 0 s.client.frameRead
        rw [h.quiet]
        exact hbegin
  | takeSize hpc j hpiece | takeData hpc j _ hpiece =>
      rw [if_neg (by simp [hpc])] at hread
      obtain ⟨-, -, -, -, rfl⟩ := readPiece_eq_some.mp hpiece
      exact .asking ⟨h.connected, h.pc, h.idle, h.quiet, hread,
        h.client.congr (Channel.take_written _ _)⟩
  | clientClosed hpc _ hgone =>
      rw [hlive hpc] at hgone
      cases hgone
  | spin hpc =>
      rw [if_neg (by simp [hpc])] at hread
      exact .asking ⟨h.connected, h.pc, h.idle, h.quiet, hread, h.client⟩
  | block hpc | accept hpc | sized hpc | readNull hpc | dataRead hpc =>
      rw [if_neg (by simp [hpc])] at hread
      exact .asking ⟨h.connected, trivial, h.idle, h.quiet, hread, h.client⟩
  | create hpc | putReply hpc | confirmed hpc | written hpc | flushed hpc | disconnect hpc
  | close hpc =>
      have hasked := h.pc
      rw [hpc] at hasked
      exact hasked.elim

theorem asking_client {m : Packet} {c : Client} {p : Pipe} (ho : cfg.oneway = false)
    (hshort : cfg.shortReads = false) (h : Asking cfg m s)
    (hs : Client.Step cfg s.client s.pipe io c p) :
    Stage cfg { s with client := c, pipe := p } := by
  obtain ⟨hconn, hpc', hidle, hquiet, hread, hasks⟩ := h
  cases hs with
  | request hpc =>
      simp only [Client.Asks, hpc] at hasks
      obtain ⟨rfl, hnil⟩ := hasks
      refine .asking (m := cfg.request s.client.made) ⟨hconn, hpc', hidle, hquiet, hread, ?_⟩
      show s.pipe.toServer.written ++ frame (cfg.request s.client.made) = _
      rw [hnil, List.nil_append]
  | putRequest hpc j hpiece =>
      obtain ⟨-, -, -, rfl, rfl⟩ := writePiece_eq_some.mp hpiece
      simp only [Client.Asks, hpc] at hasks
      refine .asking (m := m) ⟨hconn, hpc', hidle, hquiet, hread, ?_⟩
      simp only [Client.Asks, hpc]
      rw [Channel.put_written, List.append_assoc, List.take_append_drop]
      exact hasks
  | sent hpc hw =>
      simp only [Client.Asks, hpc] at hasks
      rw [pending_eq_nil hconn hw, List.append_nil] at hasks
      refine .asking (m := m) ⟨hconn, hpc', hidle, hquiet, hread, ?_⟩
      simp only [Client.sent, ho]
      exact ⟨hasks, rfl⟩
  | takeSize hpc j hpiece =>
      -- there is nothing to be taken yet
      obtain ⟨hj, hle, -⟩ := readPiece_eq_some.mp hpiece
      rw [hquiet, Channel.empty_queue, List.length_nil] at hle
      omega
  | sized hpc hret =>
      simp only [Client.Asks, hpc] at hasks
      have hlen := full_of_readReturns hshort hconn hret
      rw [hasks.2] at hlen
      cases hlen
  | enter hpc | waited hpc | createFile hpc | takeData hpc | readNull hpc | dataRead hpc
  | takeAck hpc | acked hpc | close hpc | deliver hpc =>
      simp only [Client.Asks, hpc] at hasks

/-- A client that has the whole of its reply does not use the instance any more. -/
theorem Answering.done {q : Packet} (h : Answering q s) (hpending : s.server.pending = [])
    (hqueue : s.pipe.toClient.queue = []) : s.client.Done := by
  have htaken : s.pipe.toClient.taken = frame q := by
    have htold := h.telling
    rw [Channel.written, hqueue, hpending, List.append_nil, List.append_nil] at htold
    exact htold
  have hread := h.reading
  have hhears := h.client
  rw [htaken] at hread
  cases hpc : s.client.pc with
  | write =>
      simp only [Client.frameRead, hpc] at hread
      exact absurd (InFrame.idle_iff.mp hread) (frame_ne_nil q)
  | readSize | readData | close =>
      simp only [Client.Done, hpc]
      exact ⟨q, hread⟩
  | _ => simp only [Client.Hears, hpc] at hhears

theorem answering_server {q : Packet} {srv : Server} {p : Pipe} (hr : cfg.reuse = false)
    (ho : cfg.oneway = false) (h : Answering q s)
    (hs : Server.Step cfg s.server s.pipe io srv p) :
    Stage cfg { s with server := srv, pipe := p } := by
  have hlive : s.pipe.gone = false := by simp [Pipe.gone, h.connected]
  cases hs with
  | putReply hpc j hpiece =>
      obtain ⟨-, -, -, rfl, rfl⟩ := writePiece_eq_some.mp hpiece
      refine .answering (q := q) ⟨h.connected, h.pc, ?_, fun hw => absurd hpc hw,
        (fun hd => by simp [hpc] at hd), h.reading, h.client⟩
      rw [Channel.put_written, List.append_assoc, List.take_append_drop]
      exact h.telling
  | written hpc _ hw =>
      have htold := h.telling
      rw [pending_eq_nil h.connected hw] at htold
      exact .answering (q := q) ⟨h.connected, .inr (.inl rfl), htold, fun _ => rfl,
        (fun hd => by cases hd), h.reading, h.client⟩
  | flushed hpc hflush =>
      -- the client has not gone, so the flush waited until the queue was empty
      have hqueue : s.pipe.toClient.queue = [] := by
        rcases hflush with hempty | hgone
        · exact hempty
        · rw [hlive] at hgone
          cases hgone
      have hnil := h.idle (by simp [hpc])
      unfold Server.finish
      rw [hr]
      exact .answering (q := q) ⟨h.connected, .inr (.inr rfl), h.telling, fun _ => hnil,
        fun _ => hqueue, h.reading, h.client⟩
  | disconnect hpc =>
      have hnil := h.idle (by simp [hpc])
      exact .apart
        { gone := by simp [Pipe.disconnect]
          accepting := by simp
          listening := by simp [Pipe.disconnect]
          pc := by simp
          idle := hnil
          queue := rfl
          client := h.done hnil (h.flushed hpc) }
  | confirmed _ hone => simp [ho] at hone
  | create hpc | block hpc | spin hpc | accept hpc | takeSize hpc | clientClosed hpc | sized hpc
  | takeData hpc | readNull hpc | dataRead hpc | reply hpc | close hpc =>
      have hpc' := h.pc
      simp [hpc] at hpc'

theorem answering_client {q : Packet} {c : Client} {p : Pipe} (hr : cfg.reuse = false)
    (ho : cfg.oneway = false) (hshort : cfg.shortReads = false) (h : Answering q s)
    (hs : Client.Step cfg s.client s.pipe io c p) :
    Stage cfg { s with client := c, pipe := p } := by
  have hhears := h.client
  have hack : s.client.pc ≠ .readAck := by
    intro hpc
    simp only [Client.Hears, hpc] at hhears
  have hpre : s.pipe.toClient.taken <+: frames (fun _ => q) 1 := by
    have htold : s.pipe.toClient.written <+: frame q := by
      rw [← h.telling]
      exact List.prefix_append _ _
    exact (Channel.taken_prefix_written _).trans htold
  have hfull : io = .ret → s.client.frameRead.Full := by
    rintro rfl
    exact client_full hshort h.connected hs
  have hread := client_reading ho hack hpre hfull h.reading hs
  cases hs with
  | putRequest hpc j hpiece =>
      -- the request has been written whole
      obtain ⟨hj, hle, -⟩ := writePiece_eq_some.mp hpiece
      simp only [Client.Hears, hpc] at hhears
      rw [hhears, List.length_nil] at hle
      omega
  | sent hpc =>
      rw [if_neg (by simp [hpc])] at hread
      refine .answering (q := q) ⟨h.connected, h.pc, h.telling, h.idle, h.flushed, hread, ?_⟩
      simp only [Client.Hears, Client.sent, ho]
      exact trivial
  | takeSize hpc j hpiece | takeData hpc j _ hpiece =>
      rw [if_neg (by simp [hpc])] at hread
      obtain ⟨-, -, -, rfl, rfl⟩ := readPiece_eq_some.mp hpiece
      refine .answering (q := q) ⟨h.connected, h.pc, ?_, h.idle, ?_, hread, ?_⟩
      · rw [Channel.take_written]
        exact h.telling
      · intro hd
        show s.pipe.toClient.queue.drop j = []
        rw [h.flushed hd, List.drop_nil]
      · simp only [Client.Hears, hpc]
  | sized hpc | readNull hpc | dataRead hpc =>
      rw [if_neg (by simp [hpc])] at hread
      exact .answering (q := q) ⟨h.connected, h.pc, h.telling, h.idle, h.flushed, hread, trivial⟩
  | close hpc =>
      -- the reply has been read whole, so none of it is left on the way
      have hreading := h.reading
      simp only [Client.frameRead, hpc] at hreading
      have htaken : s.pipe.toClient.taken = frame q := hreading.done.2
      have htold := h.telling
      rw [Channel.written, htaken, List.append_assoc, List.append_right_eq_self,
        List.append_eq_nil_iff] at htold
      have hclosed : Client.closeHandle cfg s.pipe = { s.pipe with state := .closing } := by
        simp [Client.closeHandle, hr, Pipe.gone, h.connected]
      rw [hclosed, if_neg (by simp [hpc])] at hread
      rw [hclosed]
      have hpcs : ∀ pc, s.server.pc = pc → pc = .write ∨ pc = .flush ∨ pc = .disconnect := by
        rintro _ rfl
        exact h.pc
      exact .apart
        { gone := by simp
          accepting := by
            rintro (hacc | hacc)
            · exact absurd (hpcs _ hacc) (by simp)
            · exact absurd (hpcs _ hacc) (by simp)
          listening := by simp
          pc := by
            refine ⟨?_, ?_, ?_⟩
            all_goals
              intro hbad
              exact absurd (hpcs _ hbad) (by simp)
          idle := htold.2
          queue := htold.1
          client := ⟨q, htaken ▸ hread⟩ }
  | enter hpc | waited hpc | createFile hpc | request hpc | takeAck hpc | acked hpc
  | deliver hpc => simp only [Client.Hears, hpc] at hhears

theorem apart_server {srv : Server} {p : Pipe} (hr : cfg.reuse = false) (ho : cfg.oneway = false)
    (h : Apart s) (hs : Server.Step cfg s.server s.pipe io srv p) :
    Stage cfg { s with server := srv, pipe := p } := by
  have hnotListening : ∀ {pc : ServerPc}, s.server.pc = pc → ¬ pc.asked →
      s.pipe.state ≠ .listening := by
    rintro _ rfl hasked hl
    exact hasked (h.listening hl).1
  cases hs with
  | create hpc =>
      exact .apart
        { gone := by simp [Pipe.create]
          accepting := fun _ => rfl
          listening := fun _ => ⟨trivial, rfl, rfl⟩
          pc := by simp
          idle := h.idle
          queue := rfl
          client := h.client }
  | block hpc hl =>
      exact .apart
        { gone := h.gone
          accepting := fun _ => hl
          listening := fun _ => ⟨trivial, (h.listening hl).2⟩
          pc := by simp
          idle := h.idle
          queue := h.queue
          client := h.client }
  | spin hpc hl => exact absurd (h.accepting (.inl hpc)) hl
  | accept hpc hl => exact absurd (h.accepting (.inr hpc)) hl
  | putReply hpc j hpiece =>
      obtain ⟨hj, hle, -⟩ := writePiece_eq_some.mp hpiece
      rw [h.idle, List.length_nil] at hle
      omega
  | written hpc =>
      exact .apart
        { gone := h.gone
          accepting := by simp
          listening := fun hl => absurd hl (hnotListening hpc not_false)
          pc := by simp
          idle := rfl
          queue := h.queue
          client := h.client }
  | flushed hpc =>
      unfold Server.finish
      rw [hr]
      exact .apart
        { gone := h.gone
          accepting := by simp
          listening := fun hl => absurd hl (hnotListening hpc not_false)
          pc := by simp
          idle := h.idle
          queue := h.queue
          client := h.client }
  | disconnect hpc =>
      exact .apart
        { gone := by simp [Pipe.disconnect]
          accepting := by simp
          listening := by simp [Pipe.disconnect]
          pc := by simp
          idle := h.idle
          queue := rfl
          client := h.client }
  | close hpc =>
      exact .apart
        { gone := by simp
          accepting := by simp
          listening := by simp
          pc := by simp
          idle := h.idle
          queue := h.queue
          client := h.client }
  | confirmed _ hone => simp [ho] at hone
  | takeSize hpc | clientClosed hpc | sized hpc => exact absurd hpc h.pc.1
  | takeData hpc | readNull hpc | dataRead hpc => exact absurd hpc h.pc.2.1
  | reply hpc => exact absurd hpc h.pc.2.2

/-- A client that has read its reply goes through the end of the call. -/
theorem Apart.of_client {c : Client} (h : Apart s) (hdone : c.Done) :
    Apart { s with client := c } :=
  ⟨h.gone, h.accepting, h.listening, h.pc, h.idle, h.queue, hdone⟩

theorem apart_client {c : Client} {p : Pipe} (ho : cfg.oneway = false) (h : Apart s)
    (hr : cfg.reuse = false) (hs : Client.Step cfg s.client s.pipe io c p) :
    Stage cfg { s with client := c, pipe := p } := by
  have hdone := h.client
  cases hs with
  | enter hpc =>
      refine .apart (h.of_client ?_)
      simp [Client.Done, Client.enter, hr]
  | waited hpc => exact .apart (h.of_client trivial)
  | createFile hpc hl =>
      obtain ⟨hasked, hserver, hclient⟩ := h.listening hl
      refine .asking (m := cfg.request s.client.made) ⟨rfl, hasked, h.idle, hclient, ?_, rfl, ?_⟩
      · show InFrame _ s.pipe.toServer.taken 0 s.server.frameRead
        -- on an instance that can be opened the server is still in its accept loop
        have hidle : s.server.frameRead = .idle := by
          have hpcs := h.pc
          cases hpc' : s.server.pc <;> simp_all [Server.frameRead]
        rw [hserver, hidle]
        exact ⟨rfl, trivial⟩
      · show s.pipe.toServer.written = []
        rw [hserver]
        rfl
  | takeSize hpc j hpiece | takeData hpc j _ hpiece =>
      obtain ⟨hj, hle, -⟩ := readPiece_eq_some.mp hpiece
      rw [h.queue, List.length_nil] at hle
      omega
  | sized hpc =>
      simp only [Client.Done, hpc, Client.frameRead] at hdone
      obtain ⟨q, hread⟩ := hdone
      exact .apart (h.of_client
        ⟨q, hread.sized (n := 1) cfg.junk List.prefix_rfl (hread.full_of_taken rfl)⟩)
  | dataRead hpc hb =>
      simp only [Client.Done, hpc, Client.frameRead, hb] at hdone
      obtain ⟨q, hread⟩ := hdone
      exact .apart (h.of_client
        ⟨q, hread.dataRead (n := 1) List.prefix_rfl (hread.full_of_taken rfl)⟩)
  | readNull hpc hb =>
      simp only [Client.Done, hpc, Client.frameRead, hb] at hdone
      obtain ⟨q, hread⟩ := hdone
      obtain ⟨-, b, hnone, -⟩ := hread.reads
      cases hnone
  | close hpc =>
      simp only [Client.Done, hpc, Client.frameRead] at hdone
      have hsame : Client.closeHandle cfg s.pipe = s.pipe := by
        simp [Client.closeHandle, Pipe.gone, h.gone]
      rw [hsame]
      exact .apart (h.of_client hdone)
  | deliver hpc =>
      rw [Client.deliver_of_not_oneway ho]
      exact .apart (h.of_client trivial)
  | request hpc | putRequest hpc | sent hpc | takeAck hpc | acked hpc =>
      simp only [Client.Done, hpc] at hdone

end Steps

/-- In request/response mode every call goes through the stages. -/
theorem Stage.step {cfg : Config} {s s' : State} {a : Action} (hr : cfg.reuse = false)
    (ho : cfg.oneway = false) (hshort : cfg.shortReads = false) (h : Stage cfg s)
    (hs : (conversation cfg).step a s = some s') : Stage cfg s' := by
  rcases conversation_step hs with ⟨io, srv, p, rfl, hstep, rfl⟩ | ⟨io, c, p, rfl, hstep, rfl⟩
  · cases h with
    | apart h => exact apart_server hr ho h hstep
    | asking h => exact asking_server ho hshort h hstep
    | answering h => exact answering_server hr ho h hstep
  · cases h with
    | apart h => exact apart_client ho h hr hstep
    | asking h => exact asking_client ho hshort h hstep
    | answering h => exact answering_client hr ho hshort h hstep

theorem nothingLost_of_not_oneway {cfg : Config} (hr : cfg.reuse = false)
    (ho : cfg.oneway = false) (hshort : cfg.shortReads = false) {tr : List (State × Action)}
    {s : State} (h : Exec (conversation cfg) tr s) : Meets NothingLost tr := by
  rintro ⟨t, a⟩ hmem
  obtain ⟨tr', -, hexec⟩ := h.prefix (mem_visited.mpr (.inl ⟨a, hmem⟩))
  have hstage : Stage cfg t :=
    hexec.invariant_all (Stage.init cfg) fun _ _ _ hI hs => hI.step hr ho hshort hs
  exact hstage.nothingLost a

/-! ## The confirmation path -/

/-- A connected pipe from which everything has been taken, with nothing in it for the
    client. -/
def drained (taken : List Byte) : Pipe :=
  { state := .connected, toServer := { taken := taken, queue := [] }, toClient := .empty }

/-- Byte by byte, what the client writes gets into the buffer of the server's
    `ReadFile`, as long as there is room in it. -/
theorem transfer {cfg : Config} (hin : 0 < cfg.inbuf) (srv : List Byte → Server) (c : Client)
    (room : Nat) (hpc : c.pc = .write)
    (htake : ∀ got b taken, got.length < room →
      (srv got).step cfg (.take 1)
          { drained taken with toServer := { taken := taken, queue := [b] } } =
        some (srv (got ++ [b]), drained (taken ++ [b])))
    (bs rest got taken : List Byte) (hroom : got.length + bs.length ≤ room)
    (h : Reachable (conversation cfg)
      { server := srv got, client := { c with pending := bs ++ rest }, pipe := drained taken }) :
    Reachable (conversation cfg)
      { server := srv (got ++ bs), client := { c with pending := rest }
        pipe := drained (taken ++ bs) } := by
  induction bs generalizing got taken with
  | nil => simpa using h
  | cons b bs ih =>
      rw [List.length_cons] at hroom
      have hput : Reachable (conversation cfg)
          { server := srv got, client := { c with pending := bs ++ rest }
            pipe := { drained taken with toServer := { taken := taken, queue := [b] } } } := by
        have hroom' : 1 ≤ cfg.inbuf := hin
        apply h.step (a := .client (.put 1))
        simp [conversation, Client.step, hpc, writePiece, drained, Channel.put, hroom']
      have htaken : Reachable (conversation cfg)
          { server := srv (got ++ [b]), client := { c with pending := bs ++ rest }
            pipe := drained (taken ++ [b]) } := by
        apply hput.step (a := .server (.take 1))
        simp [conversation, htake got b taken (by omega)]
      have hrest := ih (got ++ [b]) (taken ++ [b])
        (by rw [List.length_append, List.length_singleton]; omega) htaken
      simpa using hrest

/-- The client of the first call, with `pending` left to write. -/
def firstWrite (pending : List Byte) : Client :=
  { Client.start with pc := .write, hPipe := true, made := 1, pending := pending }

/-- The server of the first call, in the length word. -/
def readingSize (got : List Byte) : Server := { Server.start with pc := .readSize, got := got }

/-- The server of the first call, in the payload. -/
def readingData (cfg : Config) (got : List Byte) : Server :=
  { Server.start with
    pc := .readData, got := got, rSize := (cfg.request 0).size
    request := some ((List.range (cfg.request 0).bytes.length).map cfg.junk) }

section FirstCall

variable {cfg : Config}

/-- The pipe is opened, accepted and written to. -/
theorem reachable_firstWrite (cfg : Config) : Reachable (conversation cfg)
    { server := readingSize [], client := firstWrite (frame (cfg.request 0))
      pipe := drained [] } := by
  have hrun : (conversation cfg).run
      [.server .run, .server .run, .client .run, .client .run, .client .run, .server .run,
        .client .run] = some
      { server := readingSize [], client := firstWrite (frame (cfg.request 0))
        pipe := drained [] } := by
    simp [System.run, System.runIf, conversation, Server.step, Client.step, Server.start,
      Client.start, Client.enter, Client.request, Pipe.create, Pipe.absent, drained, Server.enter,
      readingSize, firstWrite]
    rfl
  exact Exec.of_run hrun

/-- The server has the length word and has allocated a block for the payload. -/
theorem reachable_readingData (hr : cfg.reuse = false) (hin : 0 < cfg.inbuf) :
    Reachable (conversation cfg)
      { server := readingData cfg [], client := firstWrite (cfg.request 0).bytes
        pipe := drained (intBytes (cfg.request 0).size) } := by
  have hsize : Reachable (conversation cfg)
      { server := readingSize (intBytes (cfg.request 0).size)
        client := firstWrite (cfg.request 0).bytes
        pipe := drained (intBytes (cfg.request 0).size) } :=
    transfer hin readingSize (firstWrite []) 4 rfl
      (by
        intro got b taken hlt
        have hlt' : got.length + 1 ≤ 4 := hlt
        simp [Server.step, readPiece, Channel.take, drained, readingSize, hlt'])
      (intBytes (cfg.request 0).size) (cfg.request 0).bytes [] []
      (by rw [intBytes_length]; exact Nat.le_refl 4) (reachable_firstWrite cfg)
  have hblock : malloc cfg.junk (cfg.request 0).size =
      some ((List.range (cfg.request 0).bytes.length).map cfg.junk) :=
    malloc_of_lt (cfg.request 0).length_lt
  apply hsize.step (a := .server .ret)
  simp [conversation, Server.step, readingSize, readingData, readReturns, intBytes_length,
    Server.sized, Server.start, hr, sizeWord_intBytes, hblock]

/-- The server has the whole of the request. -/
theorem reachable_dataRead (hr : cfg.reuse = false) (hin : 0 < cfg.inbuf) :
    Reachable (conversation cfg)
      { server := { readingData cfg (cfg.request 0).bytes with
          pc := .build, request := some (cfg.request 0).bytes }
        client := firstWrite []
        pipe := drained (frame (cfg.request 0)) } := by
  have hlength : ((List.range (cfg.request 0).bytes.length).map cfg.junk).length =
      (cfg.request 0).bytes.length := by simp
  have hdata : Reachable (conversation cfg)
      { server := readingData cfg (cfg.request 0).bytes, client := firstWrite []
        pipe := drained (frame (cfg.request 0)) } := by
    have hwritten := reachable_readingData hr hin
    rw [← List.append_nil (cfg.request 0).bytes] at hwritten
    exact transfer hin (readingData cfg) (firstWrite []) (cfg.request 0).bytes.length rfl
      (by
        intro got b taken hlt
        have hlt' : got.length + 1 ≤ (cfg.request 0).bytes.length := hlt
        simp [Server.step, readPiece, Channel.take, drained, readingData, hlt'])
      (cfg.request 0).bytes [] [] (intBytes (cfg.request 0).size) (by simp) hwritten
  apply hdata.step (a := .server .ret)
  simp [conversation, Server.step, readingData, readReturns, readInto]

/-- In every one-way conversation the server can disconnect the instance before the
    client has read the confirmation. -/
theorem loses_ack (hr : cfg.reuse = false) (ho : cfg.oneway = true) (hin : 0 < cfg.inbuf)
    (hout : 0 < cfg.outbuf) :
    ∃ s, Reachable (conversation cfg) s ∧ s.server.pc = .disconnect ∧
      s.pipe.toClient.queue = [1] := by
  have hreply : Reachable (conversation cfg)
      { server := { readingData cfg (cfg.request 0).bytes with
          pc := .write, request := some (cfg.request 0).bytes, pending := [1] }
        client := firstWrite [], pipe := drained (frame (cfg.request 0)) } := by
    apply (reachable_dataRead hr hin).step (a := .server .run)
    simp [conversation, Server.step, Server.reply, readingData, ho]
  have hput : Reachable (conversation cfg)
      { server := { readingData cfg (cfg.request 0).bytes with
          pc := .write, request := some (cfg.request 0).bytes, pending := [] }
        client := firstWrite []
        pipe := { drained (frame (cfg.request 0)) with
          toClient := { taken := [], queue := [1] } } } := by
    have hroom : 1 ≤ cfg.outbuf := hout
    apply hreply.step (a := .server (.put 1))
    simp [conversation, Server.step, writePiece, Channel.put, drained, Channel.empty, hroom]
  have hconfirmed : Reachable (conversation cfg)
      { server := { readingData cfg (cfg.request 0).bytes with
          pc := .disconnect, request := some (cfg.request 0).bytes, pending := [] }
        client := firstWrite []
        pipe := { drained (frame (cfg.request 0)) with
          toClient := { taken := [], queue := [1] } } } := by
    apply hput.step (a := .server .ret)
    simp [conversation, Server.step, writeReturns, Server.finish, ho, hr]
  exact ⟨_, hconfirmed, rfl, rfl⟩

end FirstCall

/-! ## Which conversations lose nothing -/

/-- The server's next step throws away what is queued for the client. -/
theorem loses_of_disconnect {cfg : Config} {tr : List (State × Action)} {s : State}
    (h : Exec (conversation cfg) tr s) (hpc : s.server.pc = .disconnect)
    (hqueue : s.pipe.toClient.queue ≠ []) :
    ∃ tr' s', Exec (conversation cfg) tr' s' ∧ s'.client = s.client ∧ ¬ Meets NothingLost tr' := by
  have hstep : (conversation cfg).step (.server .run) s =
      some { s with server := { s.server with pc := .close }, pipe := s.pipe.disconnect } := by
    simp [conversation, Server.step, hpc]
  refine ⟨_, _, h.step hstep, rfl, ?_⟩
  intro hmeets
  exact hqueue ((meets_snoc.mp hmeets).2 rfl hpc)

/-- Without `-r` and without short reads, no conversation of a configuration loses a
    byte that the server has written exactly if it is a request/response one. -/
theorem nothingLost_iff {cfg : Config} (hr : cfg.reuse = false) (hshort : cfg.shortReads = false)
    (hin : 0 < cfg.inbuf) (hout : 0 < cfg.outbuf) :
    (∀ tr s, Exec (conversation cfg) tr s → Meets NothingLost tr) ↔ cfg.oneway = false := by
  constructor
  · intro hall
    by_contra hone
    obtain ⟨s, ⟨tr, hexec⟩, hpc, hqueue⟩ :=
      loses_ack hr (eq_true_of_ne_false hone) hin hout
    obtain ⟨tr', s', hexec', -, hlost⟩ := loses_of_disconnect hexec hpc (by simp [hqueue])
    exact hlost (hall tr' s' hexec')
  · intro ho tr s hexec
    exact nothingLost_of_not_oneway hr ho hshort hexec

/-- Requests and confirmations of one byte. -/
def oneWayConfig : Config :=
  { reuse := false, oneway := true, inbuf := 64, outbuf := 64, shortReads := false
    junk := fun _ => 0
    request := fun _ => .ofByte 0x41
    builder := fun _ => .empty }

/-- One call up to the confirmation, and the server disconnects. -/
def hastyDisconnect : List Action :=
  [.server .run, .server .run, .client .run, .client .run, .client .run, .server .run,
    .client .run, .client (.put 5), .client .ret, .server (.take 4), .server .ret,
    .server (.take 1), .server .ret, .server .run, .server (.put 1), .server .ret]

/-- The client waits for a confirmation that is thrown away. -/
theorem hastyDisconnect_loses :
    ∃ tr s, Exec (conversation oneWayConfig) tr s ∧ s.client.pc = .readAck ∧
      ¬ Meets NothingLost tr := by
  have hrun : ((conversation oneWayConfig).run hastyDisconnect).map
      (fun s => (s.server.pc, s.client.pc, s.pipe.toClient.queue)) =
      some (.disconnect, .readAck, [1]) := by decide
  obtain ⟨s, hs, heq⟩ := Option.map_eq_some_iff.mp hrun
  obtain ⟨hpc, hclient, hqueue⟩ : s.server.pc = .disconnect ∧ s.client.pc = .readAck ∧
      s.pipe.toClient.queue = [1] := by simpa using heq
  obtain ⟨tr, hexec⟩ := Exec.of_run hs
  obtain ⟨tr', s', hexec', hsame, hlost⟩ := loses_of_disconnect hexec hpc (by simp [hqueue])
  exact ⟨tr', s', hexec', hsame ▸ hclient, hlost⟩

theorem requestResponse_nothingLost_iff :
    (∀ tr s, Exec (conversation { oneWayConfig with oneway := false }) tr s →
        Meets NothingLost tr) ↔ false = false :=
  nothingLost_iff rfl rfl (by decide) (by decide)

end IpcWin.Pipes
