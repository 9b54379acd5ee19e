/-
  IpcWin.Pipes.Clients

  Any number of clients over the pipe, without `-r`, their steps and those of the
  server interleaved freely.

  The server has one instance at a time, and every client opens whichever
  instance is listening under the one name.  A handle stays with the instance it
  was opened for, so that a client whose call the server is done with finds it
  disconnected, whatever goes over the next instance.

  The one instance is between two calls (`Between`), or it carries the call of the
  client that has opened it, which goes through the stages of `Pipes.Stage`: what
  the server takes is the request, and what the client then holds is the reply to
  it (`Asking.server_step`, `Answering.client_step`).  Every other client rests: it
  waits for an instance, or it holds a reply that it has read whole.
-/

import IpcWin.Pipes.Rounds
import IpcWin.Pipes.Teardown

namespace IpcWin.Pipes

open IpcWin.Lib IpcWin.Wire

variable {ι : Type*} [DecidableEq ι]

/-! ## The system -/

/-- The client is about to open an instance, whichever is there. -/
def ClientPc.opening : ClientPc → Bool
  | .start | .waitPipe | .createFile => true
  | _ => false

/-- What a handle to an earlier instance leads to. -/
def Pipe.lost : Pipe := { state := .disconnected, toServer := .empty, toClient := .empty }

/-- The server, the clients, the instance that the server created last, and the client
    that has opened it. -/
structure Clients (ι : Type*) where
  server : Server
  client : ι → Client
  pipe : Pipe
  owner : Option ι

/-- Which program moves, and how. -/
inductive ClientsAction (ι : Type*) where
  | server (io : Io)
  | client (i : ι) (io : Io)
deriving DecidableEq, Repr

/-- The configuration that the client `i` runs with. -/
def Config.for (cfg : Config) (request : ι → Nat → Packet) (i : ι) : Config :=
  { cfg with request := request i }

namespace Clients

/-- The client `i` finds the last instance, by its name or through its handle. -/
def finds (s : Clients ι) (i : ι) : Bool := (s.client i).pc.opening || s.owner == some i

/-- The pipe as the client `i` finds it. -/
def seen (s : Clients ι) (i : ι) : Pipe := if s.finds i then s.pipe else .lost

/-- A step of the server; no client has opened an instance that is new. -/
def moveServer (s : Clients ι) (q : Server × Pipe) : Clients ι :=
  { s with
    server := q.1, pipe := q.2
    owner := if s.server.pc = .create then none else s.owner }

/-- A step of the client `i`. -/
def moveClient (s : Clients ι) (i : ι) (q : Client × Pipe) : Clients ι :=
  { s with
    client := Function.update s.client i q.1
    pipe := if s.finds i then q.2 else s.pipe
    owner := if (s.client i).pc = .createFile then some i else s.owner }

/-- The server and the client `i`, with the instance between them. -/
def pair (s : Clients ι) (i : ι) : State :=
  { server := s.server, client := s.client i, pipe := s.pipe }

end Clients

/-- The server and its clients as a transition system. -/
def clients (cfg : Config) (request : ι → Nat → Packet) : System (Clients ι) (ClientsAction ι) where
  init := { server := .start, client := fun _ => .start, pipe := .absent, owner := none }
  step
    | .server io, s => (s.server.step cfg io s.pipe).map s.moveServer
    | .client i io, s => ((s.client i).step (cfg.for request i) io (s.seen i)).map (s.moveClient i)

/-- A step is one of the server or of one of the clients. -/
theorem clients_step {cfg : Config} {request : ι → Nat → Packet} {a : ClientsAction ι}
    {s s' : Clients ι} (h : (clients cfg request).step a s = some s') :
    (∃ io srv p, a = .server io ∧ s.server.step cfg io s.pipe = some (srv, p) ∧
        s' = s.moveServer (srv, p)) ∨
      ∃ i io c p, a = .client i io ∧
        Client.Step (cfg.for request i) (s.client i) (s.seen i) io c p ∧
        s' = s.moveClient i (c, p) := by
  cases a with
  | server io =>
      obtain ⟨⟨srv, p⟩, hstep, rfl⟩ := Option.map_eq_some_iff.mp h
      exact .inl ⟨io, srv, p, rfl, hstep, rfl⟩
  | client i io =>
      obtain ⟨⟨c, p⟩, hstep, rfl⟩ := Option.map_eq_some_iff.mp h
      exact .inr ⟨i, io, c, p, rfl, Client.step_cases hstep, rfl⟩

omit [DecidableEq ι] in
/-- The server runs with the configuration of every client. -/
theorem Server.step_for {cfg : Config} (request : ι → Nat → Packet) (i : ι) {io : Io}
    {srv srv' : Server} {p p' : Pipe} (h : srv.step cfg io p = some (srv', p')) :
    Server.Step (cfg.for request i) srv p io srv' p' := by
  have hfor : srv.step (cfg.for request i) io p = some (srv', p') := h
  exact step_cases hfor

/-! ## A frame says what it carries -/

theorem frame_injective {m m' : Packet} (h : frame m = frame m') : m = m' := by
  have hlen := congrArg List.length h
  rw [frame_length, frame_length] at hlen
  have hbytes := (List.append_inj' h (by omega)).2
  exact Packet.ext hbytes

/-- At one point of a call a client is sending one request. -/
theorem Client.Asks.unique {cfg : Config} {m m' : Packet} {c : Client} {p p' : Pipe}
    (h : c.Asks cfg m p) (h' : c.Asks cfg m' p')
    (hp : p'.toServer.written = p.toServer.written) : m' = m := by
  cases hpc : c.pc with
  | build =>
      simp only [Asks, hpc] at h h'
      rw [h.1, h'.1]
  | write =>
      simp only [Asks, hpc] at h h'
      rw [hp, h] at h'
      exact (frame_injective h').symm
  | readSize =>
      simp only [Asks, hpc] at h h'
      exact frame_injective (h'.1.symm.trans (hp.trans h.1))
  | _ => simp only [Asks, hpc] at h

/-- The request that a client is sending stays the same. -/
theorem Client.Asks.step {cfg : Config} {m m' : Packet} {c c' : Client} {p p' : Pipe} {io : Io}
    (ho : cfg.oneway = false) (hconn : p.state = .connected) (h : c.Asks cfg m p)
    (hs : Client.Step cfg c p io c' p') (h' : c'.Asks cfg m' p') : m' = m := by
  cases hs with
  | request hpc =>
      simp only [Asks, hpc] at h
      have hframe : p.toServer.written ++ frame (cfg.request c.made) = frame m' := h'
      rw [h.2, List.nil_append] at hframe
      rw [h.1, frame_injective hframe]
  | putRequest hpc j hpiece =>
      obtain ⟨-, -, -, rfl, rfl⟩ := writePiece_eq_some.mp hpiece
      simp only [Asks, hpc] at h h'
      rw [Channel.put_written, List.append_assoc, List.take_append_drop, h] at h'
      exact (frame_injective h').symm
  | sent hpc hw =>
      simp only [Asks, hpc] at h
      rw [pending_eq_nil hconn hw, List.append_nil] at h
      simp only [Asks, sent, ho] at h'
      exact frame_injective (h'.1.symm.trans h)
  | takeSize hpc =>
      simp only [Asks, hpc] at h h'
      exact frame_injective (h'.1.symm.trans h.1)
  | sized hpc => exact h'.elim
  | enter hpc | waited hpc | createFile hpc | takeData hpc | readNull hpc | dataRead hpc
  | takeAck hpc | acked hpc | close hpc | deliver hpc => simp only [Asks, hpc] at h

/-! ## What a step leaves as it is -/

section Frame

variable {cfg : Config} {io : Io} {srv srv' : Server} {c c' : Client} {p p' : Pipe}

/-- Only the call of the builder adds to what it has been handed. -/
theorem Server.Step.received (h : Server.Step cfg srv p io srv' p') (hpc : srv.pc ≠ .build) :
    srv'.received = srv.received := by
  cases h with
  | reply h => exact absurd h hpc
  | confirmed | flushed =>
      unfold Server.finish
      split <;> rfl
  | _ => rfl

/-- At the builder the server can do nothing but build the reply. -/
theorem Server.Step.of_build (h : Server.Step cfg srv p io srv' p') (hpc : srv.pc = .build) :
    srv' = srv.reply cfg ∧ p' = p := by
  cases h with
  | reply => exact ⟨rfl, rfl⟩
  | _ h => rw [hpc] at h; cases h

/-- Up to the builder the server only takes from the instance. -/
theorem Server.Step.asked (h : Server.Step cfg srv p io srv' p') (hasked : srv.pc.asked)
    (hpc : srv.pc ≠ .build) :
    srv'.pc.asked ∧ p'.state = p.state ∧ p'.toServer.written = p.toServer.written := by
  cases h with
  | reply h => exact absurd h hpc
  | takeSize h j hpiece | takeData h j _ hpiece =>
      obtain ⟨-, -, -, -, rfl⟩ := readPiece_eq_some.mp hpiece
      exact ⟨hasked, rfl, Channel.take_written _ _⟩
  | spin => exact ⟨hasked, rfl, rfl⟩
  | block | accept | clientClosed | sized | readNull | dataRead => exact ⟨trivial, rfl, rfl⟩
  | create h | putReply h | confirmed h | written h | flushed h | disconnect h | close h =>
      rw [h] at hasked
      exact hasked.elim

/-- The server connects no instance. -/
theorem Server.Step.not_connected (h : Server.Step cfg srv p io srv' p')
    (hp : p.state ≠ .connected) : p'.state ≠ .connected := by
  cases h with
  | create | disconnect | close => simp [Pipe.create, Pipe.disconnect]
  | _ => exact hp

/-- Only the end of a call adds to what the client's builder has been handed. -/
theorem Client.Step.delivered (h : Client.Step cfg c p io c' p') (hpc : c.pc ≠ .deliver) :
    c'.delivered = c.delivered := by
  cases h with
  | deliver h => exact absurd h hpc
  | _ => rfl

/-- Only `CloseHandle` takes a connected instance down at the client's end. -/
theorem Client.Step.connected (h : Client.Step cfg c p io c' p') (hpc : c.pc ≠ .close)
    (hp : p.state = .connected) : p'.state = .connected := by
  cases h with
  | close h => exact absurd h hpc
  | createFile => rfl
  | _ => exact hp

/-- A client puts nothing into the queue that it reads from. -/
theorem Client.Step.told (h : Client.Step cfg c p io c' p') :
    p'.toClient.written = p.toClient.written := by
  cases h with
  | takeSize _ j hpiece | takeData _ j _ hpiece | takeAck _ j hpiece =>
      obtain ⟨-, -, -, -, rfl⟩ := readPiece_eq_some.mp hpiece
      exact Channel.take_written _ _
  | close =>
      unfold Client.closeHandle
      split_ifs <;> rfl
  | _ => rfl

/-- The calls that a client has made are those it has been answered, and the one in
    progress. -/
theorem Client.Step.made (h : Client.Step cfg c p io c' p') (ho : cfg.oneway = false)
    (hmade : c.made = c.delivered.length + c.outstanding) :
    c'.made = c'.delivered.length + c'.outstanding := by
  cases h with
  | enter hpc =>
      simp only [outstanding, hpc] at hmade
      unfold Client.enter
      cases c.hPipe && cfg.reuse <;> exact hmade
  | sent hpc =>
      simp only [outstanding, hpc] at hmade
      have hpc' : (c.sent cfg).pc = .readSize := by simp [Client.sent, ho]
      simp only [outstanding, hpc']
      exact hmade
  | deliver hpc =>
      simp only [outstanding, hpc] at hmade
      rw [deliver_of_not_oneway ho]
      simpa [outstanding] using hmade
  | putRequest hpc | takeSize hpc | takeData hpc | takeAck hpc =>
      simp only [outstanding, hpc] at hmade ⊢
      exact hmade
  | request hpc =>
      simp only [outstanding, hpc] at hmade
      exact congrArg (· + 1) hmade
  | waited hpc | createFile hpc | sized hpc | readNull hpc | dataRead hpc | acked hpc
  | close hpc =>
      simp only [outstanding, hpc] at hmade
      exact hmade

end Frame

/-! ## A client that rests -/

/-- The client is about to open an instance, or it has read the whole of the reply
    that it is owed. -/
def Client.Rests (c : Client) : Option Packet → Prop
  | none => c.pc.opening = true
  | some q => c.Done ∧ InFrame (fun _ => q) (frame q) 0 c.frameRead

/-- A client that holds a reply does not open an instance. -/
theorem Client.Rests.not_opening {c : Client} {q : Packet} (h : c.Rests (some q)) :
    c.pc.opening = false := by
  have htaken := h.2.taken_eq
  cases hpc : c.pc with
  | start | waitPipe | createFile =>
      simp only [Client.frameRead, hpc] at htaken
      exact absurd htaken (frame_ne_nil q)
  | _ => rfl

/-- Until it opens an instance, a client that rests goes on resting, and is handed
    nothing but the reply that it holds. -/
theorem Client.Rests.step {cfg : Config} {owed : Option Packet} {c c' : Client} {p p' : Pipe}
    {io : Io} (h : c.Rests owed) (hs : Client.Step cfg c p io c' p') (hr : cfg.reuse = false)
    (ho : cfg.oneway = false) (hne : c.pc ≠ .createFile)
    (hp : c.pc.opening = false → p.state ≠ .connected ∧ p.toClient.queue = []) :
    p' = p ∧ (c'.Rests owed ∧ c'.delivered = c.delivered ∨
      ∃ q, owed = some q ∧ c'.Rests none ∧ c'.delivered = c.delivered ++ [q.received]) := by
  cases owed with
  | none =>
      have hopen : c.pc.opening = true := h
      cases hs with
      | enter =>
          refine ⟨rfl, .inl ⟨?_, rfl⟩⟩
          simp [Rests, Client.enter, hr, ClientPc.opening]
      | waited => exact ⟨rfl, .inl ⟨rfl, rfl⟩⟩
      | createFile hpc => exact absurd hpc hne
      | _ hpc => rw [hpc] at hopen; cases hopen
  | some q =>
      obtain ⟨hgone, hqueue⟩ := hp h.not_opening
      obtain ⟨hdone, hread⟩ := h
      cases hs with
      | takeSize hpc j hpiece | takeData hpc j _ hpiece =>
          -- nothing is left to be taken
          obtain ⟨hj, hle, -⟩ := readPiece_eq_some.mp hpiece
          rw [hqueue, List.length_nil] at hle
          omega
      | sized hpc =>
          simp only [Client.frameRead, hpc] at hread
          have hnext := hread.sized (n := 1) cfg.junk List.prefix_rfl (hread.full_of_taken rfl)
          exact ⟨rfl, .inl ⟨⟨⟨q, hnext⟩, hnext⟩, rfl⟩⟩
      | dataRead hpc hb =>
          simp only [Client.frameRead, hpc, hb] at hread
          have hnext := hread.dataRead (n := 1) List.prefix_rfl (hread.full_of_taken rfl)
          exact ⟨rfl, .inl ⟨⟨⟨q, hnext⟩, hnext⟩, rfl⟩⟩
      | readNull hpc hb =>
          simp only [Client.frameRead, hpc, hb] at hread
          obtain ⟨-, b, hnone, -⟩ := hread.reads
          cases hnone
      | close hpc =>
          simp only [Client.frameRead, hpc] at hread
          refine ⟨?_, .inl ⟨⟨⟨q, hread⟩, hread⟩, rfl⟩⟩
          simp [Client.closeHandle, Pipe.gone, hgone]
      | deliver hpc =>
          simp only [Client.frameRead, hpc] at hread
          rw [Client.deliver_of_not_oneway ho]
          refine ⟨rfl, .inr ⟨q, rfl, rfl, ?_⟩⟩
          show c.delivered ++ [(c.responseSize, c.response)] = _
          rw [hread.done.1]
      | enter hpc | waited hpc | createFile hpc =>
          have hopen : c.pc.opening = false := Rests.not_opening ⟨hdone, hread⟩
          rw [hpc] at hopen
          cases hopen
      | request hpc | putRequest hpc | sent hpc | takeAck hpc | acked hpc =>
          simp only [Client.Done, hpc] at hdone

/-! ## Where the one call in progress is -/

/-- Between two calls, no client has the server's instance open. -/
abbrev Between (srv : Server) (p : Pipe) : Prop :=
  Apart { server := srv, client := .start, pipe := p }

theorem Apart.between {s : State} (h : Apart s) : Between s.server s.pipe := h.of_client trivial

section Call

variable {cfg : Config} {s : State} {io : Io} {srv : Server} {c : Client} {p : Pipe} {m q : Packet}

/-- A server that answers has taken the request. -/
theorem Answering.not_asked (h : Answering q s) : ¬ s.server.pc.asked := by
  intro hasked
  rcases h.pc with hpc | hpc | hpc
  all_goals
    rw [hpc] at hasked
    exact hasked

/-- What a server that answers has left to write goes into the queue. -/
theorem Server.Step.telling (ho : cfg.oneway = false) (hpc : srv.pc = .write ∨ srv.pc = .flush)
    {srv' : Server} {p' : Pipe} (hconn : p.state = .connected)
    (h : Server.Step cfg srv p io srv' p') :
    p'.state = .connected ∧
      p'.toClient.written ++ srv'.pending = p.toClient.written ++ srv.pending := by
  cases h with
  | putReply _ j hpiece =>
      obtain ⟨-, -, -, rfl, rfl⟩ := writePiece_eq_some.mp hpiece
      refine ⟨hconn, ?_⟩
      rw [Channel.put_written, List.append_assoc, List.take_append_drop]
  | confirmed _ hone => rw [ho] at hone; cases hone
  | written _ _ hw =>
      rw [pending_eq_nil hconn hw]
      exact ⟨hconn, rfl⟩
  | flushed =>
      unfold Server.finish
      split <;> exact ⟨hconn, rfl⟩
  | _ h => simp [h] at hpc

/-- Before the reply the client's steps leave the call as it is. -/
theorem Asking.client_step (h : Asking cfg m s) (hs : Client.Step cfg s.client s.pipe io c p)
    (ho : cfg.oneway = false) (hshort : cfg.shortReads = false) :
    Asking cfg m { s with client := c, pipe := p } ∧ c.delivered = s.client.delivered := by
  have hasks := h.client
  have hpc : s.client.pc ≠ .close ∧ s.client.pc ≠ .deliver := by
    constructor
    all_goals
      intro hpc
      simp only [Client.Asks, hpc] at hasks
  cases asking_client ho hshort h hs with
  | apart h' => exact absurd (hs.connected hpc.1 h.connected) h'.gone
  | asking h' =>
      obtain rfl := hasks.step ho h.connected hs h'.client
      exact ⟨h', hs.delivered hpc.2⟩
  | answering h' => exact absurd h.pc h'.not_asked

/-- The server takes the request, and makes the reply to it when it has the whole of it. -/
theorem Asking.server_step (h : Asking cfg m s) (hs : Server.Step cfg s.server s.pipe io srv p)
    (ho : cfg.oneway = false) (hshort : cfg.shortReads = false) :
    srv.received = s.server.received ∧ Asking cfg m { s with server := srv, pipe := p } ∨
      srv.received = s.server.received ++ [m.received] ∧
        Answering (cfg.builder srv.received) { s with server := srv, pipe := p } := by
  have hstage := asking_server ho hshort h hs
  by_cases hpc : s.server.pc = .build
  · obtain ⟨rfl, rfl⟩ := hs.of_build hpc
    have hread := h.reading
    simp only [Server.frameRead, hpc] at hread
    have hreq := hread.done.1
    rw [Server.reply_of_not_oneway ho, hreq] at hstage ⊢
    refine .inr ⟨rfl, ?_⟩
    cases hstage with
    | apart h' => exact absurd h.connected h'.gone
    | asking h' => exact h'.pc.elim
    | answering h' =>
        have htold := h'.telling
        rw [h.quiet] at htold
        obtain rfl := frame_injective htold
        exact h'
  · obtain ⟨hasked, hstate, hwritten⟩ := hs.asked h.pc hpc
    refine .inl ⟨hs.received hpc, ?_⟩
    cases hstage with
    | apart h' => exact absurd (hstate.trans h.connected) h'.gone
    | asking h' =>
        obtain rfl := h.client.unique h'.client hwritten
        exact h'
    | answering h' => exact absurd hasked h'.not_asked

/-- The client reads the reply; when it closes its handle it has the whole of it. -/
theorem Answering.client_step (h : Answering q s) (hs : Client.Step cfg s.client s.pipe io c p)
    (hr : cfg.reuse = false) (ho : cfg.oneway = false) (hshort : cfg.shortReads = false) :
    c.delivered = s.client.delivered ∧
      (Answering q { s with client := c, pipe := p } ∨
        Between s.server p ∧ c.Rests (some q)) := by
  have hhears := h.client
  have hdel : s.client.pc ≠ .deliver := by
    intro hpc
    simp only [Client.Hears, hpc] at hhears
  refine ⟨hs.delivered hdel, ?_⟩
  have hstage := answering_client hr ho hshort h hs
  by_cases hpc : s.client.pc = .close
  · have hread := h.reading
    simp only [Client.frameRead, hpc] at hread
    have htaken : s.pipe.toClient.taken = frame q := hread.done.2
    rw [htaken] at hread
    cases hs with
    | close =>
        have hclosed : Client.closeHandle cfg s.pipe = { s.pipe with state := .closing } := by
          simp [Client.closeHandle, hr, Pipe.gone, h.connected]
        rw [hclosed] at hstage ⊢
        cases hstage with
        | apart h' => exact .inr ⟨h'.between, ⟨q, hread⟩, hread⟩
        | asking h' => cases h'.connected
        | answering h' => cases h'.connected
    | _ h => rw [hpc] at h; cases h
  · have hconn := hs.connected hpc h.connected
    cases hstage with
    | apart h' => exact absurd hconn h'.gone
    | asking h' => exact absurd h'.pc h.not_asked
    | answering h' =>
        have htold := h'.telling
        simp only [hs.told] at htold
        obtain rfl := frame_injective (htold.symm.trans h.telling)
        exact .inl h'

/-- The server writes the reply; when it disconnects the instance the client has read
    the whole of it. -/
theorem Answering.server_step (h : Answering q s) (hs : Server.Step cfg s.server s.pipe io srv p)
    (hr : cfg.reuse = false) (ho : cfg.oneway = false) :
    srv.received = s.server.received ∧
      (Answering q { s with server := srv, pipe := p } ∨
        Between srv p ∧ s.client.Rests (some q)) := by
  have hbuild : s.server.pc ≠ .build := by
    rcases h.pc with hpc | hpc | hpc <;> simp [hpc]
  refine ⟨hs.received hbuild, ?_⟩
  have hstage := answering_server hr ho h hs
  by_cases hpc : s.server.pc = .disconnect
  · have htold := h.telling
    have hread := h.reading
    rw [Channel.written, h.flushed hpc, h.idle (by simp [hpc]), List.append_nil,
      List.append_nil] at htold
    rw [htold] at hread
    cases hs with
    | disconnect =>
        cases hstage with
        | apart h' => exact .inr ⟨h'.between, h'.client, hread⟩
        | asking h' => cases h'.connected
        | answering h' => cases h'.connected
    | _ h => rw [hpc] at h; cases h
  · obtain ⟨hconn, hsame⟩ := hs.telling ho (h.pc.imp_right fun hw => hw.resolve_right hpc)
      h.connected
    rw [h.telling] at hsame
    cases hstage with
    | apart h' => exact absurd hconn h'.gone
    | asking h' =>
        have hquiet := h'.quiet
        have hidle := h'.idle
        simp only at hquiet hidle
        rw [hquiet, hidle] at hsame
        exact absurd hsame.symm (frame_ne_nil q)
    | answering h' =>
        obtain rfl := frame_injective (hsame.symm.trans h'.telling)
        exact .inl h'

/-- Between two calls the server closes an instance or makes a new one. -/
theorem Between.server_step {srv' : Server} (hr : cfg.reuse = false) (ho : cfg.oneway = false)
    {p' : Pipe} (h : Between srv p) (hs : Server.Step cfg srv p io srv' p') :
    srv'.received = srv.received ∧ Between srv' p' := by
  refine ⟨hs.received h.pc.2.2, ?_⟩
  have hgone := hs.not_connected h.gone
  cases apart_server hr ho h hs with
  | apart h' => exact h'
  | asking h' => exact absurd h'.connected hgone
  | answering h' => exact absurd h'.connected hgone

/-- A client that opens the instance is about to ask. -/
theorem Between.opened {c' : Client} {p' : Pipe} (h : Between srv p)
    (hs : Client.Step cfg c p io c' p') (hr : cfg.reuse = false) (ho : cfg.oneway = false)
    (hpc : c.pc = .createFile) :
    c'.delivered = c.delivered ∧
      Asking cfg (cfg.request c.made) { server := srv, client := c', pipe := p' } := by
  have hdone : c.Done := by simp only [Client.Done, hpc]
  have hstage := apart_client ho (h.of_client hdone) hr hs
  cases hs with
  | createFile _ hl =>
      refine ⟨rfl, ?_⟩
      cases hstage with
      | apart h' => exact absurd rfl h'.gone
      | asking h' =>
          obtain ⟨rfl, -⟩ := h'.client
          exact h'
      | answering h' => exact absurd (h.listening hl).1 h'.not_asked
  | _ hother => rw [hpc] at hother; cases hother

end Call

end IpcWin.Pipes
