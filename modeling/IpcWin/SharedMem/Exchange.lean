/-
  IpcWin.SharedMem.Exchange

  Which reply the client hands over.

  The two auto-reset events pass the request sections back and forth: at every
  moment they belong to the client, to a request on its way, to the server that
  copies it, or to its confirmation on its way back (`Tokens`).  So every request
  is received once and in turn (`Requests`), in every run.

  The two events of the reply are manual-reset events that no one resets.  From
  the second round on the client's wait for `ServerMadeResponse` is no wait, and
  it can read the reply sections while the server still builds the reply.  What
  it reads is the reply to its request as long as it does not (`Replies`).
-/

import IpcWin.SharedMem.Conversation

namespace IpcWin.SharedMem

open IpcWin.Lib IpcWin.Wire

/-! ## Who has the request sections -/

/-- One if the server has been released and has not yet told the client. -/
def ServerPhase.holds : ServerPhase → Nat
  | .reading | .sized | .copied => 1
  | _ => 0

/-- The requests that the server has taken and not yet handed to the builder. -/
def ServerPhase.taken : ServerPhase → Nat
  | .reading | .sized | .copied | .building => 1
  | _ => 0

/-- One unless the client has told the server and is not yet told back. -/
def ClientPhase.holds : ClientPhase → Nat
  | .asking => 0
  | _ => 1

/-- The requests that the client has told the server of and not yet finished with. -/
def ClientPhase.asked : ClientPhase → Nat
  | .asking | .awaiting | .gotSize | .gotData => 1
  | _ => 0

/-- The request sections belong to one of four, and the requests asked for are
    those received, the one taken and the one on its way. -/
structure Tokens (c : ClientView) (s : ServerView) (k : KernelView) : Prop where
  one : c.phase.holds + k.made.toNat + s.phase.holds + k.read.toNat = 1
  count : c.handed.length + c.phase.asked = s.received.length + s.phase.taken + k.made.toNat

namespace Tokens

variable {cfg : Config} {pc : ClientPc} {c c' : ClientView} {s s' : ServerView}
  {k k' : KernelView}

theorem server (ht : Tokens c s k) (hm : Server.Moves cfg s k s' k') : Tokens c s' k' := by
  obtain ⟨hone, hcount⟩ := ht
  cases hm with
  | silent => exact ⟨hone, hcount⟩
  | take h hmade =>
      simp only [h, hmade, ServerPhase.holds, ServerPhase.taken, Bool.toNat_true] at hone hcount
      exact ⟨by simp only [ServerPhase.holds, Bool.toNat_false]; omega,
        by simp only [ServerPhase.taken, Bool.toNat_false]; omega⟩
  | tell h =>
      simp only [h, ServerPhase.holds, ServerPhase.taken] at hone hcount
      exact ⟨by simp only [ServerPhase.holds, Bool.toNat_true]; omega,
        by simp only [ServerPhase.taken]; omega⟩
  | build h =>
      simp only [h, ServerPhase.holds, ServerPhase.taken] at hone hcount
      refine ⟨hone, ?_⟩
      simp only [ServerPhase.taken, List.length_append, List.length_singleton]
      omega
  | readSize h | readData h | writeSize h | writeData h | finish h =>
      rw [h] at hone hcount
      exact ⟨hone, hcount⟩

theorem client (ht : Tokens c s k) (hm : Client.Moves cfg pc c k c' k') : Tokens c' s k' := by
  obtain ⟨hone, hcount⟩ := ht
  cases hm with
  | silent => exact ⟨hone, hcount⟩
  | ask h =>
      simp only [h, ClientPhase.holds, ClientPhase.asked] at hone hcount
      exact ⟨by simp only [ClientPhase.holds, Bool.toNat_true]; omega,
        by simp only [ClientPhase.asked, Bool.toNat_true]; omega⟩
  | resume h hread =>
      simp only [h, hread, ClientPhase.holds, ClientPhase.asked, Bool.toNat_true] at hone hcount
      exact ⟨by simp only [ClientPhase.holds, Bool.toNat_false]; omega,
        by simp only [ClientPhase.asked]; omega⟩
  | deliver h =>
      simp only [h, ClientPhase.holds, ClientPhase.asked] at hone hcount
      refine ⟨hone, ?_⟩
      simp only [ClientPhase.asked, List.length_append, List.length_singleton]
      omega
  | build h | writeSize h | writeData h | readSize h | readData h =>
      rw [h] at hone hcount
      exact ⟨hone, hcount⟩

/-- While the server holds the sections it copies the request that the client is
    asking for. -/
theorem holds_eq (ht : Tokens c s k) (h : s.phase.holds = 1) :
    c.handed.length = s.received.length := by
  obtain ⟨hone, hcount⟩ := ht
  have htaken : s.phase.taken = 1 := by
    cases hp : s.phase <;> simp [hp, ServerPhase.holds, ServerPhase.taken] at h ⊢
  have hasked : c.phase.asked = 1 := by
    -- there is one token, and the server has it
    have hc : c.phase.holds = 0 := by omega
    cases hp : c.phase <;> simp [hp, ClientPhase.holds, ClientPhase.asked] at hc ⊢
  omega

/-- While the client is not asking, no request is on its way and the server does
    not hold the sections. -/
theorem free (ht : Tokens c s k) (h : c.phase.holds = 1) :
    k.made = false ∧ s.phase.holds = 0 := by
  obtain ⟨hone, -⟩ := ht
  refine ⟨?_, by omega⟩
  cases hm : k.made with
  | false => rfl
  | true =>
      rw [hm, Bool.toNat_true] at hone
      omega

/-- While the client awaits a reply, the server has received its request, unless
    it is about to hand it to the builder. -/
theorem awaiting_eq (ht : Tokens c s k) (hc : c.phase.holds = 1) (hasked : c.phase.asked = 1)
    (hb : s.phase ≠ .building) : s.received.length = c.handed.length + 1 := by
  obtain ⟨hmade, hholds⟩ := ht.free hc
  -- the server has none of its own, so only `building` could have taken a request
  have htaken : s.phase.taken = 0 := by
    cases hp : s.phase <;> simp [hp, ServerPhase.holds, ServerPhase.taken] at hholds hb ⊢
  have hcount := ht.count
  rw [hasked, htaken, hmade, Bool.toNat_false] at hcount
  omega

end Tokens

/-! ## Requests -/

/-- What the request sections hold, and what the server has made of them. -/
structure Requests (cfg : Config) (c : ClientView) (s : ServerView) (k : KernelView) : Prop where
  rdata : c.phase = .built ∨ c.phase = .sizeWritten → c.rdata = cfg.request c.handed.length
  size : c.phase = .sizeWritten ∨ c.phase = .written ∨ k.made = true ∨ s.phase = .reading →
    k.requestSize = intBytes (cfg.request c.handed.length).size
  data : c.phase = .written ∨ k.made = true ∨ s.phase = .reading ∨ s.phase = .sized →
    k.requestData (cfg.request c.handed.length).bytes.length =
      (cfg.request c.handed.length).bytes
  requestPacket : s.phase = .sized ∨ s.phase = .copied ∨ s.phase = .building →
    s.requestPacket = (cfg.request s.received.length).size
  request : s.phase = .copied ∨ s.phase = .building →
    s.request = (cfg.request s.received.length).bytes
  received : s.received = (List.range s.received.length).map fun i => (cfg.request i).received

namespace Requests

variable {cfg : Config} {pc : ClientPc} {c c' : ClientView} {s s' : ServerView}
  {k k' : KernelView}

theorem server (ht : Tokens c s k) (hr : Requests cfg c s k) (hm : Server.Moves cfg s k s' k') :
    Requests cfg c s' k' := by
  obtain ⟨hrdata, hsize, hdata, hpacket, hrequest, hreceived⟩ := hr
  cases hm with
  | silent => exact ⟨hrdata, hsize, hdata, hpacket, hrequest, hreceived⟩
  | take h hmade =>
      -- what the event announced is what the sections hold
      have hs := hsize (.inr (.inr (.inl hmade)))
      have hd := hdata (.inr (.inl hmade))
      exact ⟨hrdata, fun _ => hs, fun _ => hd, by simp, by simp, hreceived⟩
  | readSize h =>
      have heq := ht.holds_eq (by rw [h]; rfl)
      have hs := hsize (.inr (.inr (.inr h)))
      have hd := hdata (.inr (.inr (.inl h)))
      refine ⟨hrdata, fun _ => hs, fun _ => hd, ?_, by simp, hreceived⟩
      intro _
      rw [hs, bytesInt_intBytes, heq]
  | readData h =>
      have heq := ht.holds_eq (by rw [h]; rfl)
      have hp := hpacket (.inl h)
      have hd := hdata (.inr (.inr (.inr h)))
      refine ⟨hrdata, ?_, fun _ => hd, fun _ => hp, ?_, hreceived⟩
      · simp only [h] at hsize
        simpa using hsize
      · intro _
        rw [hp, Packet.size_toNat, ← heq]
        exact hd
  | tell h =>
      have hp := hpacket (.inr (.inl h))
      have hq := hrequest (.inl h)
      simp only [h] at hsize hdata
      exact ⟨hrdata, by simpa using hsize, by simpa using hdata, fun _ => hp, fun _ => hq,
        hreceived⟩
  | build h =>
      have hp := hpacket (.inr (.inr h))
      have hq := hrequest (.inr h)
      simp only [h] at hsize hdata
      refine ⟨hrdata, by simpa using hsize, by simpa using hdata, by simp, by simp, ?_⟩
      apply snoc_eq_map_range hreceived
      rw [hp, hq, Packet.received]
  | writeSize h | writeData h | finish h =>
      simp only [h] at hsize hdata
      exact ⟨hrdata, by simpa using hsize, by simpa using hdata, by simp, by simp, hreceived⟩

theorem client (ht : Tokens c s k) (hr : Requests cfg c s k)
    (hm : Client.Moves cfg pc c k c' k') : Requests cfg c' s k' := by
  obtain ⟨hrdata, hsize, hdata, hpacket, hrequest, hreceived⟩ := hr
  cases hm with
  | silent => exact ⟨hrdata, hsize, hdata, hpacket, hrequest, hreceived⟩
  | build h =>
      simp only [h] at hsize hdata
      exact ⟨fun _ => rfl, by simpa using hsize, by simpa using hdata, hpacket, hrequest, hreceived⟩
  | writeSize h =>
      have heq := hrdata (.inl h)
      simp only [h] at hdata
      exact ⟨fun _ => heq, fun _ => by rw [heq], by simpa using hdata, hpacket, hrequest, hreceived⟩
  | writeData h requestData hd =>
      have heq := hrdata (.inr h)
      have hs := hsize (.inl h)
      rw [heq] at hd
      exact ⟨by simp, fun _ => hs, fun _ => hd, hpacket, hrequest, hreceived⟩
  | ask h =>
      have hs := hsize (.inr (.inl h))
      have hd := hdata (.inl h)
      exact ⟨by simp, fun _ => hs, fun _ => hd, hpacket, hrequest, hreceived⟩
  | resume h | readSize h | readData h =>
      simp only [h] at hsize hdata
      exact ⟨by simp, by simpa using hsize, by simpa using hdata, hpacket, hrequest, hreceived⟩
  | deliver h =>
      -- the count moves on, and no one has the sections but the client
      obtain ⟨hmade, hholds⟩ := ht.free (by rw [h]; rfl)
      have hreading : s.phase ≠ .reading := by
        intro hp
        simp [hp, ServerPhase.holds] at hholds
      have hsized : s.phase ≠ .sized := by
        intro hp
        simp [hp, ServerPhase.holds] at hholds
      exact ⟨by simp, by simp [hmade, hreading], by simp [hmade, hreading, hsized], hpacket,
        hrequest, hreceived⟩

end Requests

/-! ## Replies -/

/-- The server has not yet written the size of the reply to a request it has copied. -/
def ServerPhase.owesSize : ServerPhase → Prop
  | .building | .built => True
  | _ => False

/-- The server has not yet written the reply to a request it has copied. -/
def ServerPhase.owesData : ServerPhase → Prop
  | .building | .built | .sizeWritten => True
  | _ => False

instance : (p : ServerPhase) → Decidable p.owesSize
  | .building | .built => isTrue trivial
  | .idle | .reading | .sized | .copied | .sizeWritten | .replied => isFalse not_false

instance : (p : ServerPhase) → Decidable p.owesData
  | .building | .built | .sizeWritten => isTrue trivial
  | .idle | .reading | .sized | .copied | .replied => isFalse not_false

/-- What the reply sections hold, and what the client has made of them. -/
structure Replies (cfg : Config) (c : ClientView) (s : ServerView) (k : KernelView) : Prop where
  response : ∀ n, s.received.length = n + 1 → s.phase = .built ∨ s.phase = .sizeWritten →
    s.response = cfg.reply n
  size : ∀ n, s.received.length = n + 1 → s.phase ≠ .built →
    k.replySize = intBytes (cfg.reply n).size
  data : ∀ n, s.received.length = n + 1 → s.phase ≠ .built → s.phase ≠ .sizeWritten →
    k.replyData (cfg.reply n).bytes.length = (cfg.reply n).bytes
  packet : c.phase = .gotSize ∨ c.phase = .gotData → c.packet = (cfg.reply c.handed.length).size
  copy : c.phase = .gotData → c.data = (cfg.reply c.handed.length).bytes
  handed : c.handed = (List.range c.handed.length).map fun i => (cfg.reply i).received

namespace Replies

variable {cfg : Config} {pc : ClientPc} {c c' : ClientView} {s s' : ServerView}
  {k k' : KernelView}

theorem server (hq : Requests cfg c s k) (hr : Replies cfg c s k)
    (hm : Server.Moves cfg s k s' k') : Replies cfg c s' k' := by
  obtain ⟨hresp, hsize, hdata, hpacket, hcopy, hhanded⟩ := hr
  cases hm with
  | silent => exact ⟨hresp, hsize, hdata, hpacket, hcopy, hhanded⟩
  | take h | readSize h | readData h | tell h | finish h =>
      -- the reply of the last round stays where it is
      refine ⟨by simp, fun n hn _ => hsize n hn (by simp [h]), ?_, hpacket, hcopy,
        hhanded⟩
      intro n hn _ _
      exact hdata n hn (by simp [h]) (by simp [h])
  | build h =>
      have hreq : (s.requestPacket, some s.request) =
          (cfg.request s.received.length).received := by
        rw [hq.requestPacket (.inr (.inr h)), hq.request (.inr h), Packet.received]
      have hrec := snoc_eq_map_range hq.received hreq
      refine ⟨?_, by simp, by simp, hpacket, hcopy, hhanded⟩
      intro n hn _
      show cfg.builder (s.received ++ [(s.requestPacket, some s.request)]) = _
      rw [hrec, hn]
      rfl
  | writeSize h =>
      refine ⟨fun n hn _ => hresp n hn (.inl h), ?_, by simp, hpacket, hcopy,
        hhanded⟩
      intro n hn _
      show intBytes s.response.size = _
      rw [hresp n hn (.inl h)]
  | writeData h replyData hd =>
      refine ⟨by simp, fun n hn _ => hsize n hn (by simp [h]), ?_, hpacket, hcopy,
        hhanded⟩
      intro n hn _ _
      rw [hresp n hn (.inr h)] at hd
      exact hd

/-- The client reads the reply to its request if the server does not owe it. -/
theorem client (ht : Tokens c s k) (hr : Replies cfg c s k)
    (hs : pc = .readSize → ¬ s.phase.owesSize) (hd : pc = .readData → ¬ s.phase.owesData)
    (hm : Client.Moves cfg pc c k c' k') : Replies cfg c' s k' := by
  obtain ⟨hresp, hsize, hdata, hpacket, hcopy, hhanded⟩ := hr
  cases hm with
  | silent => exact ⟨hresp, hsize, hdata, hpacket, hcopy, hhanded⟩
  | build h | writeSize h | writeData h | ask h | resume h =>
      exact ⟨hresp, hsize, hdata, by simp, by simp, hhanded⟩
  | readSize h hpc =>
      have howes := hs hpc
      have hb : s.phase ≠ .building := fun hp => howes (by rw [hp]; trivial)
      have hb' : s.phase ≠ .built := fun hp => howes (by rw [hp]; trivial)
      have hlen := ht.awaiting_eq (by rw [h]; rfl) (by rw [h]; rfl) hb
      refine ⟨hresp, hsize, hdata, ?_, by simp, hhanded⟩
      intro _
      show bytesInt k.replySize = _
      rw [hsize _ hlen hb', bytesInt_intBytes]
  | readData h hpc =>
      have howes := hd hpc
      have hb : s.phase ≠ .building := fun hp => howes (by rw [hp]; trivial)
      have hb' : s.phase ≠ .built := fun hp => howes (by rw [hp]; trivial)
      have hb'' : s.phase ≠ .sizeWritten := fun hp => howes (by rw [hp]; trivial)
      have hlen := ht.awaiting_eq (by rw [h]; rfl) (by rw [h]; rfl) hb
      have hp := hpacket (.inl h)
      refine ⟨hresp, hsize, hdata, fun _ => hp, ?_, hhanded⟩
      intro _
      show k.replyData c.packet.toNat = _
      rw [hp, Packet.size_toNat]
      exact hdata _ hlen hb' hb''
  | deliver h =>
      have hp := hpacket (.inr h)
      have hc := hcopy h
      refine ⟨hresp, hsize, hdata, by simp, by simp, ?_⟩
      apply snoc_eq_map_range hhanded
      rw [hp, hc, Packet.received]

end Replies

/-! ## Runs -/

theorem Client.start_phase (cfg : Config) : (Client.start cfg).view.phase = .idle := by
  unfold Client.start Client.view
  split <;> rfl

theorem Server.start_phase (cfg : Config) : (Server.start cfg).view.phase = .idle := by
  unfold Server.start Server.view
  split <;> rfl

/-- What holds in every run: the events, the tokens and the requests. -/
structure Passing (cfg : Config) (s : State) : Prop where
  events : s.EventsReady
  tokens : Tokens s.client.view s.server.view s.kernel.view
  requests : Requests cfg s.client.view s.server.view s.kernel.view

theorem passing_init (cfg : Config) : Passing cfg (conversation cfg).init := by
  have hc := Client.start_phase cfg
  have hs := Server.start_phase cfg
  refine ⟨eventsReady_init cfg, ⟨?_, ?_⟩, ⟨?_, ?_, ?_, ?_, ?_, rfl⟩⟩
  · show (Client.start cfg).view.phase.holds + 0 + (Server.start cfg).view.phase.holds + 0 = 1
    rw [hc, hs]
    rfl
  · show 0 + (Client.start cfg).view.phase.asked = 0 + (Server.start cfg).view.phase.taken + 0
    rw [hc, hs]
    rfl
  all_goals simp [conversation, hc, hs, Kernel.start, Kernel.view]

theorem passing_step {cfg : Config} {s s' : State} {a : Proc} (h : Passing cfg s)
    (hs : (conversation cfg).step a s = some s') : Passing cfg s' := by
  have hevents := eventsReady_step h.events hs
  rcases conversation_step hs with ⟨c, k, -, hstep, rfl⟩ | ⟨srv, k, -, hstep, rfl⟩
  · have hm := Client.moves_of_step h.events hstep
    exact ⟨hevents, h.tokens.client hm, h.requests.client h.tokens hm⟩
  · have hm := Server.moves_of_step h.events hstep
    exact ⟨hevents, h.tokens.server hm, h.requests.server h.tokens hm⟩

/-- If the step is one of the client's two reads of the reply, the server does not
    owe what is read: it is not between copying the request and writing the size,
    or the data, of the reply to it. -/
def ReadsAfterWrites (s : State) (a : Proc) : Prop :=
  a = .client →
    (s.client.pc = .readSize → ¬ s.server.pc.phase.owesSize) ∧
      (s.client.pc = .readData → ¬ s.server.pc.phase.owesData)

instance (s : State) (a : Proc) : Decidable (ReadsAfterWrites s a) :=
  inferInstanceAs (Decidable (_ → (_ → ¬ _) ∧ (_ → ¬ _)))

/-- The builder has been handed the requests in turn, and the client hands over
    the replies that it made from them, in turn. -/
structure Answers (cfg : Config) (s : State) : Prop where
  received : s.server.received =
    (List.range s.server.received.length).map fun i => (cfg.request i).received
  handed : s.client.handed =
    (List.range s.client.handed.length).map fun i => (cfg.reply i).received

theorem replies_init (cfg : Config) :
    Replies cfg (Client.start cfg).view (Server.start cfg).view Kernel.start.view := by
  have hc := Client.start_phase cfg
  have hr : (Server.start cfg).view.received.length = 0 := rfl
  exact ⟨fun _ he => (by cases he), by simp [hr], by simp [hr], by simp [hc], by simp [hc], rfl⟩

theorem replies_step {cfg : Config} {s s' : State} {a : Proc} (h : Passing cfg s)
    (hr : Replies cfg s.client.view s.server.view s.kernel.view) (ha : ReadsAfterWrites s a)
    (hs : (conversation cfg).step a s = some s') :
    Replies cfg s'.client.view s'.server.view s'.kernel.view := by
  rcases conversation_step hs with ⟨c, k, rfl, hstep, rfl⟩ | ⟨srv, k, -, hstep, rfl⟩
  · obtain ⟨hsize, hdata⟩ := ha rfl
    exact hr.client h.tokens hsize hdata (Client.moves_of_step h.events hstep)
  · exact hr.server h.requests (Server.moves_of_step h.events hstep)

/-- In every run in which the client reads no reply that the server still owes,
    its k-th call is handed the reply to its k-th request. -/
theorem answers_of_readsAfterWrites {cfg : Config} {tr : List (State × Proc)} {s : State}
    (h : Exec (conversation cfg) tr s) (hreads : Meets ReadsAfterWrites tr) :
    ∀ t ∈ visited tr s, Answers cfg t := by
  have hinv : ∀ t ∈ visited tr s, Passing cfg t ∧
      Replies cfg t.client.view t.server.view t.kernel.view := by
    refine h.invariant_visited ⟨passing_init cfg, replies_init cfg⟩ ?_ hreads
    rintro t a t' ⟨hpass, hrep⟩ ha hs
    exact ⟨passing_step hpass hs, replies_step hpass hrep ha hs⟩
  intro t ht
  obtain ⟨hpass, hrep⟩ := hinv t ht
  exact ⟨hpass.requests.received, hrep.handed⟩

/-! ## Two rounds in order, and two that are not -/

/-- One-byte requests; the first reply is `"A"`, every later one `"B"`. -/
def twoReplies : Config :=
  { clientReuse := false, serverReuse := false
    request := fun _ => .ofByte 0x3F
    builder := fun received =>
      if received.length = 1 then .ofByte 0x41
      else .ofByte 0x42 }

/-- The client asks and the server copies the request. -/
def askAndCopy : List Proc := List.replicate 9 .client ++ List.replicate 10 .server

/-- The server writes the reply and sets its event. -/
def answer : List Proc := List.replicate 9 .server

/-- The client runs from its two waits to the end of its call. -/
def collect : List Proc := List.replicate 13 .client

/-- A round in the order that the events are meant to enforce; at its end the
    server is released as well. -/
def orderlyRound : List Proc := askAndCopy ++ answer ++ collect ++ List.replicate 2 .server

theorem orderlyRounds_answers :
    ∃ tr s, s.client.handed = [(1, some [0x41]), (1, some [0x42])] ∧
      Exec (conversation twoReplies) tr s ∧ ∀ t ∈ visited tr s, Answers twoReplies t := by
  have hrun : ((conversation twoReplies).runIf (fun s a => decide (ReadsAfterWrites s a))
      (orderlyRound ++ orderlyRound) (conversation twoReplies).init).map
        (fun s => s.client.handed) = some [(1, some [0x41]), (1, some [0x42])] := by
    decide +kernel
  obtain ⟨s, hs, hhanded⟩ := Option.map_eq_some_iff.mp hrun
  obtain ⟨tr, hexec, hmeets⟩ := Exec.of_runIf hs
  exact ⟨tr, s, hhanded, hexec,
    answers_of_readsAfterWrites hexec fun e he => of_decide_eq_true (hmeets e he)⟩

/-- In the second round the client does not wait for the server. -/
def hastyRounds : List Proc := orderlyRound ++ askAndCopy ++ collect

/-- `ServerMadeResponse` is still signalled from the first round, and the client
    hands over the first reply again. -/
theorem hastyRounds_not_answers :
    ∃ tr s, Exec (conversation twoReplies) tr s ∧
      s.client.handed = [(1, some [0x41]), (1, some [0x41])] ∧ ¬ Answers twoReplies s := by
  have hrun : ((conversation twoReplies).run hastyRounds).map (fun s => s.client.handed) =
      some [(1, some [0x41]), (1, some [0x41])] := by
    decide +kernel
  obtain ⟨s, hs, hhanded⟩ := Option.map_eq_some_iff.mp hrun
  obtain ⟨tr, hexec⟩ := Exec.of_run hs
  refine ⟨tr, s, hexec, hhanded, ?_⟩
  intro h
  have hreplies := h.handed
  rw [hhanded] at hreplies
  exact absurd hreplies (by decide)

end IpcWin.SharedMem
