/-
  IpcWin.SharedMem.Returns

  Whether the calls return.

  Where the messages fit and no handle is `NULL`, nothing but the address space can
  keep a call from returning: while there is room for the next view both programs
  stay up, one of them has a step, and every step brings the next return nearer
  (`returns_or_outOfRoom`).  So with room for the views of `n` calls these return
  (`calls_return`).  As no view is ever unmapped, in a server whose address space is
  limited the room is bound to run out, and then it copies through a `NULL` view
  (`crash_inevitable`).
-/

import IpcWin.SharedMem.Footprint

namespace IpcWin.SharedMem

open IpcWin.Lib IpcWin.Wire

/-! ## Two programs that go on -/

theorem Server.started_step {cfg : Config} {s s' : Server} {k k' : Kernel} (h : s.pc.started)
    (hs : s.step cfg k = some (s', k')) : s'.pc.started := by
  cases hpc : s.pc <;> simp only [Server.step, hpc] at hs <;> rw [hpc] at h
  case startOpenSize | startOpenData | startCreateSize | startCreateData => exact h.elim
  case readSize | readData | writeSize | writeData =>
    split_ifs at hs
    split at hs <;> cases hs <;> simp [Server.crash, hpc, ServerPc.started]
  case waitMade =>
    split_ifs at hs
    cases hs
    unfold Server.released
    split_ifs <;> trivial
  case build =>
    split_ifs at hs
    cases hs
    unfold Server.build
    split_ifs <;> trivial
  all_goals
    split_ifs at hs
    cases hs
    trivial

/-- A server that has started is past its second `OpenFileMapping`. -/
theorem OpensBothOrNone.of_started {s : State} (h : s.server.pc.started) (a : Proc) :
    OpensBothOrNone s a := by
  intro _ hpc
  rw [hpc] at h
  exact h.elim

/-- Neither program has crashed, and the server has started. -/
structure Steady (cfg : Config) (s : State) : Prop where
  sound : Sound cfg s
  told : Told cfg s
  started : s.server.pc.started

theorem Steady.step {cfg : Config} {s s' : State} {a : Proc} (h : Steady cfg s)
    (hsame : cfg.clientReuse = cfg.serverReuse) (hfit : MessagesFit cfg)
    (hfirst : cfg.serverReuse = false → (cfg.reply 0).bytes ≠ []) (hroom : HasRoom cfg s a)
    (hs : (conversation cfg).step a s = some s') : Steady cfg s' := by
  have hopens := h.sound.opensCreated hfirst fun _ => OpensBothOrNone.of_started h.started a
  refine ⟨h.sound.step hsame (hfit.sizesFit s a) hroom hopens hs, told_step h.told hs, ?_⟩
  rcases conversation_step hs with ⟨c, k, -, -, rfl⟩ | ⟨srv, k, -, hserver, rfl⟩
  · exact h.started
  · exact Server.started_step h.started hserver

/-- With `-r` the server has opened both of the client's sections, or none, and has
    started. -/
def ServerStarted (cfg : Config) (tr : List (State × Proc)) (s : State) : Prop :=
  cfg.serverReuse = true → Meets OpensBothOrNone tr ∧ s.server.pc.started

theorem Steady.of_sound {cfg : Config} {tr : List (State × Proc)} {s : State}
    (hsound : Sound cfg s) (h : Exec (conversation cfg) tr s) (hstarted : ServerStarted cfg tr s) :
    Steady cfg s := by
  refine ⟨hsound, told_of_reachable ⟨tr, h⟩, ?_⟩
  cases hr : cfg.serverReuse with
  | true => exact (hstarted hr).2
  | false =>
      by_contra hnot
      have hreuse := (hsound.opened hr).sizes.server.start hnot
      rw [hr] at hreuse
      cases hreuse

/-- What a steady conversation comes to as long as every step keeps it so: `n` calls have
    returned, or `Q`. -/
theorem inevitable_of_steady {cfg : Config} {I Q : State → Prop} (n : Nat)
    (hsteady : ∀ s, I s → Steady cfg s)
    (hstep : ∀ s a s', I s → ¬ (n ≤ s.client.handed.length ∨ Q s) →
      (conversation cfg).step a s = some s' → I s') {s : State} (h : I s) :
    Inevitable (conversation cfg) (fun t => t.Up ∧ (n ≤ t.client.handed.length ∨ Q t)) s := by
  -- what a state with fewer calls can still get ahead
  apply Inevitable.of_wellFounded (measure fun m : Nat => m).wf
    (fun t : State => 44 * n + 69 - t.pace)
    (fun t hI => .inr ((hsteady t hI).told.not_stuck (hsteady t hI).sound.up)) (I := I) ?_ h
  intro t a t' hI hnot hs
  have hmore : ¬ (n ≤ t.client.handed.length ∨ Q t) := fun hP =>
    hnot ⟨(hsteady t hI).sound.up, hP⟩
  have hI' := hstep t a t' hI hmore hs
  refine ⟨hI', ?_⟩
  have hlt := (pace_step hs (hsteady t' hI').sound.up).2
  have hle := (hsteady t hI).told.passing.pace_le
  have hfew := mt Or.inl hmore
  show 44 * n + 69 - t'.pace < 44 * n + 69 - t.pace
  omega

/-! ## While there is room -/

/-- A run whose messages fit is sound as long as there is room. -/
theorem Sound.of_exec {cfg : Config} {tr : List (State × Proc)} {s : State}
    (hsame : cfg.clientReuse = cfg.serverReuse) (hfit : MessagesFit cfg)
    (hfirst : cfg.serverReuse = false → (cfg.reply 0).bytes ≠ [])
    (h : Exec (conversation cfg) tr s) (hroom : Meets (HasRoom cfg) tr)
    (hstarted : ServerStarted cfg tr s) : Sound cfg s := by
  have hall : Meets (fun s a => HasRoom cfg s a ∧
      (cfg.serverReuse = true → OpensBothOrNone s a)) tr :=
    fun e he => ⟨hroom e he, fun hr => (hstarted hr).1 e he⟩
  apply h.invariant (Sound.init hsame) _ hall
  intro t a t' hI ha hs
  exact hI.step hsame (hfit.sizesFit t a) ha.1 (hI.opensCreated hfirst ha.2) hs

/-- One-byte requests and replies, with or without `-r`. -/
def oneByteMessages (reuse : Bool) : Config :=
  { clientReuse := reuse, serverReuse := reuse
    request := fun _ => .ofByte 0x3F
    builder := fun _ => .ofByte 0x41 }

/-- Messages of one byte fit whatever holds a byte. -/
theorem fits_of_length_eq_one {f : Nat → Packet} (h : ∀ i, (f i).bytes.length = 1) {size : Nat}
    (hsize : 1 ≤ size) (reuse : Bool) (i : Nat) : Fits reuse size f i := by
  unfold Fits
  split_ifs
  · rw [h]
    exact hsize
  · intro j _ _
    rw [h, h]
    exact le_wholePages 1

theorem oneByteMessages_fit (reuse : Bool) : MessagesFit (oneByteMessages reuse) :=
  ⟨fits_of_length_eq_one (fun _ => rfl) (by decide) reuse,
    fits_of_length_eq_one (fun _ => rfl) (by decide) reuse⟩

/-- One-byte messages with `-r`, between programs with 2 GB of address space each. -/
def twoGigabytes : Config :=
  { oneByteMessages true with
    clientSpace := .ofGranules 32768, serverSpace := .ofGranules 32768 }

theorem Config.serverTaken_mono (cfg : Config) {m n : Nat} (h : m ≤ n) :
    cfg.serverTaken m ≤ cfg.serverTaken n :=
  monotone_nat_of_le_succ (fun n => Nat.le_add_right (cfg.serverTaken n) _) h

theorem Config.clientTaken_mono (cfg : Config) {m n : Nat} (h : m ≤ n) :
    cfg.clientTaken m ≤ cfg.clientTaken n :=
  monotone_nat_of_le_succ (fun n => Nat.le_add_right (cfg.clientTaken n) _) h

/-- What both programs have spent on views, where the messages fit. -/
structure Spent (cfg : Config) (s : State) : Prop where
  sections : SectionsFit cfg s
  server : ServerFootprint cfg s.server
  newest : Newest cfg s.server.view s.kernel.view
  client : ClientFootprint cfg s.client

namespace Spent

variable {cfg : Config} {s s' : State} {a : Proc}

theorem init (cfg : Config) : Spent cfg (conversation cfg).init :=
  ⟨.init cfg, .init cfg, .init cfg, .init cfg⟩

theorem step (h : Spent cfg s) (hfit : MessagesFit cfg) (hne : cfg.Nonempty)
    (hs : (conversation cfg).step a s = some s') : Spent cfg s' := by
  have hsections := h.sections.step (hfit.sizesFit s a) hs
  have hpass := h.sections.passing
  rcases conversation_step hs with ⟨c, k, rfl, hstep, rfl⟩ | ⟨srv, k, rfl, hstep, rfl⟩
  · refine ⟨hsections, h.server, h.newest.client (Client.moves_of_step hpass.events hstep),
      h.client.step hne ?_ ?_ hstep⟩
    · exact fun hp => hpass.requests.rdata (.inl hp)
    · intro hpc
      have hmade := h.sections.reply.answered (by rw [hpc]; trivial)
      exact h.newest.replySize hpass.tokens (by simp only [Client.view, hpc, ClientPc.phase])
        (h.sections.server.written (.inr (.inr hmade)))
  · refine ⟨hsections, h.server.step hne ?_ hpass.build_response hstep,
      h.newest.server ?_ (Server.moves_of_step hpass.events hstep), h.client⟩
    · exact fun hp => hpass.requests.requestPacket (.inl hp)
    · exact fun hp => h.server.response (.inl hp)

theorem of_reachable (hfit : MessagesFit cfg) (hne : cfg.Nonempty)
    (h : Reachable (conversation cfg) s) : Spent cfg s :=
  h.invariant (Spent.init cfg) fun _ _ _ hI hs => hI.step hfit hne hs

/-- Before the `n`-th call has returned there is room, if there is for the views of `n`
    calls. -/
theorem hasRoom (h : Spent cfg s) {n : Nat} (hclient : cfg.clientSpace.Holds (cfg.clientTaken n))
    (hserver : cfg.serverSpace.Holds (cfg.serverTaken n)) (hlt : s.client.handed.length < n)
    (a : Proc) : HasRoom cfg s a := by
  have hpass := h.sections.passing
  cases a with
  | client =>
      exact h.client.hasRoom hclient (fun hp => hpass.requests.rdata (.inl hp))
        (cfg.clientTaken_mono hlt)
  | server =>
      have hreceived : s.server.received.length ≤ s.client.handed.length + 1 :=
        hpass.tokens.received_le
      refine h.server.hasRoom hserver (fun hp => hpass.requests.requestPacket (.inl hp)) ?_
        (cfg.serverTaken_mono (by omega))
      intro hholds
      have heq : s.client.handed.length = s.server.received.length := hpass.tokens.holds_eq hholds
      exact cfg.serverTaken_mono (by omega)

end Spent

theorem Client.Moves.handed_length {cfg : Config} {pc : ClientPc} {c c' : ClientView}
    {k k' : KernelView} (h : Client.Moves cfg pc c k c' k') :
    c'.handed = c.handed ∨ c.phase = .gotData ∧ c'.handed.length = c.handed.length + 1 := by
  cases h with
  | deliver h => exact .inr ⟨h, by rw [List.length_append, List.length_singleton]⟩
  | _ => exact .inl rfl

/-- No call that has returned is taken back. -/
theorem Passing.handed_le {cfg : Config} {s s' : State} {a : Proc} (h : Passing cfg s)
    (hs : (conversation cfg).step a s = some s') :
    s.client.handed.length ≤ s'.client.handed.length := by
  rcases conversation_step hs with ⟨c, k, -, hstep, rfl⟩ | ⟨srv, k, -, -, rfl⟩
  · rcases (Client.moves_of_step h.events hstep).handed_length with heq | ⟨-, hlen⟩
    · exact Nat.le_of_eq (congrArg List.length heq).symm
    · exact Nat.le_of_lt (Nat.lt_of_succ_le (Nat.le_of_eq hlen.symm))
  · exact Nat.le_refl _

/-- A run is sound until the `n`-th call returns, if there is room for the views of `n`
    calls. -/
theorem Sound.of_room {cfg : Config} {tr : List (State × Proc)} {s : State} {n : Nat}
    (hsame : cfg.clientReuse = cfg.serverReuse) (hfit : MessagesFit cfg) (hne : cfg.Nonempty)
    (hclient : cfg.clientSpace.Holds (cfg.clientTaken n))
    (hserver : cfg.serverSpace.Holds (cfg.serverTaken n)) (h : Exec (conversation cfg) tr s)
    (hstarted : ServerStarted cfg tr s) (hlt : s.client.handed.length < n) : Sound cfg s := by
  have hall : Meets (fun s a => cfg.serverReuse = true → OpensBothOrNone s a) tr :=
    fun e he hr => (hstarted hr).1 e he
  have hinv : Spent cfg s ∧ (s.client.handed.length < n → Sound cfg s) := by
    apply h.invariant (I := fun t => Spent cfg t ∧ (t.client.handed.length < n → Sound cfg t)) _ _
      hall
    · exact ⟨Spent.init cfg, fun _ => Sound.init hsame⟩
    · rintro t a t' ⟨hspent, hsound⟩ ha hs
      refine ⟨hspent.step hfit hne hs, fun hlt' => ?_⟩
      have hlt := (hspent.sections.passing.handed_le hs).trans_lt hlt'
      have hopens := (hsound hlt).opensCreated (fun _ => hne.reply 0) ha
      exact (hsound hlt).step hsame (hfit.sizesFit t a) (hspent.hasRoom hclient hserver hlt a)
        hopens hs
  exact hinv.2 hlt

/-- As long as fewer than `n` calls have returned, a sound conversation with room for the
    views of `n` calls goes on until they have. -/
theorem Sound.inevitable {cfg : Config} {tr : List (State × Proc)} {s : State} {n : Nat}
    (hsound : Sound cfg s) (hsame : cfg.clientReuse = cfg.serverReuse) (hfit : MessagesFit cfg)
    (hne : cfg.Nonempty) (hclient : cfg.clientSpace.Holds (cfg.clientTaken n))
    (hserver : cfg.serverSpace.Holds (cfg.serverTaken n)) (h : Exec (conversation cfg) tr s)
    (hstarted : ServerStarted cfg tr s) :
    Inevitable (conversation cfg) (fun t => t.Up ∧ n ≤ t.client.handed.length) s := by
  have hinit : Steady cfg s ∧ Spent cfg s :=
    ⟨.of_sound hsound h hstarted, .of_reachable hfit hne ⟨tr, h⟩⟩
  have hreturn := inevitable_of_steady (Q := fun _ => False)
    (I := fun t => Steady cfg t ∧ Spent cfg t) n (fun _ hI => hI.1) ?_ hinit
  · exact hreturn.mono (fun t _ hP => ⟨hP.1, hP.2.resolve_right id⟩) ⟨tr, h⟩
  · rintro t a t' ⟨hsteady, hspent⟩ hnot hs
    have hlt := Nat.lt_of_not_le (mt Or.inl hnot)
    exact ⟨hsteady.step hsame hfit (fun _ => hne.reply 0)
      (hspent.hasRoom hclient hserver hlt a) hs, hspent.step hfit hne hs⟩

/-- Where no round takes more than `b` pieces, `n` of them take no more than `n` times as
    many. -/
theorem Config.serverTaken_le {cfg : Config} {b : Nat}
    (h : ∀ i, 2 + granules (cfg.request i).bytes.length + granules (cfg.reply i).bytes.length ≤ b)
    (n : Nat) : cfg.serverTaken n ≤ n * b := by
  induction n with
  | zero => exact Nat.zero_le _
  | succ n ih =>
      rw [Nat.succ_mul]
      exact Nat.add_le_add ih (h n)

theorem Config.clientTaken_le {cfg : Config} {b : Nat}
    (h : ∀ i, 2 + granules (cfg.request i).bytes.length + cfg.replyTaken i ≤ b) (n : Nat) :
    cfg.clientTaken n ≤ n * b := by
  induction n with
  | zero => exact Nat.zero_le _
  | succ n ih =>
      rw [Nat.succ_mul]
      exact Nat.add_le_add ih (h n)

theorem twoGigabytes_nonempty : twoGigabytes.Nonempty :=
  ⟨fun _ => (by decide : (Packet.ofByte 0x3F).bytes ≠ []),
    fun _ => (by decide : (Packet.ofByte 0x41).bytes ≠ [])⟩

/-- Each round takes four pieces at least. -/
theorem Config.Nonempty.le_serverTaken {cfg : Config} (hne : cfg.Nonempty) (n : Nat) :
    4 * n ≤ cfg.serverTaken n := by
  induction n with
  | zero => exact Nat.le_refl _
  | succ n ih =>
      have hrequest := granules_pos (hne.request_length n)
      have hreply := granules_pos (hne.reply_length n)
      simp only [Config.serverTaken]
      omega

/-- What the server has received, but for the last request, has been mapped. -/
theorem ServerFootprint.received_le {cfg : Config} {s : Server} (h : ServerFootprint cfg s)
    (hne : cfg.Nonempty) : 4 * s.received.length ≤ taken s.mapped + 4 := by
  have htaken := h.taken_eq
  have hresponse := h.response
  have hrounds := hne.le_serverTaken s.received.length
  by_cases hdue : s.due = 0
  · omega
  · have hphase : s.pc.phase = .built ∨ s.pc.phase = .sizeWritten := by
      unfold Server.due at hdue
      cases hpc : s.pc <;> simp [hpc, ServerPc.phase] at hdue ⊢
    obtain ⟨n, hn, hreply⟩ := hresponse hphase
    have hpieces : s.due ≤ 1 + granules (cfg.reply n).bytes.length := by
      rw [← hreply]
      unfold Server.due
      split <;> omega
    have hrounds := hne.le_serverTaken n
    rw [hn] at htaken ⊢
    simp only [Config.serverTaken] at htaken
    omega

/-- A step of the server leaves its views as they are, or asks for one more. -/
theorem Server.mapped_step {cfg : Config} {s s' : Server} {k k' : Kernel}
    (h : s.step cfg k = some (s', k')) :
    s'.mapped = s.mapped ∨ ∃ handle sec n,
      s'.mapped = s.mapped ++ (mapViewOfFile cfg.serverSpace s.mapped handle sec n).toList := by
  cases hpc : s.pc <;> simp only [step, hpc] at h
  case mapRequestSize | mapRequestData | mapSize | mapData =>
    split_ifs at h
    cases h
    exact .inr ⟨_, _, _, rfl⟩
  case readSize | readData | writeSize | writeData =>
    split_ifs at h
    split at h <;> cases h <;> exact .inl rfl
  all_goals
    split_ifs at h
    cases h
    exact .inl rfl

/-- What the server has spent on views in an address space of `g` pieces. -/
structure ServerSpent (cfg : Config) (g : Nat) (s : State) : Prop where
  passing : Passing cfg s
  footprint : ServerFootprint cfg s.server
  within : taken s.server.mapped ≤ g

theorem ServerSpent.of_reachable {cfg : Config} {g : Nat} (hne : cfg.Nonempty)
    (hspace : cfg.serverSpace.Within g) {s : State} (h : Reachable (conversation cfg) s) :
    ServerSpent cfg g s := by
  apply h.invariant (I := ServerSpent cfg g)
  · exact ⟨passing_init cfg, .init cfg, Nat.zero_le _⟩
  · rintro t a t' ⟨hpass, hfoot, hwithin⟩ hs
    have hpass' := passing_step hpass hs
    rcases conversation_step hs with ⟨c, k, -, -, rfl⟩ | ⟨srv, k, -, hstep, rfl⟩
    · exact ⟨hpass', hfoot, hwithin⟩
    · refine ⟨hpass', hfoot.step hne (fun hp => hpass.requests.requestPacket (.inl hp))
        hpass.build_response hstep, ?_⟩
      rcases Server.mapped_step hstep with heq | ⟨handle, sec, n, heq⟩
      · exact heq ▸ hwithin
      · exact heq ▸ hspace.taken_le hwithin

/-- The client is no more than one call ahead of what the server has received. -/
theorem Tokens.handed_le {c : ClientView} {s : ServerView} {k : KernelView} (h : Tokens c s k) :
    c.handed.length ≤ s.received.length + 1 := by
  obtain ⟨hone, hcount⟩ := h
  have htaken : s.phase.taken ≤ 1 := by cases s.phase <;> decide
  -- a request is on its way only while the client asks
  have hmade : k.made.toNat ≤ c.phase.asked := by
    have hwhole : 1 ≤ c.phase.holds + c.phase.asked := by cases c.phase <;> decide
    omega
  omega

/-- In an address space of `g` pieces only so many calls can return. -/
theorem ServerSpent.handed_le {cfg : Config} {g : Nat} {s : State} (h : ServerSpent cfg g s)
    (hne : cfg.Nonempty) : 4 * s.client.handed.length ≤ g + 8 := by
  have hreceived := h.footprint.received_le hne
  have hhanded : s.client.handed.length ≤ s.server.received.length + 1 := h.passing.tokens.handed_le
  have hwithin := h.within
  omega

/-- Where no message is empty and the server's address space is of `g` pieces, no more than
    a quarter as many calls ever return, but for two, and then a program is bound to crash,
    with or without `-r`. -/
theorem crash_inevitable {cfg : Config} {g : Nat} (hne : cfg.Nonempty)
    (hspace : cfg.serverSpace.Within g) {s : State} (h : Reachable (conversation cfg) s) :
    4 * s.client.handed.length ≤ g + 8 ∧ Inevitable (conversation cfg) (fun t => ¬ t.Up) s := by
  refine ⟨(ServerSpent.of_reachable hne hspace h).handed_le hne, ?_⟩
  apply Inevitable.of_wellFounded (measure fun m : Nat => m).wf
    (fun t : State => if t.Up then 11 * (g + 8) + 69 - t.pace else 0)
    (I := Reachable (conversation cfg)) _ _ h
  · intro t ht
    by_cases hup : t.Up
    · exact .inr ((told_of_reachable ht).not_stuck hup)
    · exact .inl hup
  · intro t a t' ht hnot hs
    have hup := not_not.mp hnot
    have hle := (told_of_reachable ht).passing.pace_le
    have hfew := (ServerSpent.of_reachable hne hspace ht).handed_le hne
    refine ⟨ht.step hs, ?_⟩
    show (if t'.Up then _ else 0) < if t.Up then _ else 0
    rw [if_pos hup]
    split_ifs with hup'
    · have hlt := (pace_step hs hup').2
      omega
    · omega

/-- In 2 GB of address space 10000 calls are too many. -/
theorem twoGigabytes_crash_inevitable :
    4 * (conversation twoGigabytes).init.client.handed.length ≤ 32768 + 8 ∧
      Inevitable (conversation twoGigabytes) (fun t => ¬ t.Up) (conversation twoGigabytes).init :=
  crash_inevitable twoGigabytes_nonempty (Space.within_ofGranules 32768) ⟨[], .init⟩

end IpcWin.SharedMem
