/-
  IpcWin.SharedMem.Accumulation

  Whether the rounds accumulate handles and views.

  A message that does not fit its section cannot be mapped, and the copy through
  the `NULL` view ends the program, so only so many rounds are ever completed.
  Where every message fits nothing but the address space ends the rounds, and each
  of them costs either program four events at least that it never closes
  (`heldBounded_iff_not_messagesFit`).
-/

import IpcWin.SharedMem.Resources
import IpcWin.SharedMem.Returns

namespace IpcWin.SharedMem

open IpcWin.Lib IpcWin.Wire

/-! ## Messages that are too long -/

/-- So many bytes cannot be mapped from the section. -/
def TooLong (sec : Option Section) (n : Nat) : Prop := ∀ v, sec = some v → v.capacity < n

theorem TooLong.not_mapped {sec : Option Section} {n : Nat} (h : TooLong sec n) (space : Space)
    (mapped : List Nat) (handle : Bool) :
    (mapViewOfFile space mapped handle sec n).isSome = false := by
  cases hview : mapViewOfFile space mapped handle sec n with
  | none => rfl
  | some bytes =>
      obtain ⟨v, hv, -, hle, -⟩ := mapViewOfFile_eq_some.mp hview
      exact absurd hle (Nat.not_le.mpr (h v hv))

theorem createFileMapping_of_isSome {sec : Option Section} (h : sec.isSome = true) (size : Nat) :
    createFileMapping size sec = sec := by
  obtain ⟨v, rfl⟩ := Option.isSome_iff_exists.mp h
  rfl

theorem FirstNonempty.unique {f : Nat → Packet} {i j : Nat} (hi : FirstNonempty f i)
    (hj : FirstNonempty f j) : i = j := by
  rcases Nat.lt_trichotomy i j with hlt | heq | hgt
  · exact absurd (hj.1 i hlt) hi.2
  · exact heq
  · exact absurd (hi.1 j hgt) hj.2

/-- The next message is too long for the section if it does not fit, and without `-r`
    there is one. -/
theorem SectionSize.tooLong {reuse : Bool} {size i : Nat} {f : Nat → Packet}
    {sec : Option Section} (h : SectionSize reuse size f i (sec.map Section.size))
    (hpages : wholePages size = size) (hnot : ¬ Fits reuse size f i) :
    TooLong sec (f i).bytes.length ∧ (f i).bytes ≠ [] ∧ (reuse = false → sec.isSome = true) := by
  unfold Fits at hnot
  split_ifs at hnot with hr
  · refine ⟨?_, ?_, fun hf => absurd hr (by simp [hf])⟩
    · intro v hv
      rw [hv, Option.map_some, SectionSize.some_of_reuse hr] at h
      show wholePages v.size < _
      rw [h, hpages]
      omega
    · intro hnil
      rw [hnil] at hnot
      exact hnot (Nat.zero_le _)
  · have hr := eq_false_of_ne_true hr
    simp only [not_forall, not_le] at hnot
    obtain ⟨j, hji, hfirst, hlong⟩ := hnot
    have hlt : j < i := by
      -- it fits a section of its own size
      rcases Nat.lt_or_eq_of_le hji with hlt | rfl
      · exact hlt
      · exact absurd hlong (Nat.not_lt.mpr (le_wholePages _))
    refine ⟨?_, ?_, ?_⟩
    · intro v hv
      rw [hv, Option.map_some, SectionSize.some_of_not_reuse hr] at h
      obtain ⟨j', -, hfirst', hsize⟩ := h
      show wholePages v.size < _
      rw [hsize, hfirst'.unique hfirst]
      exact hlong
    · intro hnil
      rw [hnil] at hlong
      exact absurd hlong (Nat.not_lt_zero _)
    · intro _
      cases sec with
      | some v => rfl
      | none => exact absurd (h hr j hlt) hfirst.2

/-! ## The end of a client -/

/-- The request in hand is too long, and the client will end before it tells the
    server of it. -/
structure ClientDoomed (c : Client) (k : Kernel) : Prop where
  building : c.pc.phase = .built ∨ c.pc.phase = .sizeWritten
  long : TooLong k.clientMessageData c.rdata.bytes.length
  nonempty : c.rdata.bytes ≠ []
  created : c.pc = .createSize ∨ c.pc = .createData → k.clientMessageData.isSome = true
  unmapped : c.pc = .writeSize ∨ c.pc = .writeData → c.rdataView = false

theorem ClientDoomed.server_step {cfg : Config} {c : Client} {s s' : Server} {k k' : Kernel}
    (h : ClientDoomed c k) (hs : s.step cfg k = some (s', k')) : ClientDoomed c k' := by
  obtain ⟨-, hdata, -⟩ := Server.step_frame hs
  refine { h with long := ?_, created := ?_ }
  · rw [hdata]
    exact h.long
  · rw [hdata]
    exact h.created

theorem ClientDoomed.step {cfg : Config} {c c' : Client} {k k' : Kernel} (h : ClientDoomed c k)
    (hs : c.step cfg k = some (c', k')) : ClientDoomed c' k' ∧ c'.handed = c.handed := by
  obtain ⟨hphase, hlong, hne, hcreated, hunmapped⟩ := h
  -- the places from the first `CreateFileMapping` to the copy that fails
  cases hpc : c.pc <;> simp only [Client.step, hpc] at hs <;>
    simp only [hpc, ClientPc.phase, reduceCtorEq, or_self] at hphase
  case createSize =>
    split_ifs at hs
    cases hs
    exact ⟨⟨.inl rfl, hlong, hne, fun _ => hcreated (.inl hpc), by simp⟩, rfl⟩
  case createData =>
    split_ifs at hs
    cases hs
    rw [createFileMapping_of_isSome (hcreated (.inr hpc))]
    exact ⟨⟨.inl rfl, hlong, hne, by simp, by simp⟩, rfl⟩
  case mapRequestSize =>
    split_ifs at hs
    cases hs
    exact ⟨⟨.inl rfl, hlong, hne, by simp, by simp⟩, rfl⟩
  case mapRequestData =>
    split_ifs at hs
    cases hs
    exact ⟨⟨.inl rfl, hlong, hne, by simp, fun _ => hlong.not_mapped ..⟩, rfl⟩
  case writeSize =>
    have hview := hunmapped (.inl hpc)
    split_ifs at hs
    split at hs
    · cases hs
      exact ⟨⟨by simp [Client.crash, hpc, ClientPc.phase], hlong, hne, hcreated,
        fun _ => hview⟩, rfl⟩
    · cases hs
      exact ⟨⟨.inr rfl, hlong, hne, by simp, fun _ => hview⟩, rfl⟩
  case writeData =>
    rw [hunmapped (.inr hpc), copyTo_of_no_view hne] at hs
    split_ifs at hs
    cases hs
    exact ⟨⟨by simp [Client.crash, hpc, ClientPc.phase], hlong, hne, hcreated, hunmapped⟩, rfl⟩

/-- Every request handled so far fits, and the one in hand does too or ends the
    client. -/
structure ClientGoes (cfg : Config) (c : Client) (k : Kernel) : Prop where
  sections : ClientSections cfg c k ∨ ClientDoomed c k
  fits : ∀ i < c.handed.length, Fits cfg.clientReuse (3000 * 1024) cfg.request i

/-- Where a client builds a request that does not fit. -/
theorem ClientSections.doomed {cfg : Config} {c : Client} {k : Kernel}
    (h : ClientSections cfg c k) (hpc : c.pc = .build)
    (hnot : ¬ Fits cfg.clientReuse (3000 * 1024) cfg.request c.handed.length) :
    ClientDoomed (c.build cfg) k := by
  have hdata := h.data
  simp only [hpc, ClientPc.created, Nat.add_zero] at hdata
  obtain ⟨hlong, hne, hsome⟩ := hdata.tooLong (by decide) hnot
  refine ⟨?_, hlong, hne, ?_, ?_⟩
  · cases hr : cfg.clientReuse <;> simp [Client.build, hr, ClientPc.phase]
  · cases hr : cfg.clientReuse with
    | false => exact fun _ => hsome hr
    | true => simp [Client.build, hr]
  · cases hr : cfg.clientReuse <;> simp [Client.build, hr]

theorem ClientGoes.step {cfg : Config} {c c' : Client} {spc : ServerPc} {k k' : Kernel}
    (h : ClientGoes cfg c k) (hk : EventsReady spc c.pc k)
    (hrdata : c.pc.phase = .built → c.rdata = cfg.request c.handed.length)
    (hs : c.step cfg k = some (c', k')) : ClientGoes cfg c' k' := by
  obtain ⟨hsec | hdoomed, hfits⟩ := h
  · refine ⟨?_, ?_⟩
    · by_cases hfit : c.pc = .build →
          Fits cfg.clientReuse (3000 * 1024) cfg.request c.handed.length
      · exact .inl (hsec.step hrdata hfit hs)
      · obtain ⟨hpc, hnot⟩ := Classical.not_imp.mp hfit
        simp only [Client.step, hpc] at hs
        split_ifs at hs
        cases hs
        exact .inr (hsec.doomed hpc hnot)
    · rcases (Client.moves_of_step hk hs).handed_length with heq | ⟨hphase, hlen⟩
      · have heq : c'.handed = c.handed := heq
        rw [heq]
        exact hfits
      · intro i hi
        have hphase : c.pc.phase = .gotData := hphase
        have hlen : c'.handed.length = c.handed.length + 1 := hlen
        rw [hlen] at hi
        rcases Nat.lt_succ_iff_lt_or_eq.mp hi with hlt | rfl
        · exact hfits i hlt
        · exact hsec.fits (by simp [hphase])
  · obtain ⟨hdoomed', hhanded⟩ := hdoomed.step hs
    refine ⟨.inr hdoomed', ?_⟩
    rw [hhanded]
    exact hfits

/-! ## The end of a server -/

/-- The reply in hand is too long, and the server will end before it tells the client
    of it. -/
structure ServerDoomed (s : Server) (k : Kernel) : Prop where
  building : s.pc.phase = .built ∨ s.pc.phase = .sizeWritten
  long : TooLong k.serverMessageData s.response.bytes.length
  nonempty : s.response.bytes ≠ []
  created : s.pc = .createSize ∨ s.pc = .createData → k.serverMessageData.isSome = true
  unmapped : s.pc = .writeSize ∨ s.pc = .writeData → s.dataView = false

theorem ServerDoomed.client_step {cfg : Config} {s : Server} {c c' : Client} {k k' : Kernel}
    (h : ServerDoomed s k) (hs : c.step cfg k = some (c', k')) : ServerDoomed s k' := by
  obtain ⟨-, hdata, -⟩ := Client.step_frame hs
  refine { h with long := ?_, created := ?_ }
  · rw [hdata]
    exact h.long
  · rw [hdata]
    exact h.created

theorem ServerDoomed.step {cfg : Config} {s s' : Server} {k k' : Kernel} (h : ServerDoomed s k)
    (hs : s.step cfg k = some (s', k')) : ServerDoomed s' k' ∧ s'.received = s.received := by
  obtain ⟨hphase, hlong, hne, hcreated, hunmapped⟩ := h
  -- the places from the first `CreateFileMapping` to the copy that fails
  cases hpc : s.pc <;> simp only [Server.step, hpc] at hs <;>
    simp only [hpc, ServerPc.phase, reduceCtorEq, or_self] at hphase
  case createSize =>
    split_ifs at hs
    cases hs
    exact ⟨⟨.inl rfl, hlong, hne, fun _ => hcreated (.inl hpc), by simp⟩, rfl⟩
  case createData =>
    split_ifs at hs
    cases hs
    rw [createFileMapping_of_isSome (hcreated (.inr hpc))]
    exact ⟨⟨.inl rfl, hlong, hne, by simp, by simp⟩, rfl⟩
  case mapSize =>
    split_ifs at hs
    cases hs
    exact ⟨⟨.inl rfl, hlong, hne, by simp, by simp⟩, rfl⟩
  case mapData =>
    split_ifs at hs
    cases hs
    exact ⟨⟨.inl rfl, hlong, hne, by simp, fun _ => hlong.not_mapped ..⟩, rfl⟩
  case writeSize =>
    have hview := hunmapped (.inl hpc)
    split_ifs at hs
    split at hs
    · cases hs
      exact ⟨⟨by simp [Server.crash, hpc, ServerPc.phase], hlong, hne, hcreated,
        fun _ => hview⟩, rfl⟩
    · cases hs
      exact ⟨⟨.inr rfl, hlong, hne, by simp, fun _ => hview⟩, rfl⟩
  case writeData =>
    rw [hunmapped (.inr hpc), copyTo_of_no_view hne] at hs
    split_ifs at hs
    cases hs
    exact ⟨⟨by simp [Server.crash, hpc, ServerPc.phase], hlong, hne, hcreated, hunmapped⟩, rfl⟩

/-- Where a server builds a reply that does not fit. -/
theorem ServerSections.doomed {cfg : Config} {s : Server} {k : Kernel}
    (h : ServerSections cfg s k) (hpc : s.pc = .build)
    (hreply : (s.build cfg).response = cfg.reply s.received.length)
    (hnot : ¬ Fits cfg.serverReuse (5000 * 1024) cfg.reply s.received.length) :
    ServerDoomed (s.build cfg) k := by
  have hdata := h.data
  simp only [hpc, ServerPc.uncreated, Nat.sub_zero] at hdata
  obtain ⟨hlong, hne, hsome⟩ := hdata.tooLong (by decide) hnot
  refine ⟨?_, hreply ▸ hlong, hreply ▸ hne, ?_, ?_⟩
  · cases hr : cfg.serverReuse <;> simp [Server.build, hr, ServerPc.phase]
  · cases hr : cfg.serverReuse with
    | false => exact fun _ => hsome hr
    | true => simp [Server.build, hr]
  · cases hr : cfg.serverReuse <;> simp [Server.build, hr]

/-- Every reply built fits, but the last may end the server. -/
def ServerGoes (cfg : Config) (s : Server) (k : Kernel) : Prop :=
  ServerSections cfg s k ∨
    ServerDoomed s k ∧
      ∀ i, i + 1 < s.received.length → Fits cfg.serverReuse (5000 * 1024) cfg.reply i

theorem ServerGoes.fits {cfg : Config} {s : Server} {k : Kernel} (h : ServerGoes cfg s k) {i : Nat}
    (hi : i + 1 < s.received.length) : Fits cfg.serverReuse (5000 * 1024) cfg.reply i := by
  rcases h with hsec | ⟨-, hfits⟩
  · exact hsec.fits i (by omega)
  · exact hfits i hi

theorem ServerGoes.step {cfg : Config} {s s' : Server} {k k' : Kernel} (h : ServerGoes cfg s k)
    (hreply : s.pc = .build → (s.build cfg).response = cfg.reply s.received.length)
    (hs : s.step cfg k = some (s', k')) : ServerGoes cfg s' k' := by
  rcases h with hsec | ⟨hdoomed, hfits⟩
  · by_cases hfit : s.pc = .build →
        Fits cfg.serverReuse (5000 * 1024) cfg.reply s.received.length
    · exact .inl (hsec.step hreply hfit hs)
    · obtain ⟨hpc, hnot⟩ := Classical.not_imp.mp hfit
      simp only [Server.step, hpc] at hs
      split_ifs at hs
      cases hs
      refine .inr ⟨hsec.doomed hpc (hreply hpc) hnot, fun i hi => hsec.fits i ?_⟩
      simp only [Server.build, List.length_append, List.length_singleton] at hi
      omega
  · obtain ⟨hdoomed', hreceived⟩ := hdoomed.step hs
    refine .inr ⟨hdoomed', ?_⟩
    rw [hreceived]
    exact hfits

/-! ## What goes through fits -/

/-- What holds in every run. -/
structure Goes (cfg : Config) (s : State) : Prop where
  passing : Passing cfg s
  client : ClientGoes cfg s.client s.kernel
  server : ServerGoes cfg s.server s.kernel

theorem Goes.init (cfg : Config) : Goes cfg (conversation cfg).init := by
  obtain ⟨hpass, hclient, hserver, -⟩ := SectionsFit.init cfg
  exact ⟨hpass, ⟨.inl hclient, fun i hi => absurd hi (Nat.not_lt_zero i)⟩, .inl hserver⟩

theorem Goes.step {cfg : Config} {s s' : State} {a : Proc} (h : Goes cfg s)
    (hs : (conversation cfg).step a s = some s') : Goes cfg s' := by
  have hpass := passing_step h.passing hs
  rcases conversation_step hs with ⟨c, k, rfl, hstep, rfl⟩ | ⟨srv, k, rfl, hstep, rfl⟩
  · refine ⟨hpass, h.client.step h.passing.events ?_ hstep, ?_⟩
    · intro hp
      exact h.passing.requests.rdata (.inl hp)
    · rcases h.server with hsec | ⟨hdoomed, hfits⟩
      · exact .inl (hsec.client_step hstep)
      · exact .inr ⟨hdoomed.client_step hstep, hfits⟩
  · refine ⟨hpass, ⟨?_, h.client.fits⟩, h.server.step h.passing.build_response hstep⟩
    rcases h.client.sections with hsec | hdoomed
    · exact .inl (hsec.server_step hstep)
    · exact .inr (hdoomed.server_step hstep)

theorem Goes.of_reachable {cfg : Config} {s : State} (h : Reachable (conversation cfg) s) :
    Goes cfg s :=
  h.invariant (Goes.init cfg) fun _ _ _ hI hs => hI.step hs

/-! ## Handles and views -/

/-- Where the address space has no end, any number of calls is made in some run. -/
theorem exists_handed {cfg : Config} (hsame : cfg.clientReuse = cfg.serverReuse)
    (hfit : MessagesFit cfg) (hfirst : cfg.serverReuse = false → (cfg.reply 0).bytes ≠ [])
    (hclient : cfg.clientSpace = .endless) (hserver : cfg.serverSpace = .endless) (n : Nat) :
    ∃ s, Reachable (conversation cfg) s ∧ n ≤ s.client.handed.length := by
  have hroom : ∀ s a, HasRoom cfg s a := by
    rintro s (_ | _) m - -
    · rw [hclient]
      rfl
    · rw [hserver]
      rfl
  obtain ⟨tr, s, hexec, hstarted⟩ : ∃ tr s, Exec (conversation cfg) tr s ∧
      ServerStarted cfg tr s := by
    cases hr : cfg.serverReuse with
    | false => exact ⟨[], _, .init, fun htrue => by rw [hr] at htrue; cases htrue⟩
    | true =>
        -- the server starts alone
        have hrun : ((conversation cfg).runIf (fun s a => decide (OpensBothOrNone s a))
            (List.replicate 4 .server) (conversation cfg).init).map
              (fun s => s.server.pc) = some .openMade := by
          simp [System.runIf, conversation, Server.step, Server.start, Kernel.start, hr,
            OpensBothOrNone, List.replicate]
        obtain ⟨s, hs, hpc⟩ := Option.map_eq_some_iff.mp hrun
        obtain ⟨tr, hexec, hmeets⟩ := Exec.of_runIf hs
        exact ⟨tr, s, hexec, fun _ => ⟨fun e he => of_decide_eq_true (hmeets e he),
          by rw [hpc]; trivial⟩⟩
  have hreturn : Inevitable (conversation cfg)
      (fun t => t.Up ∧ (n ≤ t.client.handed.length ∨ False)) s := by
    have hsound := Sound.of_exec hsame hfit hfirst hexec (fun e _ => hroom e.1 e.2) hstarted
    apply inevitable_of_steady n (fun _ hI => hI) _ (Steady.of_sound hsound hexec hstarted)
    exact fun t a t' hI _ hs => hI.step hsame hfit hfirst (hroom t a) hs
  obtain ⟨tr', t, hexec', -, hn⟩ := hreturn.exec hexec
  exact ⟨t, ⟨tr', hexec'⟩, hn.resolve_right id⟩

/-- So long as there is room, nothing bounds what the client holds. -/
theorem MessagesFit.not_heldBounded {cfg : Config} (hfit : MessagesFit cfg)
    (hsame : cfg.clientReuse = cfg.serverReuse)
    (hfirst : cfg.serverReuse = false → (cfg.reply 0).bytes ≠ [])
    (hclient : cfg.clientSpace = .endless) (hserver : cfg.serverSpace = .endless) :
    ¬ HeldBounded cfg := by
  rintro ⟨B, hB⟩
  obtain ⟨t, ht, hn⟩ := exists_handed hsame hfit hfirst hclient hserver (B + 1)
  obtain ⟨held, hs⟩ : ∃ held, Reachable (accounts cfg) (t, held) := ht.beside
  have hgrows := HeldGrows.of_reachable hs
  have hreturned := hgrows.client.returned
  have hleast := hgrows.le_client
  have hmost := (hB (t, held) hs).1
  simp only at hreturned hleast hmost
  omega

/-- Each program has completed one round and has something left over from it. -/
def LeftOver (s : State × Held) : Prop :=
  (s.2.client.returned = 1 ∧ s.2.server.returned = 1) ∧
    ¬ s.2.client.Balanced Client.global ∧ ¬ s.2.server.Balanced Server.global

instance (s : State × Held) : Decidable (LeftOver s) :=
  inferInstanceAs (Decidable ((_ ∧ _) ∧ ¬ _ ∧ ¬ _))

theorem leftOver_of_run {cfg : Config} (as : List Proc)
    (h : ((accounts cfg).run as).any (fun s => decide (LeftOver s)) = true) :
    ∃ s, Reachable (accounts cfg) s ∧ LeftOver s := by
  cases hrun : (accounts cfg).run as with
  | none =>
      rw [hrun] at h
      cases h
  | some s =>
      rw [hrun] at h
      exact ⟨s, Exec.of_run hrun, of_decide_eq_true h⟩

/-- Two programs that exchange single bytes hold more and more handles, in either mode, and
    the first round already leaves something over. -/
theorem oneByteMessages_not_settled :
    (¬ HeldBounded (oneByteMessages true) ∧ ¬ HeldBounded (oneByteMessages false)) ∧
      (∃ s, Reachable (accounts (oneByteMessages true)) s ∧ LeftOver s) ∧
        ∃ s, Reachable (accounts (oneByteMessages false)) s ∧ LeftOver s := by
  have hreply : ((oneByteMessages false).reply 0).bytes ≠ [] := by decide
  refine ⟨⟨?_, ?_⟩, ?_, ?_⟩
  · exact (oneByteMessages_fit true).not_heldBounded rfl (fun hr => by cases hr) rfl rfl
  · exact (oneByteMessages_fit false).not_heldBounded rfl (fun _ => hreply) rfl rfl
  · -- the server starts alone
    exact leftOver_of_run (serverFirst ++ List.replicate 11 .server ++
      List.replicate 11 .client ++ List.replicate 2 .server) (by decide +kernel)
  · exact leftOver_of_run orderlyRound (by decide +kernel)

end IpcWin.SharedMem
