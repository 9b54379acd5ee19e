/-
  IpcWin.SharedMem.Capacities

  Which messages fit the section they are mapped from.

  A section has the size it was created with and no handle to it is ever closed,
  so every later message goes through the same section.  With `-r` it is created
  once, for 3000 KB of request and 5000 KB of reply.  Without, the first message
  that is not empty creates it in its own size, and `CreateFileMapping` for the
  later ones returns it as it is.  Neither program compares a message with the
  section before it maps it.
-/

import IpcWin.SharedMem.Handles

namespace IpcWin.SharedMem

open IpcWin.Lib IpcWin.Wire

/-! ## What should hold, and what it takes -/

/-- Every `MapViewOfFile` through a valid handle asks for no more than the section
    holds. -/
def MapsFit (s : State) : Prop :=
  ∀ m, s.Maps m → m.handle = true → ∀ sec, m.sec = some sec → m.bytes ≤ sec.capacity

/-- The first of the messages that is not empty is the `j`-th. -/
def FirstNonempty (f : Nat → Packet) (j : Nat) : Prop :=
  (∀ k < j, (f k).bytes = []) ∧ (f j).bytes ≠ []

instance (f : Nat → Packet) (j : Nat) : Decidable (FirstNonempty f j) :=
  inferInstanceAs (Decidable (_ ∧ _))

/-- A number of bytes in whole pages. -/
def wholePages (n : Nat) : Nat := (n + 4095) / 4096 * 4096

theorem le_wholePages (n : Nat) : n ≤ wholePages n := by
  unfold wholePages
  omega

/-- The `i`-th message is no longer than what is created at the start with `-r`, and
    otherwise than the first message that is not empty, in whole pages. -/
def Fits (reuse : Bool) (size : Nat) (f : Nat → Packet) (i : Nat) : Prop :=
  if reuse then (f i).bytes.length ≤ size
  else ∀ j ≤ i, FirstNonempty f j → (f i).bytes.length ≤ wholePages (f j).bytes.length

instance (reuse : Bool) (size : Nat) (f : Nat → Packet) (i : Nat) :
    Decidable (Fits reuse size f i) := by
  unfold Fits
  infer_instance

/-- If the step builds a message, it fits. -/
def SizesFit (cfg : Config) (s : State) (a : Proc) : Prop :=
  (a = .client → s.client.pc = .build →
    Fits cfg.clientReuse (3000 * 1024) cfg.request s.client.handed.length) ∧
  (a = .server → s.server.pc = .build →
    Fits cfg.serverReuse (5000 * 1024) cfg.reply s.server.received.length)

instance (cfg : Config) (s : State) (a : Proc) : Decidable (SizesFit cfg s a) :=
  inferInstanceAs (Decidable ((_ → _ → _) ∧ (_ → _ → _)))

/-! ## Sections keep their size -/

theorem size_of_createFileMapping {size : Nat} {sec : Option Section} {v : Section}
    (h : createFileMapping size sec = some v) :
    sec = some v ∨ (sec = none ∧ size ≠ 0 ∧ v.size = size) := by
  cases sec with
  | some w => exact .inl h
  | none =>
      rw [createFileMapping] at h
      split_ifs at h with hsize
      cases h
      exact .inr ⟨rfl, hsize, rfl⟩

theorem size_of_copyTo {view : Bool} {sec sec' : Option Section} {bytes : List Byte}
    (h : copyTo view sec bytes = some sec') :
    sec'.map Section.size = sec.map Section.size := by
  unfold copyTo at h
  split_ifs at h
  · rw [← Option.some.inj h]
  · obtain ⟨v, hv, rfl⟩ := Option.map_eq_some_iff.mp h
    rw [hv]
    rfl

/-- The size of a section through which the first `n` messages have gone: the one it
    is created with, or that of the first message that was not empty. -/
def SectionSize (reuse : Bool) (size : Nat) (f : Nat → Packet) (n : Nat) :
    Option Nat → Prop
  | none => reuse = false → ∀ i < n, (f i).bytes = []
  | some v => if reuse then v = size else ∃ j < n, FirstNonempty f j ∧ v = (f j).bytes.length

namespace SectionSize

variable {reuse : Bool} {size n : Nat} {f : Nat → Packet} {sec : Option Section}

theorem some_of_reuse (hr : reuse = true) {v : Nat} :
    SectionSize reuse size f n (some v) ↔ v = size := by
  rw [SectionSize, if_pos hr]

theorem some_of_not_reuse (hr : reuse = false) {v : Nat} :
    SectionSize reuse size f n (some v) ↔ ∃ j < n, FirstNonempty f j ∧ v = (f j).bytes.length := by
  rw [SectionSize, if_neg (by simp [hr])]

/-- The section is created at the start. -/
theorem start (hr : reuse = true) (h : SectionSize reuse size f n (sec.map Section.size)) :
    SectionSize reuse size f n ((createFileMapping size sec).map Section.size) := by
  cases hc : createFileMapping size sec with
  | none => exact fun hf => by simp [hr] at hf
  | some v =>
      rcases size_of_createFileMapping hc with rfl | ⟨-, -, hv⟩
      · exact h
      · exact (some_of_reuse hr).mpr hv

/-- The section is created for the next message. -/
theorem create (hr : reuse = false) (h : SectionSize reuse size f n (sec.map Section.size)) :
    SectionSize reuse size f (n + 1)
      ((createFileMapping (f n).bytes.length sec).map Section.size) := by
  cases hc : createFileMapping (f n).bytes.length sec with
  | none =>
      -- there was no section, and none can be created for nothing
      intro _ i hi
      cases sec with
      | some v => simp [createFileMapping] at hc
      | none =>
          rcases Nat.lt_succ_iff_lt_or_eq.mp hi with hlt | rfl
          · exact h hr i hlt
          · simpa [createFileMapping] using hc
  | some v =>
      apply (some_of_not_reuse hr).mpr
      rcases size_of_createFileMapping hc with rfl | ⟨rfl, hne, hv⟩
      · obtain ⟨j, hj, hfirst, hsize⟩ := (some_of_not_reuse hr).mp h
        exact ⟨j, by omega, hfirst, hsize⟩
      · refine ⟨n, by omega, ⟨h hr, ?_⟩, hv⟩
        intro hnil
        exact hne (by rw [hnil, List.length_nil])

/-- With `-r` it does not matter how many messages have gone through. -/
theorem of_reuse (hr : reuse = true) (h : SectionSize reuse size f n (sec.map Section.size))
    (n' : Nat) : SectionSize reuse size f n' (sec.map Section.size) := by
  cases sec with
  | none => exact fun hf => by simp [hr] at hf
  | some v => exact (some_of_reuse hr).mpr ((some_of_reuse hr).mp h)

/-- A message that fits is no longer than the section in whole pages. -/
theorem fits {v : Section} {i : Nat} (h : SectionSize reuse size f n (some v.size))
    (hfit : Fits reuse size f i) : (f i).bytes.length ≤ v.capacity := by
  unfold Fits at hfit
  show _ ≤ wholePages v.size
  split_ifs at hfit with hr
  · rw [(some_of_reuse hr).mp h]
    exact hfit.trans (le_wholePages size)
  · obtain ⟨j, -, hfirst, hsize⟩ := (some_of_not_reuse (eq_false_of_ne_true hr)).mp h
    rw [hsize]
    rcases Nat.lt_or_ge i j with hlt | hle
    · -- in front of the first message that is not empty it is empty
      rw [hfirst.1 i hlt]
      exact Nat.zero_le _
    · exact hfit j hle hfirst

end SectionSize

/-- A size word fits the section that was created for it. -/
theorem four_le_capacity {sec : Option Section} {v : Section}
    (h : ∀ n, sec.map Section.size = some n → n = 4) (hv : sec = some v) : 4 ≤ v.capacity := by
  have hsize : v.size = 4 := by
    apply h
    rw [hv, Option.map_some]
  rw [Section.capacity, hsize]
  decide

theorem size_createFileMapping_four {sec : Option Section}
    (h : ∀ n, sec.map Section.size = some n → n = 4) :
    ∀ n, (createFileMapping 4 sec).map Section.size = some n → n = 4 := by
  intro n hn
  obtain ⟨v, hv, rfl⟩ := Option.map_eq_some_iff.mp hn
  rcases size_of_createFileMapping hv with rfl | ⟨-, -, hsize⟩
  · exact h _ rfl
  · exact hsize

/-! ## The request sections -/

/-- One once the section for the request in hand has been asked for. -/
def ClientPc.created : ClientPc → Nat
  | .startCreateSize | .startCreateData | .startOpenSize | .startOpenData => 0
  | .build | .createSize | .createData => 0
  | _ => 1

/-- The two request sections, and the request that goes through them. -/
structure ClientSections (cfg : Config) (c : Client) (k : Kernel) : Prop where
  start : c.pc = .startCreateSize ∨ c.pc = .startCreateData → cfg.clientReuse = true
  create : c.pc = .createSize ∨ c.pc = .createData → cfg.clientReuse = false
  size : ∀ n, k.sizeOfDataRequest.map Section.size = some n → n = 4
  data : SectionSize cfg.clientReuse (3000 * 1024) cfg.request
    (c.handed.length + c.pc.created) (k.clientMessageData.map Section.size)
  fits : c.pc.phase ≠ .idle → Fits cfg.clientReuse (3000 * 1024) cfg.request c.handed.length

/-- No step of the server touches what the client's sections are to be. -/
theorem ClientSections.server_step {cfg : Config} {c : Client} {s s' : Server} {k k' : Kernel}
    (h : ClientSections cfg c k) (hs : s.step cfg k = some (s', k')) : ClientSections cfg c k' := by
  obtain ⟨hsize, hdata, -⟩ := Server.step_frame hs
  refine { h with size := ?_, data := ?_ }
  · rw [hsize]
    exact h.size
  · rw [hdata]
    exact h.data

/-- A step that creates no section and begins no request. -/
theorem ClientSections.keep {cfg : Config} {c c' : Client} {k k' : Kernel}
    (h : ClientSections cfg c k)
    (hpc : ¬ (c'.pc = .startCreateSize ∨ c'.pc = .startCreateData) ∧
      ¬ (c'.pc = .createSize ∨ c'.pc = .createData))
    (hcount : c'.handed.length + c'.pc.created = c.handed.length + c.pc.created)
    (hphase : c'.pc.phase ≠ .idle → c.pc.phase ≠ .idle ∧ c'.handed = c.handed)
    (hsize : k'.sizeOfDataRequest.map Section.size = k.sizeOfDataRequest.map Section.size)
    (hdata : k'.clientMessageData.map Section.size = k.clientMessageData.map Section.size) :
    ClientSections cfg c' k' := by
  refine ⟨fun hp => absurd hp hpc.1, fun hp => absurd hp hpc.2, ?_, ?_, ?_⟩
  · rw [hsize]
    exact h.size
  · rw [hcount, hdata]
    exact h.data
  · intro hp
    obtain ⟨hold, hhanded⟩ := hphase hp
    rw [hhanded]
    exact h.fits hold

theorem ClientSections.step {cfg : Config} {c c' : Client} {k k' : Kernel}
    (h : ClientSections cfg c k)
    (hrdata : c.pc.phase = .built → c.rdata = cfg.request c.handed.length)
    (hfits : c.pc = .build → Fits cfg.clientReuse (3000 * 1024) cfg.request c.handed.length)
    (hs : c.step cfg k = some (c', k')) : ClientSections cfg c' k' := by
  have hdata := h.data
  cases hpc : c.pc <;> simp only [Client.step, hpc] at hs <;>
    simp only [hpc, ClientPc.created] at hdata
  case startCreateSize =>
    split_ifs at hs
    cases hs
    exact ⟨fun _ => h.start (.inl hpc), by simp, size_createFileMapping_four h.size, hdata,
      by simp [ClientPc.phase]⟩
  case startCreateData =>
    split_ifs at hs
    cases hs
    exact ⟨by simp, by simp, h.size, hdata.start (h.start (.inr hpc)), by simp [ClientPc.phase]⟩
  case build =>
    split_ifs at hs
    cases hs
    have hfit := hfits hpc
    unfold Client.build
    cases hr : cfg.clientReuse with
    | true => exact ⟨by simp, by simp, h.size, hr ▸ hdata.of_reuse hr _, fun _ => hr ▸ hfit⟩
    | false => exact ⟨by simp, fun _ => hr, h.size, hdata, fun _ => hfit⟩
  case createSize =>
    split_ifs at hs
    cases hs
    exact ⟨by simp, fun _ => h.create (.inl hpc), size_createFileMapping_four h.size, hdata,
      fun _ => h.fits (by simp [hpc, ClientPc.phase])⟩
  case createData =>
    split_ifs at hs
    cases hs
    have hreq := hrdata (by rw [hpc]; rfl)
    refine ⟨by simp, by simp, h.size, ?_, fun _ => h.fits (by simp [hpc, ClientPc.phase])⟩
    rw [hreq]
    exact hdata.create (h.create (.inr hpc))
  case waitResponse =>
    split_ifs at hs
    cases hs
    unfold Client.released
    split_ifs <;>
      exact h.keep (by simp) (by simp [hpc, ClientPc.created]) (by simp [hpc, ClientPc.phase]) rfl rfl
  case writeSize | writeData =>
    split_ifs at hs
    split at hs
    · cases hs
      exact h.keep (by simp [Client.crash, hpc]) rfl (fun hp => ⟨hp, rfl⟩) rfl rfl
    · rename_i sec hsec
      cases hs
      exact h.keep (by simp) (by simp [hpc, ClientPc.created]) (by simp [hpc, ClientPc.phase])
        (by first | rfl | exact size_of_copyTo hsec) (by first | rfl | exact size_of_copyTo hsec)
  case readSize | readData =>
    split_ifs at hs
    split at hs
    · cases hs
      exact h.keep (by simp [Client.crash, hpc]) rfl (fun hp => ⟨hp, rfl⟩) rfl rfl
    · cases hs
      exact h.keep (by simp) (by simp [hpc, ClientPc.created]) (by simp [hpc, ClientPc.phase])
        rfl rfl
  -- every other step creates nothing, and the last one ends the request
  all_goals
    split_ifs at hs
    cases hs
    exact h.keep (by simp) (by simp [hpc, ClientPc.created]) (by simp [hpc, ClientPc.phase]) rfl rfl

/-! ## The reply sections -/

/-- One until the section for the reply in hand has been asked for. -/
def ServerPc.uncreated : ServerPc → Nat
  | .createSize | .createData => 1
  | _ => 0

/-- The server has set the event of its reply, or created it to be set. -/
def ServerPc.told : ServerPc → Prop
  | .setResponse | .openReadResponse | .waitReadResponse => True
  | _ => False

/-- The two reply sections, and the replies that have gone through them. -/
structure ServerSections (cfg : Config) (s : Server) (k : Kernel) : Prop where
  start : ¬ s.pc.started → cfg.serverReuse = true
  create : s.pc = .createSize ∨ s.pc = .createData → cfg.serverReuse = false
  size : ∀ n, k.sizeOfData.map Section.size = some n → n = 4
  data : SectionSize cfg.serverReuse (5000 * 1024) cfg.reply
    (s.received.length - s.pc.uncreated) (k.serverMessageData.map Section.size)
  fits : ∀ i < s.received.length, Fits cfg.serverReuse (5000 * 1024) cfg.reply i
  response : s.pc.phase = .built ∨ s.pc.phase = .sizeWritten →
    ∃ n, s.received.length = n + 1 ∧ s.response = cfg.reply n
  written : s.pc.phase = .sizeWritten ∨ s.pc.phase = .replied ∨
      k.serverMadeResponse.isSome = true →
    ∃ j < s.received.length, contents k.sizeOfData 4 = intBytes (cfg.reply j).size
  told : s.pc.told → k.serverMadeResponse.isSome = true

/-- No step of the client touches what the server's sections are to be. -/
theorem ServerSections.client_step {cfg : Config} {s : Server} {c c' : Client} {k k' : Kernel}
    (h : ServerSections cfg s k) (hs : c.step cfg k = some (c', k')) : ServerSections cfg s k' := by
  obtain ⟨hsize, hdata, hmade⟩ := Client.step_frame hs
  refine { h with size := ?_, data := ?_, written := ?_, told := ?_ }
  · rw [hsize]
    exact h.size
  · rw [hdata]
    exact h.data
  · rw [hsize, hmade]
    exact h.written
  · rw [hmade]
    exact h.told

/-- A step behind the start that creates no section and builds no reply. -/
theorem ServerSections.keep {cfg : Config} {s s' : Server} {k k' : Kernel}
    (h : ServerSections cfg s k) (hst : s'.pc.started)
    (hpc : s'.pc.uncreated = 0 ∧ s.pc.uncreated = 0)
    (hreceived : s'.received = s.received ∧ s'.response = s.response)
    (hbuilt : s'.pc.phase = .built ∨ s'.pc.phase = .sizeWritten →
      s.pc.phase = .built ∨ s.pc.phase = .sizeWritten)
    (hwritten : s'.pc.phase = .sizeWritten ∨ s'.pc.phase = .replied →
      s.pc.phase = .sizeWritten ∨ s.pc.phase = .replied)
    (htold : s'.pc.told → s.pc.told)
    (hsize : k'.sizeOfData = k.sizeOfData)
    (hdata : k'.serverMessageData.map Section.size = k.serverMessageData.map Section.size)
    (hmade : k'.serverMadeResponse.isSome = k.serverMadeResponse.isSome) :
    ServerSections cfg s' k' := by
  have hcreate : ¬ (s'.pc = .createSize ∨ s'.pc = .createData) := by
    rintro (heq | heq) <;> simp [heq, ServerPc.uncreated] at hpc
  refine ⟨fun hn => absurd hst hn, fun hc => absurd hc hcreate, ?_, ?_, ?_, ?_, ?_, ?_⟩
  · rw [hsize]
    exact h.size
  · have hold := h.data
    rw [hpc.2] at hold
    rw [hdata, hreceived.1, hpc.1]
    exact hold
  · rw [hreceived.1]
    exact h.fits
  · rw [hreceived.1, hreceived.2]
    exact fun hp => h.response (hbuilt hp)
  · rw [hreceived.1, hsize, hmade]
    intro hp
    apply h.written
    rcases hp with hp | hp | hp
    · rcases hwritten (.inl hp) with hw | hw
      · exact .inl hw
      · exact .inr (.inl hw)
    · rcases hwritten (.inr hp) with hw | hw
      · exact .inl hw
      · exact .inr (.inl hw)
    · exact .inr (.inr hp)
  · rw [hmade]
    exact fun ht => h.told (htold ht)

theorem ServerSections.step {cfg : Config} {s s' : Server} {k k' : Kernel}
    (h : ServerSections cfg s k)
    (hreply : s.pc = .build → (s.build cfg).response = cfg.reply s.received.length)
    (hfits : s.pc = .build → Fits cfg.serverReuse (5000 * 1024) cfg.reply s.received.length)
    (hs : s.step cfg k = some (s', k')) : ServerSections cfg s' k' := by
  obtain ⟨hstart, hcreate, hsize, hdata, hfit, hresp, hwritten, htold⟩ := h
  have h : ServerSections cfg s k :=
    ⟨hstart, hcreate, hsize, hdata, hfit, hresp, hwritten, htold⟩
  cases hpc : s.pc <;> simp only [Server.step, hpc] at hs <;>
    simp only [hpc, ServerPc.uncreated, Nat.sub_zero] at hdata
  case startOpenSize | startOpenData =>
    split_ifs at hs
    cases hs
    have hr := hstart (by simp [hpc, ServerPc.started])
    refine ⟨fun _ => hr, by simp, hsize, hdata, hfit, by simp [ServerPc.phase], ?_,
      by simp [ServerPc.told]⟩
    intro hw
    exact hwritten (.inr (.inr (by simpa [ServerPc.phase] using hw)))
  case startCreateSize =>
    split_ifs at hs
    cases hs
    have hr := hstart (by simp [hpc, ServerPc.started])
    refine ⟨fun _ => hr, by simp, size_createFileMapping_four hsize, hdata, hfit,
      by simp [ServerPc.phase], ?_, by simp [ServerPc.told]⟩
    intro hw
    rw [contents_createFileMapping]
    exact hwritten (.inr (.inr (by simpa [ServerPc.phase] using hw)))
  case startCreateData =>
    split_ifs at hs
    cases hs
    have hr := hstart (by simp [hpc, ServerPc.started])
    refine ⟨fun _ => hr, by simp, hsize, hdata.start hr, hfit, by simp [ServerPc.phase],
      ?_, by simp [ServerPc.told]⟩
    intro hw
    exact hwritten (.inr (.inr (by simpa [ServerPc.phase] using hw)))
  case waitMade =>
    split_ifs at hs
    cases hs
    unfold Server.released
    split_ifs <;>
      exact h.keep trivial (by simp [hpc, ServerPc.uncreated]) ⟨rfl, rfl⟩ (by simp [ServerPc.phase])
        (by simp [ServerPc.phase]) (by simp [ServerPc.told]) rfl rfl rfl
  case build =>
    split_ifs at hs
    cases hs
    have hnew := hreply hpc
    have hfit' : ∀ i < (s.received ++ [(s.requestPacket, some s.request)]).length,
        Fits cfg.serverReuse (5000 * 1024) cfg.reply i := by
      intro i hi
      rw [List.length_append, List.length_singleton] at hi
      rcases Nat.lt_succ_iff_lt_or_eq.mp hi with hlt | rfl
      · exact hfit i hlt
      · exact hfits hpc
    have hresp' : ∃ n, (s.received ++ [(s.requestPacket, some s.request)]).length = n + 1 ∧
        (s.build cfg).response = cfg.reply n := ⟨s.received.length, by simp, hnew⟩
    have hwritten' : k.serverMadeResponse.isSome = true →
        ∃ j < (s.received ++ [(s.requestPacket, some s.request)]).length,
          contents k.sizeOfData 4 = intBytes (cfg.reply j).size := by
      intro hw
      obtain ⟨j, hj, heq⟩ := hwritten (.inr (.inr hw))
      refine ⟨j, ?_, heq⟩
      rw [List.length_append]
      omega
    unfold Server.build at hresp' ⊢
    cases hr : cfg.serverReuse with
    | true =>
        refine ⟨fun _ => hr, by simp, hsize, ?_, hfit', fun _ => hresp', ?_,
          by simp [ServerPc.told]⟩
        · rw [hr] at hdata
          exact hr ▸ hdata.of_reuse rfl _
        · intro hw
          exact hwritten' (by simpa [ServerPc.phase] using hw)
    | false =>
        refine ⟨by simp [ServerPc.started], fun _ => hr, hsize, ?_, hfit', fun _ => hresp',
          ?_, by simp [ServerPc.told]⟩
        · simpa [ServerPc.uncreated] using hdata
        · intro hw
          exact hwritten' (by simpa [ServerPc.phase] using hw)
  case createSize =>
    split_ifs at hs
    cases hs
    have hr := hcreate (.inl hpc)
    refine ⟨by simp [ServerPc.started], fun _ => hr, size_createFileMapping_four hsize, hdata,
      hfit, fun _ => hresp (.inl (by rw [hpc]; rfl)), ?_, by simp [ServerPc.told]⟩
    intro hw
    rw [contents_createFileMapping]
    exact hwritten (.inr (.inr (by simpa [ServerPc.phase] using hw)))
  case createData =>
    split_ifs at hs
    cases hs
    have hr := hcreate (.inr hpc)
    obtain ⟨n, hn, hnew⟩ := hresp (.inl (by rw [hpc]; rfl))
    refine ⟨by simp [ServerPc.started], by simp, hsize, ?_, hfit, fun _ => ⟨n, hn, hnew⟩,
      ?_, by simp [ServerPc.told]⟩
    · -- the section is asked for in the size of the reply in hand
      rw [hn, Nat.add_sub_cancel] at hdata
      have hnext := hdata.create hr
      rw [← hnew, ← hn] at hnext
      exact hnext
    · intro hw
      exact hwritten (.inr (.inr (by simpa [ServerPc.phase] using hw)))
  case writeSize =>
    split_ifs at hs
    split at hs
    · cases hs
      exact h.keep (by simp [Server.crash, hpc, ServerPc.started])
        (by simp [Server.crash, hpc, ServerPc.uncreated]) ⟨rfl, rfl⟩ id id id rfl rfl rfl
    · rename_i sec hsec
      cases hs
      obtain ⟨n, hn, hnew⟩ := hresp (.inl (by rw [hpc]; rfl))
      have hlt : n < s.received.length := by omega
      refine ⟨by simp [ServerPc.started], by simp, ?_, hdata, hfit, fun _ => ⟨n, hn, hnew⟩,
        fun _ => ⟨n, hlt, ?_⟩, by simp [ServerPc.told]⟩
      · rw [size_of_copyTo hsec]
        exact hsize
      · rw [contents_intBytes hsec, hnew]
  case writeData =>
    split_ifs at hs
    split at hs
    · cases hs
      exact h.keep (by simp [Server.crash, hpc, ServerPc.started])
        (by simp [Server.crash, hpc, ServerPc.uncreated]) ⟨rfl, rfl⟩ id id id rfl rfl rfl
    · rename_i sec hsec
      cases hs
      exact h.keep trivial (by simp [hpc, ServerPc.uncreated]) ⟨rfl, rfl⟩ (by simp [ServerPc.phase])
        (by simp [hpc, ServerPc.phase]) (by simp [ServerPc.told]) rfl (size_of_copyTo hsec) rfl
  case readSize | readData =>
    split_ifs at hs
    split at hs
    · cases hs
      exact h.keep (by simp [Server.crash, hpc, ServerPc.started])
        (by simp [Server.crash, hpc, ServerPc.uncreated]) ⟨rfl, rfl⟩ id id id rfl rfl rfl
    · cases hs
      exact h.keep trivial (by simp [hpc, ServerPc.uncreated]) ⟨rfl, rfl⟩ (by simp [ServerPc.phase])
        (by simp [ServerPc.phase]) (by simp [ServerPc.told]) rfl rfl rfl
  case createResponse =>
    split_ifs at hs
    cases hs
    refine ⟨by simp [ServerPc.started], by simp, hsize, hdata, hfit, by simp [ServerPc.phase],
      fun _ => hwritten (.inr (.inl (by rw [hpc]; rfl))), fun _ => isSome_createEvent _ _⟩
  case setResponse =>
    split_ifs at hs
    cases hs
    exact h.keep trivial (by simp [hpc, ServerPc.uncreated]) ⟨rfl, rfl⟩ (by simp [ServerPc.phase])
      (by simp [hpc, ServerPc.phase]) (by simp [hpc, ServerPc.told]) rfl rfl (isSome_setEvent _)
  -- every other step creates nothing, builds nothing and tells nothing new
  all_goals
    split_ifs at hs
    cases hs
    exact h.keep trivial (by simp [hpc, ServerPc.uncreated]) ⟨rfl, rfl⟩
      (by simp [hpc, ServerPc.phase]) (by simp [hpc, ServerPc.phase]) (by simp [hpc, ServerPc.told])
      rfl rfl rfl

/-! ## Both programs together -/

/-- The size that the client reads is that of a reply, if not always of the newest. -/
structure ReplyRead (cfg : Config) (c : Client) (received : Nat) (k : Kernel) : Prop where
  answered : c.pc.usesReply → k.serverMadeResponse.isSome = true
  packet : c.pc = .mapData → ∃ j < received, c.packet = (cfg.reply j).size

theorem ReplyRead.step {cfg : Config} {c c' : Client} {n : Nat} {k k' : Kernel}
    (h : ReplyRead cfg c n k)
    (hwritten : k.serverMadeResponse.isSome = true →
      ∃ j < n, contents k.sizeOfData 4 = intBytes (cfg.reply j).size)
    (hs : c.step cfg k = some (c', k')) : ReplyRead cfg c' n k' := by
  have hans := h.answered
  cases hpc : c.pc <;> simp only [Client.step, hpc] at hs <;>
    simp only [hpc, ClientPc.usesReply, true_implies, false_implies] at hans
  case openResponse =>
    split_ifs at hs with _ hsome
    cases hs
    exact ⟨fun _ => hsome, by simp⟩
  case waitResponse =>
    split_ifs at hs
    cases hs
    unfold Client.released
    split_ifs
    · exact ⟨fun _ => (isSome_waitEvent _).trans hans, by simp⟩
    · exact ⟨fun _ => (isSome_waitEvent _).trans hans, by simp⟩
  case readSize =>
    split_ifs at hs
    split at hs
    · cases hs
      exact ⟨fun _ => hans, by simp [Client.crash, hpc]⟩
    · rename_i bs hbs
      cases hs
      obtain ⟨j, hj, hsize⟩ := hwritten hans
      refine ⟨fun _ => hans, fun _ => ⟨j, hj, ?_⟩⟩
      show bytesInt bs = _
      rw [copyFrom_eq_some hbs, hsize, bytesInt_intBytes]
  case build =>
    split_ifs at hs
    cases hs
    unfold Client.build
    split_ifs
    · exact ⟨by simp [ClientPc.usesReply], by simp⟩
    · exact ⟨by simp [ClientPc.usesReply], by simp⟩
  case readData | writeSize | writeData =>
    split_ifs at hs
    split at hs
    · cases hs
      exact ⟨by simp [Client.crash, hpc, ClientPc.usesReply], by simp [Client.crash, hpc]⟩
    · cases hs
      exact ⟨by simp [ClientPc.usesReply], by simp⟩
  case openSize | openData | mapSize =>
    split_ifs at hs
    cases hs
    exact ⟨fun _ => hans, by simp⟩
  -- no other step leads to the reply sections
  all_goals
    split_ifs at hs
    cases hs
    exact ⟨by simp [ClientPc.usesReply], by simp⟩

theorem Server.Moves.received_le {cfg : Config} {s s' : ServerView} {k k' : KernelView}
    (h : Server.Moves cfg s k s' k') : s.received.length ≤ s'.received.length := by
  cases h with
  | build =>
      rw [List.length_append]
      exact Nat.le_add_right _ _
  | _ => exact Nat.le_refl _

/-- The builder is handed the requests in turn, so what it builds is the next reply. -/
theorem Passing.build_response {cfg : Config} {s : State} (h : Passing cfg s)
    (hpc : s.server.pc = .build) :
    (s.server.build cfg).response = cfg.reply s.server.received.length := by
  have hreq := h.requests
  have hphase : s.server.view.phase = .building := by
    simp only [Server.view, hpc, ServerPc.phase]
  have hnext : (s.server.requestPacket, some s.server.request) =
      (cfg.request s.server.received.length).received := by
    have hpacket := hreq.requestPacket (.inr (.inr hphase))
    have hbytes := hreq.request (.inr hphase)
    simp only [Server.view] at hpacket hbytes
    rw [hpacket, hbytes, Packet.received]
  have hrec : s.server.received =
      (List.range s.server.received.length).map fun i => (cfg.request i).received := hreq.received
  show cfg.builder (s.server.received ++ [(s.server.requestPacket, some s.server.request)]) = _
  rw [snoc_eq_map_range hrec hnext, List.length_append, List.length_singleton]
  rfl

/-- The invariant of a conversation in which every message built fits. -/
structure SectionsFit (cfg : Config) (s : State) : Prop where
  passing : Passing cfg s
  client : ClientSections cfg s.client s.kernel
  server : ServerSections cfg s.server s.kernel
  reply : ReplyRead cfg s.client s.server.received.length s.kernel

namespace SectionsFit

variable {cfg : Config} {s s' : State} {a : Proc}

theorem init (cfg : Config) : SectionsFit cfg (conversation cfg).init := by
  refine ⟨passing_init cfg, ?_, ?_, ?_⟩
  · have hphase := Client.start_phase cfg
    simp only [Client.view] at hphase
    refine ⟨?_, ?_, by simp [conversation, Kernel.start], ?_,
      fun hp => absurd hphase hp⟩
    · show (Client.start cfg).pc = _ ∨ (Client.start cfg).pc = _ → _
      cases hr : cfg.clientReuse <;> simp [Client.start, hr]
    · show (Client.start cfg).pc = _ ∨ (Client.start cfg).pc = _ → _
      cases hr : cfg.clientReuse <;> simp [Client.start, hr]
    · intro _ i hi
      have hnone : (Client.start cfg).handed.length + (Client.start cfg).pc.created = 0 := by
        cases hr : cfg.clientReuse <;> simp [Client.start, hr, ClientPc.created]
      change i < (Client.start cfg).handed.length + (Client.start cfg).pc.created at hi
      omega
  · have hphase := Server.start_phase cfg
    simp only [Server.view] at hphase
    refine ⟨?_, ?_, by simp [conversation, Kernel.start], ?_, ?_, ?_, ?_, ?_⟩
    · show ¬ (Server.start cfg).pc.started → _
      cases hr : cfg.serverReuse <;> simp [Server.start, hr, ServerPc.started]
    · show (Server.start cfg).pc = _ ∨ (Server.start cfg).pc = _ → _
      cases hr : cfg.serverReuse <;> simp [Server.start, hr]
    · intro _ i hi
      simp [conversation, Server.start] at hi
    · simp [conversation, Server.start]
    · simp [conversation, hphase]
    · simp [conversation, hphase, Kernel.start]
    · show (Server.start cfg).pc.told → _
      cases hr : cfg.serverReuse <;> simp [Server.start, hr, ServerPc.told]
  · refine ⟨?_, ?_⟩
    · show (Client.start cfg).pc.usesReply → _
      cases hr : cfg.clientReuse <;> simp [Client.start, hr, ClientPc.usesReply]
    · show (Client.start cfg).pc = _ → _
      cases hr : cfg.clientReuse <;> simp [Client.start, hr]

theorem step (h : SectionsFit cfg s) (ha : SizesFit cfg s a)
    (hs : (conversation cfg).step a s = some s') : SectionsFit cfg s' := by
  have hpass := passing_step h.passing hs
  rcases conversation_step hs with ⟨c, k, rfl, hstep, rfl⟩ | ⟨srv, k, rfl, hstep, rfl⟩
  · refine ⟨hpass, h.client.step ?_ (ha.1 rfl) hstep, h.server.client_step hstep,
      h.reply.step ?_ hstep⟩
    · intro hp
      exact h.passing.requests.rdata (.inl hp)
    · intro hm
      exact h.server.written (.inr (.inr hm))
  · obtain ⟨-, -, hmade⟩ := Server.step_frame hstep
    have hgrow := (Server.moves_of_step h.passing.events hstep).received_le
    refine ⟨hpass, h.client.server_step hstep,
      h.server.step h.passing.build_response (ha.2 rfl) hstep, ?_, ?_⟩
    · intro hu
      exact hmade (h.reply.answered hu)
    · intro hp
      obtain ⟨j, hj, hsize⟩ := h.reply.packet hp
      exact ⟨j, hj.trans_le hgrow, hsize⟩

/-- The request that the server maps is the one that the client asks for. -/
theorem requestPacket_fits (h : SectionsFit cfg s) (hpc : s.server.pc = .mapRequestData)
    {v : Section} (hv : s.kernel.clientMessageData = some v) :
    s.server.requestPacket.toNat ≤ v.capacity := by
  have hphase : s.server.view.phase = .sized := by
    simp only [Server.view, hpc, ServerPc.phase]
  have hcount : s.client.handed.length = s.server.received.length :=
    h.passing.tokens.holds_eq (by rw [hphase]; rfl)
  have hpacket : s.server.requestPacket = (cfg.request s.server.received.length).size :=
    h.passing.requests.requestPacket (.inl hphase)
  have hasking : s.client.pc.phase ≠ .idle := by
    intro hidle
    have hone := h.passing.tokens.one
    simp only [hphase, Client.view, hidle, ServerPhase.holds, ClientPhase.holds] at hone
    omega
  have hdata := h.client.data
  rw [hv, Option.map_some] at hdata
  rw [hpacket, Packet.size_toNat, ← hcount]
  exact hdata.fits (h.client.fits hasking)

theorem mapsFit (h : SectionsFit cfg s) : MapsFit s := by
  intro m hm _ v hv
  rcases hm with hm | hm
  · cases hpc : s.server.pc <;> simp only [Server.mapping, hpc, reduceCtorEq] at hm
    case mapRequestSize =>
      cases hm
      exact four_le_capacity h.client.size hv
    case mapRequestData =>
      cases hm
      exact h.requestPacket_fits hpc hv
    case mapSize =>
      cases hm
      exact four_le_capacity h.server.size hv
    case mapData =>
      cases hm
      obtain ⟨n, hn, hresp⟩ := h.server.response (.inl (by rw [hpc]; rfl))
      have hdata := h.server.data
      have hv : s.kernel.serverMessageData = some v := hv
      rw [hv, Option.map_some] at hdata
      show s.server.response.bytes.length ≤ v.capacity
      rw [hresp]
      exact hdata.fits (h.server.fits n (by omega))
  · cases hpc : s.client.pc <;> simp only [Client.mapping, hpc, reduceCtorEq] at hm
    case mapRequestSize =>
      cases hm
      exact four_le_capacity h.client.size hv
    case mapRequestData =>
      cases hm
      have hrdata : s.client.rdata = cfg.request s.client.handed.length := by
        apply h.passing.requests.rdata
        left
        simp only [Client.view, hpc, ClientPc.phase]
      have hdata := h.client.data
      have hv : s.kernel.clientMessageData = some v := hv
      rw [hv, Option.map_some] at hdata
      show s.client.rdata.bytes.length ≤ v.capacity
      rw [hrdata]
      exact hdata.fits (h.client.fits (by simp [hpc, ClientPc.phase]))
    case mapSize =>
      cases hm
      exact four_le_capacity h.server.size hv
    case mapData =>
      cases hm
      obtain ⟨j, hj, hpacket⟩ := h.reply.packet hpc
      have hdata := h.server.data
      have hv : s.kernel.serverMessageData = some v := hv
      rw [hv, Option.map_some] at hdata
      show s.client.packet.toNat ≤ v.capacity
      rw [hpacket, Packet.size_toNat]
      exact hdata.fits (h.server.fits j hj)

end SectionsFit

/-- In every run whose messages all fit, every `MapViewOfFile` through a valid handle
    asks for no more than the section holds. -/
theorem mapsFit_of_sizesFit {cfg : Config} {tr : List (State × Proc)} {s : State}
    (h : Exec (conversation cfg) tr s) (hsizes : Meets (SizesFit cfg) tr) :
    ∀ t ∈ visited tr s, MapsFit t := by
  intro t ht
  have hfit : SectionsFit cfg t :=
    h.invariant_visited (SectionsFit.init cfg) (fun _ _ _ hI ha hs => hI.step ha hs) hsizes t ht
  exact hfit.mapsFit

/-- Every request and every reply fits its section. -/
def MessagesFit (cfg : Config) : Prop :=
  (∀ i, Fits cfg.clientReuse (3000 * 1024) cfg.request i) ∧
    ∀ i, Fits cfg.serverReuse (5000 * 1024) cfg.reply i

theorem MessagesFit.sizesFit {cfg : Config} (hfit : MessagesFit cfg) (s : State) (a : Proc) :
    SizesFit cfg s a :=
  ⟨fun _ _ => hfit.1 _, fun _ _ => hfit.2 _⟩

/-! ## A message that has grown -/

/-- A packet of zeros. -/
def zeros (n : Nat) : Packet :=
  { bytes := List.replicate (n % 2 ^ 31) nul
    length_lt := by
      rw [List.length_replicate]
      exact Nat.mod_lt _ (Nat.two_pow_pos 31) }

/-- Without `-r`; the first request is one byte long, every later one a byte longer
    than a page. -/
def growingRequests : Config :=
  { clientReuse := false, serverReuse := false
    request := fun k => if k = 0 then .ofByte 0x3F else zeros 4097
    builder := fun _ => .ofByte 0x41 }

/-- The second request is to be mapped from the section of the first. -/
theorem growingRequests_not_mapsFit :
    growingRequests.clientReuse = growingRequests.serverReuse ∧
      ∃ tr s, Exec (conversation growingRequests) tr s ∧ s.client.pc = .mapRequestData ∧
        ¬ MapsFit s := by
  have hrun : ((conversation growingRequests).run (orderlyRound ++ List.replicate 4 .client)).map
      (fun s => (s.client.pc, s.client.rdataMap, s.client.rdata.bytes.length,
        s.kernel.clientMessageData.map Section.size)) =
      some (.mapRequestData, true, 4097, some 1) := by
    decide +kernel
  obtain ⟨s, hs, hvalues⟩ := Option.map_eq_some_iff.mp hrun
  simp only [Prod.mk.injEq] at hvalues
  obtain ⟨hpc, hhandle, hlen, hsize⟩ := hvalues
  obtain ⟨v, hv, hone⟩ := Option.map_eq_some_iff.mp hsize
  obtain ⟨tr, hexec⟩ := Exec.of_run hs
  refine ⟨rfl, tr, s, hexec, hpc, ?_⟩
  intro hfit
  have hcall : s.Maps ⟨s.client.rdataMap, s.kernel.clientMessageData,
      s.client.rdata.bytes.length⟩ := by
    right
    simp only [Client.mapping, hpc]
  have hle : s.client.rdata.bytes.length ≤ v.capacity := hfit _ hcall hhandle v hv
  -- a page is less than the request
  rw [hlen, Section.capacity, hone] at hle
  omega

end IpcWin.SharedMem
