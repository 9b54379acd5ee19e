/-
  IpcWin.SharedMem.Crashes

  When neither program crashes.

  A program ends at a copy through a view that it did not get.  Every view comes
  from a `MapViewOfFile` a few steps before, so as long as these calls succeed
  (`MapsSucceed`) both programs stay up (`Views.step`).

  A call fails where the message does not fit the section, where the address space
  has no room for one more view, or where the handle is `NULL`.  With `-r` no handle
  is, if the server opened both of the client's sections at its start, or none
  (`KeptUp`).  Without, the sections are created on the way, and a client that runs
  ahead of the server may ask for one that is not there yet (`OpenedUp`).  A run in
  which none of this happens is `Covered`, and every view in it is wide enough for
  what is copied through it (`mapsFit_and_up`).
-/

import IpcWin.SharedMem.Capacities
import IpcWin.SharedMem.Pace

namespace IpcWin.SharedMem

open IpcWin.Lib IpcWin.Wire

/-! ## Calls that succeed -/

/-- The call returns a view, or is one for nothing. -/
def MapCall.Succeeds (m : MapCall) (space : Space) (mapped : List Nat) : Prop :=
  m.bytes = 0 ∨ (mapViewOfFile space mapped m.handle m.sec m.bytes).isSome = true

/-- There is room for the view, if it is one of something. -/
def MapCall.HasRoom (m : MapCall) (space : Space) (mapped : List Nat) : Prop :=
  m.bytes ≠ 0 → space mapped m.bytes = true

instance (m : MapCall) (space : Space) (mapped : List Nat) : Decidable (m.HasRoom space mapped) :=
  inferInstanceAs (Decidable (_ → _))

/-- If the step is a `MapViewOfFile`, the address space of its program has room. -/
def HasRoom (cfg : Config) (s : State) : Proc → Prop
  | .client => ∀ m ∈ s.client.mapping s.kernel, m.HasRoom cfg.clientSpace s.client.mapped
  | .server => ∀ m ∈ s.server.mapping s.kernel, m.HasRoom cfg.serverSpace s.server.mapped

instance (cfg : Config) (s : State) (a : Proc) : Decidable (HasRoom cfg s a) := by
  cases a
  · exact inferInstanceAs (Decidable (∀ m ∈ s.client.mapping s.kernel, _))
  · exact inferInstanceAs (Decidable (∀ m ∈ s.server.mapping s.kernel, _))

/-- A call for something that succeeds returns a view of a section that is there. -/
theorem MapCall.Succeeds.view {m : MapCall} {space : Space} {mapped : List Nat}
    (h : m.Succeeds space mapped) (hpos : m.bytes ≠ 0) :
    (mapViewOfFile space mapped m.handle m.sec m.bytes).isSome = true ∧ m.sec.isSome = true := by
  have hview := h.resolve_left hpos
  obtain ⟨bytes, hbytes⟩ := Option.isSome_iff_exists.mp hview
  obtain ⟨v, hv, -⟩ := mapViewOfFile_eq_some.mp hbytes
  exact ⟨hview, Option.isSome_iff_exists.mpr ⟨v, hv⟩⟩

/-- A call through a valid handle succeeds if the section is there and holds as much, and
    there is room. -/
theorem MapCall.succeeds {m : MapCall} {space : Space} {mapped : List Nat}
    (hvalid : m.bytes = 0 ∨ m.handle = true ∧ m.sec.isSome = true)
    (hfit : m.handle = true → ∀ sec, m.sec = some sec → m.bytes ≤ sec.capacity)
    (hroom : m.HasRoom space mapped) : m.Succeeds space mapped := by
  by_cases hzero : m.bytes = 0
  · exact .inl hzero
  · right
    obtain ⟨hhandle, hsec⟩ := hvalid.resolve_left hzero
    obtain ⟨v, hv⟩ := Option.isSome_iff_exists.mp hsec
    refine Option.isSome_iff_exists.mpr ⟨m.bytes, mapViewOfFile_eq_some.mpr
      ⟨v, hv, hhandle, hfit hhandle v hv, hroom hzero, ?_⟩⟩
    rw [Section.viewBytes, if_neg hzero]

/-- If the step is a `MapViewOfFile`, it succeeds. -/
def MapsSucceed (cfg : Config) (s : State) : Proc → Prop
  | .client => ∀ m, s.client.mapping s.kernel = some m → m.Succeeds cfg.clientSpace s.client.mapped
  | .server => ∀ m, s.server.mapping s.kernel = some m → m.Succeeds cfg.serverSpace s.server.mapped

theorem mapsSucceed_of_valid {cfg : Config} {s : State} {a : Proc} (hfit : MapsFit s)
    (hvalid : ∀ m, s.Maps m → m.bytes = 0 ∨ m.handle = true ∧ m.sec.isSome = true)
    (hroom : HasRoom cfg s a) : MapsSucceed cfg s a := by
  cases a with
  | client =>
      intro m hm
      exact MapCall.succeeds (hvalid m (.inr hm)) (hfit m (.inr hm)) (hroom m hm)
  | server =>
      intro m hm
      exact MapCall.succeeds (hvalid m (.inl hm)) (hfit m (.inl hm)) (hroom m hm)

/-! ## Views -/

/-- The client is up, and has the views that it is about to copy through. -/
structure ClientViews (c : Client) (k : Kernel) : Prop where
  up : c.crashed = false
  requestSize : c.pc = .mapRequestData ∨ c.pc = .writeSize →
    c.rsizeMapView = true ∧ k.sizeOfDataRequest.isSome = true
  requestData : c.pc = .writeSize ∨ c.pc = .writeData →
    c.rdata.bytes = [] ∨ c.rdataView = true ∧ k.clientMessageData.isSome = true
  replySize : c.pc = .readSize → c.sizeMapView = true ∧ k.sizeOfData.isSome = true
  replyData : c.pc = .readData →
    c.packet.toNat = 0 ∨ c.dataView = true ∧ k.serverMessageData.isSome = true

/-- The server is up, and has the views that it is about to copy through. -/
structure ServerViews (s : Server) (k : Kernel) : Prop where
  up : s.crashed = false
  requestSize : s.pc = .readSize →
    s.requestSizeMapView = true ∧ k.sizeOfDataRequest.isSome = true
  requestData : s.pc = .readData →
    s.requestPacket.toNat = 0 ∨ s.requestDataView = true ∧ k.clientMessageData.isSome = true
  replySize : s.pc = .mapData ∨ s.pc = .writeSize →
    s.sizeMapView = true ∧ k.sizeOfData.isSome = true
  replyData : s.pc = .writeSize ∨ s.pc = .writeData →
    s.response.bytes = [] ∨ s.dataView = true ∧ k.serverMessageData.isSome = true

theorem isSome_createFileMapping {size : Nat} {sec : Option Section} (h : sec.isSome = true) :
    (createFileMapping size sec).isSome = true := by
  cases sec with
  | none => cases h
  | some v => rfl

/-- The server's sections stay once they have been created. -/
theorem Server.step_keeps {cfg : Config} {s s' : Server} {k k' : Kernel}
    (h : s.step cfg k = some (s', k')) :
    (k.sizeOfData.isSome = true → k'.sizeOfData.isSome = true) ∧
      (k.serverMessageData.isSome = true → k'.serverMessageData.isSome = true) := by
  cases hpc : s.pc <;> simp only [step, hpc] at h
  case startCreateSize | startCreateData | createSize | createData =>
    split_ifs at h
    cases h
    exact ⟨by first | exact id | exact isSome_createFileMapping,
      by first | exact id | exact isSome_createFileMapping⟩
  case writeSize | writeData =>
    split_ifs at h
    split at h
    · cases h
      exact ⟨id, id⟩
    · rename_i sec hsec
      cases h
      exact ⟨by first | exact id | exact isSome_of_copyTo hsec,
        by first | exact id | exact isSome_of_copyTo hsec⟩
  case readSize | readData =>
    split_ifs at h
    split at h <;> cases h <;> exact ⟨id, id⟩
  all_goals
    split_ifs at h
    cases h
    exact ⟨id, id⟩

/-- The client's sections stay once they have been created. -/
theorem Client.step_keeps {cfg : Config} {c c' : Client} {k k' : Kernel}
    (h : c.step cfg k = some (c', k')) :
    (k.sizeOfDataRequest.isSome = true → k'.sizeOfDataRequest.isSome = true) ∧
      (k.clientMessageData.isSome = true → k'.clientMessageData.isSome = true) := by
  cases hpc : c.pc <;> simp only [step, hpc] at h
  case startCreateSize | startCreateData | createSize | createData =>
    split_ifs at h
    cases h
    exact ⟨by first | exact id | exact isSome_createFileMapping,
      by first | exact id | exact isSome_createFileMapping⟩
  case writeSize | writeData =>
    split_ifs at h
    split at h
    · cases h
      exact ⟨id, id⟩
    · rename_i sec hsec
      cases h
      exact ⟨by first | exact id | exact isSome_of_copyTo hsec,
        by first | exact id | exact isSome_of_copyTo hsec⟩
  case readSize | readData =>
    split_ifs at h
    split at h <;> cases h <;> exact ⟨id, id⟩
  all_goals
    split_ifs at h
    cases h
    exact ⟨id, id⟩

theorem ClientViews.server_step {cfg : Config} {c : Client} {s s' : Server} {k k' : Kernel}
    (h : ClientViews c k) (hs : s.step cfg k = some (s', k')) : ClientViews c k' := by
  obtain ⟨hsize, hdata, -⟩ := Server.step_frame hs
  obtain ⟨hreplySize, hreplyData⟩ := Server.step_keeps hs
  refine ⟨h.up, ?_, ?_, fun hp => (h.replySize hp).imp_right hreplySize,
    fun hp => (h.replyData hp).imp_right (And.imp_right hreplyData)⟩
  · rw [hsize]
    exact h.requestSize
  · rw [hdata]
    exact h.requestData

theorem ServerViews.client_step {cfg : Config} {s : Server} {c c' : Client} {k k' : Kernel}
    (h : ServerViews s k) (hs : c.step cfg k = some (c', k')) : ServerViews s k' := by
  obtain ⟨hsize, hdata, -⟩ := Client.step_frame hs
  obtain ⟨hrequestSize, hrequestData⟩ := Client.step_keeps hs
  refine ⟨h.up, fun hp => (h.requestSize hp).imp_right hrequestSize,
    fun hp => (h.requestData hp).imp_right (And.imp_right hrequestData), ?_, ?_⟩
  · rw [hsize]
    exact h.replySize
  · rw [hdata]
    exact h.replyData

/-- A client whose `MapViewOfFile` succeeds stays up. -/
theorem ClientViews.step {cfg : Config} {c c' : Client} {k k' : Kernel} (h : ClientViews c k)
    (hmaps : ∀ m, c.mapping k = some m → m.Succeeds cfg.clientSpace c.mapped)
    (hs : c.step cfg k = some (c', k')) : ClientViews c' k' := by
  obtain ⟨hup, hsize, hdata, hreplySize, hreplyData⟩ := h
  cases hpc : c.pc <;> simp only [Client.step, hpc] at hs
  case mapRequestSize =>
    split_ifs at hs
    cases hs
    have hview := (hmaps ⟨c.rsizeMap, k.sizeOfDataRequest, 4⟩
      (by simp only [Client.mapping, hpc])).view (by simp)
    exact ⟨hup, fun _ => hview, by simp, by simp, by simp⟩
  case mapRequestData =>
    split_ifs at hs
    cases hs
    have hmap := hmaps ⟨c.rdataMap, k.clientMessageData, c.rdata.bytes.length⟩
      (by simp only [Client.mapping, hpc])
    refine ⟨hup, fun _ => hsize (.inl hpc), fun _ => ?_, by simp, by simp⟩
    by_cases hnil : c.rdata.bytes = []
    · exact .inl hnil
    · exact .inr (hmap.view (by simpa using hnil))
  case mapSize =>
    split_ifs at hs
    cases hs
    have hview := (hmaps ⟨c.sizeMap, k.sizeOfData, 4⟩ (by simp only [Client.mapping, hpc])).view
      (by simp)
    exact ⟨hup, by simp, by simp, fun _ => hview, by simp⟩
  case mapData =>
    split_ifs at hs
    cases hs
    have hmap := hmaps ⟨c.dataMap, k.serverMessageData, c.packet.toNat⟩
      (by simp only [Client.mapping, hpc])
    refine ⟨hup, by simp, by simp, by simp, fun _ => ?_⟩
    by_cases hzero : c.packet.toNat = 0
    · exact .inl hzero
    · exact .inr (hmap.view hzero)
  case writeSize =>
    obtain ⟨hview, hsec⟩ := hsize (.inr hpc)
    have hword : intBytes c.rdata.size = [] ∨ true = true ∧ k.sizeOfDataRequest.isSome = true :=
      .inr ⟨rfl, hsec⟩
    obtain ⟨sec', hcopy⟩ := copyTo_of_view_or_nil hword
    simp only [hup, hview, hcopy, Bool.false_eq_true, if_false] at hs
    cases hs
    exact ⟨rfl, by simp, fun _ => hdata (.inl hpc), by simp, by simp⟩
  case writeData =>
    obtain ⟨sec', hcopy⟩ := copyTo_of_view_or_nil (hdata (.inr hpc))
    simp only [hup, hcopy, Bool.false_eq_true, if_false] at hs
    cases hs
    exact ⟨rfl, by simp, by simp, by simp, by simp⟩
  case readSize =>
    obtain ⟨bs, hcopy⟩ := copyFrom_of_view_or_zero (n := 4) (.inr (hreplySize hpc))
    simp only [hup, hcopy, Bool.false_eq_true, if_false] at hs
    cases hs
    exact ⟨rfl, by simp, by simp, by simp, by simp⟩
  case readData =>
    obtain ⟨bs, hcopy⟩ := copyFrom_of_view_or_zero (hreplyData hpc)
    simp only [hup, hcopy, Bool.false_eq_true, if_false] at hs
    cases hs
    exact ⟨rfl, by simp, by simp, by simp, by simp⟩
  case waitResponse =>
    split_ifs at hs
    cases hs
    unfold Client.released
    split_ifs <;> exact ⟨hup, by simp, by simp, by simp, by simp⟩
  case build =>
    split_ifs at hs
    cases hs
    unfold Client.build
    split_ifs <;> exact ⟨hup, by simp, by simp, by simp, by simp⟩
  -- the other steps neither map nor copy
  all_goals
    split_ifs at hs
    cases hs
    exact ⟨hup, by simp, by simp, by simp, by simp⟩

/-- A server whose `MapViewOfFile` succeeds stays up. -/
theorem ServerViews.step {cfg : Config} {s s' : Server} {k k' : Kernel} (h : ServerViews s k)
    (hmaps : ∀ m, s.mapping k = some m → m.Succeeds cfg.serverSpace s.mapped)
    (hs : s.step cfg k = some (s', k')) : ServerViews s' k' := by
  obtain ⟨hup, hsize, hdata, hreplySize, hreplyData⟩ := h
  cases hpc : s.pc <;> simp only [Server.step, hpc] at hs
  case mapRequestSize =>
    split_ifs at hs
    cases hs
    have hview := (hmaps ⟨s.requestSizeMap, k.sizeOfDataRequest, 4⟩
      (by simp only [Server.mapping, hpc])).view (by simp)
    exact ⟨hup, fun _ => hview, by simp, by simp, by simp⟩
  case mapRequestData =>
    split_ifs at hs
    cases hs
    have hmap := hmaps ⟨s.requestDataMap, k.clientMessageData, s.requestPacket.toNat⟩
      (by simp only [Server.mapping, hpc])
    refine ⟨hup, by simp, fun _ => ?_, by simp, by simp⟩
    by_cases hzero : s.requestPacket.toNat = 0
    · exact .inl hzero
    · exact .inr (hmap.view hzero)
  case mapSize =>
    split_ifs at hs
    cases hs
    have hview := (hmaps ⟨s.sizeMap, k.sizeOfData, 4⟩ (by simp only [Server.mapping, hpc])).view
      (by simp)
    exact ⟨hup, by simp, by simp, fun _ => hview, by simp⟩
  case mapData =>
    split_ifs at hs
    cases hs
    have hmap := hmaps ⟨s.dataMap, k.serverMessageData, s.response.bytes.length⟩
      (by simp only [Server.mapping, hpc])
    refine ⟨hup, by simp, by simp, fun _ => hreplySize (.inl hpc), fun _ => ?_⟩
    by_cases hnil : s.response.bytes = []
    · exact .inl hnil
    · exact .inr (hmap.view (by simpa using hnil))
  case readSize =>
    obtain ⟨bs, hcopy⟩ := copyFrom_of_view_or_zero (n := 4) (.inr (hsize hpc))
    simp only [hup, hcopy, Bool.false_eq_true, if_false] at hs
    cases hs
    exact ⟨rfl, by simp, by simp, by simp, by simp⟩
  case readData =>
    obtain ⟨bs, hcopy⟩ := copyFrom_of_view_or_zero (hdata hpc)
    simp only [hup, hcopy, Bool.false_eq_true, if_false] at hs
    cases hs
    exact ⟨rfl, by simp, by simp, by simp, by simp⟩
  case writeSize =>
    obtain ⟨hview, hsec⟩ := hreplySize (.inr hpc)
    have hword : intBytes s.response.size = [] ∨ true = true ∧ k.sizeOfData.isSome = true :=
      .inr ⟨rfl, hsec⟩
    obtain ⟨sec', hcopy⟩ := copyTo_of_view_or_nil hword
    simp only [hup, hview, hcopy, Bool.false_eq_true, if_false] at hs
    cases hs
    exact ⟨rfl, by simp, by simp, by simp, fun _ => hreplyData (.inl hpc)⟩
  case writeData =>
    obtain ⟨sec', hcopy⟩ := copyTo_of_view_or_nil (hreplyData (.inr hpc))
    simp only [hup, hcopy, Bool.false_eq_true, if_false] at hs
    cases hs
    exact ⟨rfl, by simp, by simp, by simp, by simp⟩
  case waitMade =>
    split_ifs at hs
    cases hs
    unfold Server.released
    split_ifs <;> exact ⟨hup, by simp, by simp, by simp, by simp⟩
  case build =>
    split_ifs at hs
    cases hs
    unfold Server.build
    split_ifs <;> exact ⟨hup, by simp, by simp, by simp, by simp⟩
  -- the other steps neither map nor copy
  all_goals
    split_ifs at hs
    cases hs
    exact ⟨hup, by simp, by simp, by simp, by simp⟩

/-- Both programs are up, and have the views that they are about to copy through. -/
structure Views (s : State) : Prop where
  client : ClientViews s.client s.kernel
  server : ServerViews s.server s.kernel

theorem Views.up {s : State} (h : Views s) : s.Up := ⟨h.client.up, h.server.up⟩

theorem Views.init (cfg : Config) : Views (conversation cfg).init := by
  refine ⟨⟨rfl, ?_, ?_, ?_, ?_⟩, ⟨rfl, ?_, ?_, ?_, ?_⟩⟩
  all_goals
    simp only [conversation, Client.start, Server.start]
    split_ifs <;> simp

theorem Views.step {cfg : Config} {s s' : State} {a : Proc} (h : Views s)
    (hmaps : MapsSucceed cfg s a) (hs : (conversation cfg).step a s = some s') : Views s' := by
  rcases conversation_step hs with ⟨c, k, rfl, hstep, rfl⟩ | ⟨srv, k, rfl, hstep, rfl⟩
  · exact ⟨h.client.step hmaps hstep, h.server.client_step hstep⟩
  · exact ⟨h.client.server_step hstep, h.server.step hmaps hstep⟩

/-- While the server holds the request sections, the client asks. -/
theorem Tokens.asking {c : ClientView} {s : ServerView} {k : KernelView} (h : Tokens c s k)
    (hs : s.phase.holds = 1) : c.phase = .asking := by
  have hone := h.one
  have hc : c.phase.holds = 0 := by omega
  cases hp : c.phase <;> simp [hp, ClientPhase.holds] at hc ⊢

/-! ## With -r -/

/-- With `-r` every section that is mapped has been created. -/
theorem HandlesOpened.sections {cfg : Config} {s : State} (h : HandlesOpened cfg s) {m : MapCall}
    (hm : s.Maps m) : m.sec.isSome = true := by
  have hrequest : s.server.pc.phase.holds = 1 →
      s.kernel.sizeOfDataRequest.isSome = true ∧ s.kernel.clientMessageData.isSome = true := by
    intro hholds
    have hphase : s.client.pc.phase = .asking := h.passing.tokens.asking hholds
    have hpc : s.client.pc ≠ .startCreateSize ∧ s.client.pc ≠ .startCreateData := by
      constructor <;> (intro hp; simp [hp, ClientPc.phase] at hphase)
    exact ⟨(h.client.rsizeMap hpc.1).2, (h.client.rdataMap hpc.1 hpc.2).2⟩
  rcases hm with hm | hm
  · cases hpc : s.server.pc <;> simp only [Server.mapping, hpc, reduceCtorEq] at hm
    case mapRequestSize =>
      cases hm
      exact (hrequest (by rw [hpc]; rfl)).1
    case mapRequestData =>
      cases hm
      exact (hrequest (by rw [hpc]; rfl)).2
    case mapSize =>
      cases hm
      exact (h.server.sizeMap (.inl (by rw [hpc]; trivial))).2
    case mapData =>
      cases hm
      exact (h.server.dataMap (by rw [hpc]; trivial)).2
  · cases hpc : s.client.pc <;> simp only [Client.mapping, hpc, reduceCtorEq] at hm
    case mapRequestSize =>
      cases hm
      exact (h.client.rsizeMap (by simp [hpc])).2
    case mapRequestData =>
      cases hm
      exact (h.client.rdataMap (by simp [hpc]) (by simp [hpc])).2
    case mapSize =>
      cases hm
      exact (h.replySections (by rw [hpc]; trivial)).1
    case mapData =>
      cases hm
      exact (h.replySections (by rw [hpc]; trivial)).2

/-- The invariant of a conversation with `-r` that does not crash. -/
structure KeptUp (cfg : Config) (s : State) : Prop where
  handles : HandlesOpened cfg s
  sizes : SectionsFit cfg s
  views : Views s

namespace KeptUp

variable {cfg : Config} {s s' : State} {a : Proc}

theorem init (hc : cfg.clientReuse = true) (hs : cfg.serverReuse = true) :
    KeptUp cfg (conversation cfg).init :=
  ⟨.init hc hs, .init cfg, .init cfg⟩

theorem step (hc : cfg.clientReuse = true) (hsrv : cfg.serverReuse = true) (h : KeptUp cfg s)
    (hsizes : SizesFit cfg s a) (hroom : HasRoom cfg s a) (hopens : OpensBothOrNone s a)
    (hs : (conversation cfg).step a s = some s') : KeptUp cfg s' := by
  have hmaps : MapsSucceed cfg s a := by
    apply mapsSucceed_of_valid h.sizes.mapsFit _ hroom
    intro m hm
    exact .inr ⟨h.handles.handlesValid m hm, h.handles.sections hm⟩
  exact ⟨h.handles.step hc hsrv hopens hs, h.sizes.step hsizes hs, h.views.step hmaps hs⟩

end KeptUp

/-! ## Without -r -/

/-- Without `-r` a message that went through a section that is not there was empty. -/
theorem SectionSize.nil_or_isSome {size n : Nat} {f : Nat → Packet} {sec : Option Section}
    (h : SectionSize false size f n (sec.map Section.size)) {i : Nat} (hi : i < n) :
    (f i).bytes = [] ∨ sec.isSome = true := by
  cases sec with
  | none => exact .inl (h rfl i hi)
  | some v => exact .inr rfl

/-- If the step is the client's `OpenFileMapping` of the reply's section, the section has
    been created, or there is nothing in the replies up to the one it waits for. -/
def OpensReply (cfg : Config) (s : State) (a : Proc) : Prop :=
  a = .client → s.client.pc = .openData →
    s.kernel.serverMessageData.isSome = true ∨
      ∀ j ≤ s.client.handed.length, (cfg.reply j).bytes = []

instance (cfg : Config) (s : State) (a : Proc) : Decidable (OpensReply cfg s a) :=
  inferInstanceAs (Decidable (_ → _ → _ ∨ _))

/-- The handles of a client that creates and opens its sections for every request. -/
structure ClientOpened (cfg : Config) (c : Client) (k : Kernel) : Prop where
  rsizeMap : c.pc = .createData ∨ c.pc = .mapRequestSize → c.rsizeMap = true
  rdataMap : c.pc = .mapRequestSize ∨ c.pc = .mapRequestData →
    c.rdata.bytes = [] ∨ c.rdataMap = true
  created : c.pc = .createData ∨ 0 < c.handed.length + c.pc.created →
    k.sizeOfDataRequest.isSome = true
  sizeMap : c.pc = .openData ∨ c.pc = .mapSize → c.sizeMap = true
  dataMap : c.pc.mapsReply →
    (c.dataMap = true ∧ k.serverMessageData.isSome = true) ∨
      ∀ j ≤ c.handed.length, (cfg.reply j).bytes = []

theorem ClientOpened.server_step {cfg : Config} {c : Client} {s s' : Server} {k k' : Kernel}
    (h : ClientOpened cfg c k) (hs : s.step cfg k = some (s', k')) : ClientOpened cfg c k' := by
  obtain ⟨hsize, -, -⟩ := Server.step_frame hs
  obtain ⟨-, hkeep⟩ := Server.step_keeps hs
  refine { h with created := ?_, dataMap := ?_ }
  · rw [hsize]
    exact h.created
  · intro hp
    exact (h.dataMap hp).imp_left (And.imp_right hkeep)

/-- A step that neither creates nor opens. -/
theorem ClientOpened.keep {cfg : Config} {c c' : Client} {k k' : Kernel}
    (h : ClientOpened cfg c k)
    (hcreate : c'.pc ≠ .createData ∧ c'.pc ≠ .mapRequestSize ∧ c'.pc ≠ .openData)
    (hdata : c'.pc = .mapRequestData → c.pc = .mapRequestSize)
    (hcreated : c'.handed.length + c'.pc.created = c.handed.length + c.pc.created)
    (hmap : c'.pc ≠ .mapSize) (hreply : c'.pc.mapsReply → c.pc.mapsReply)
    (hrdata : c'.rdata = c.rdata ∧ c'.rdataMap = c.rdataMap)
    (hmaps : c'.pc.mapsReply → c'.dataMap = c.dataMap ∧ c'.handed = c.handed)
    (hsize : k.sizeOfDataRequest.isSome = true → k'.sizeOfDataRequest.isSome = true)
    (hsec : k'.serverMessageData = k.serverMessageData) : ClientOpened cfg c' k' := by
  obtain ⟨hcreateData, hmapRequest, hopenData⟩ := hcreate
  refine ⟨?_, ?_, ?_, ?_, ?_⟩
  · rintro (hp | hp)
    · exact absurd hp hcreateData
    · exact absurd hp hmapRequest
  · rintro (hp | hp)
    · exact absurd hp hmapRequest
    · rw [hrdata.1, hrdata.2]
      exact h.rdataMap (.inl (hdata hp))
  · rintro (hp | hp)
    · exact absurd hp hcreateData
    · rw [hcreated] at hp
      exact hsize (h.created (.inr hp))
  · rintro (hp | hp)
    · exact absurd hp hopenData
    · exact absurd hp hmap
  · intro hp
    rw [(hmaps hp).1, (hmaps hp).2, hsec]
    exact h.dataMap (hreply hp)

theorem ClientOpened.step {cfg : Config} {c c' : Client} {k k' : Kernel}
    (h : ClientOpened cfg c k) (hr : cfg.clientReuse = false)
    (hsize : c.pc.usesReply → k.sizeOfData.isSome = true)
    (hopens : c.pc = .openData → k.serverMessageData.isSome = true ∨
      ∀ j ≤ c.handed.length, (cfg.reply j).bytes = [])
    (hs : c.step cfg k = some (c', k')) : ClientOpened cfg c' k' := by
  obtain ⟨hkeep, -⟩ := Client.step_keeps hs
  obtain ⟨-, hsec, -⟩ := Client.step_frame hs
  have hwhole := h
  obtain ⟨hrsize, hrdata, hcreated, hsizeMap, hdataMap⟩ := h
  cases hpc : c.pc <;> simp only [Client.step, hpc] at hs
  case createSize =>
    split_ifs at hs
    cases hs
    have hsec := isSome_createFileMapping_of_pos (show 4 ≠ 0 by decide) k.sizeOfDataRequest
    exact ⟨fun _ => hsec, by simp, fun _ => hsec, by simp, by simp [ClientPc.mapsReply]⟩
  case createData =>
    split_ifs at hs
    cases hs
    refine ⟨fun _ => hrsize (.inl hpc), fun _ => ?_, fun _ => hcreated (.inl hpc), by simp,
      by simp [ClientPc.mapsReply]⟩
    by_cases hnil : c.rdata.bytes = []
    · exact .inl hnil
    · exact .inr (isSome_createFileMapping_of_pos (by simpa using hnil) _)
  case openSize =>
    split_ifs at hs
    cases hs
    have hsome := hsize (by rw [hpc]; trivial)
    exact ⟨by simp, by simp, fun _ => hcreated (.inr (by simp [hpc, ClientPc.created])),
      fun _ => hsome, by simp [ClientPc.mapsReply]⟩
  case openData =>
    split_ifs at hs
    cases hs
    refine ⟨by simp, by simp, fun _ => hcreated (.inr (by simp [hpc, ClientPc.created])),
      fun _ => hsizeMap (.inl hpc), fun _ => ?_⟩
    exact (hopens hpc).imp_left fun hsome => ⟨hsome, hsome⟩
  case build =>
    split_ifs at hs
    cases hs
    simp only [Client.build, hr]
    exact ⟨by simp, by simp, by simpa [hpc, ClientPc.created] using hcreated, by simp,
      by simp [ClientPc.mapsReply]⟩
  case waitResponse =>
    split_ifs at hs
    cases hs
    simp only [Client.released, hr, Bool.not_false, Bool.true_or, if_true]
    exact ⟨by simp, by simp, fun _ => hcreated (.inr (by simp [hpc, ClientPc.created])), by simp,
      by simp [ClientPc.mapsReply]⟩
  case deliver =>
    split_ifs at hs
    cases hs
    exact ⟨by simp, by simp, fun _ => hcreated (.inr (by simp [hpc, ClientPc.created])), by simp,
      by simp [ClientPc.mapsReply]⟩
  case writeSize | writeData | readSize | readData =>
    split_ifs at hs
    split at hs <;> cases hs
    · exact ⟨by simp [Client.crash, hpc], by simp [Client.crash, hpc], hcreated,
        by simp [Client.crash, hpc], hdataMap⟩
    · exact hwhole.keep (by simp) (by simp) (by simp [hpc, ClientPc.created]) (by simp)
        (by simp [hpc, ClientPc.mapsReply]) ⟨rfl, rfl⟩ (fun _ => ⟨rfl, rfl⟩) hkeep hsec
  case startCreateSize | startCreateData | startOpenSize | startOpenData =>
    split_ifs at hs
    cases hs
    exact ⟨by simp, by simp,
      fun hp => hkeep (hcreated (.inr (by simpa [hpc, ClientPc.created] using hp))), by simp,
      by simp [ClientPc.mapsReply]⟩
  -- the other steps neither create nor open
  all_goals
    split_ifs at hs
    cases hs
    exact hwhole.keep (by simp) (by simp [hpc]) (by simp [hpc, ClientPc.created]) (by simp)
      (by simp [hpc, ClientPc.mapsReply]) ⟨rfl, rfl⟩ (fun _ => ⟨rfl, rfl⟩) hkeep hsec

/-- The handles of a server that opens and creates its sections for every request. -/
structure ServerOpened (cfg : Config) (s : Server) (k : Kernel) : Prop where
  requestSizeMap : s.pc = .openData ∨ s.pc = .mapRequestSize → s.requestSizeMap = true
  requestDataMap : s.pc = .mapRequestSize ∨ s.pc = .readSize ∨ s.pc = .mapRequestData →
    (cfg.request s.received.length).bytes = [] ∨ s.requestDataMap = true
  sizeMap : s.pc = .createData ∨ s.pc = .mapSize → s.sizeMap = true
  dataMap : s.pc = .mapSize ∨ s.pc = .mapData → s.response.bytes = [] ∨ s.dataMap = true
  created : s.pc = .createData ∨ s.pc.uncreated < s.received.length →
    k.sizeOfData.isSome = true
  told : k.serverMadeResponse.isSome = true → s.pc.uncreated < s.received.length

theorem ServerOpened.client_step {cfg : Config} {s : Server} {c c' : Client} {k k' : Kernel}
    (h : ServerOpened cfg s k) (hs : c.step cfg k = some (c', k')) : ServerOpened cfg s k' := by
  obtain ⟨hsize, -, hmade⟩ := Client.step_frame hs
  refine { h with created := ?_, told := ?_ }
  · rw [hsize]
    exact h.created
  · rw [hmade]
    exact h.told

/-- A step that neither creates, opens nor builds. -/
theorem ServerOpened.keep {cfg : Config} {s s' : Server} {k k' : Kernel}
    (h : ServerOpened cfg s k)
    (hpc : s'.pc ≠ .openData ∧ s'.pc ≠ .mapRequestSize ∧ s'.pc ≠ .createData ∧ s'.pc ≠ .mapSize)
    (hdata : s'.pc = .readSize ∨ s'.pc = .mapRequestData → s.pc = .mapRequestSize ∨ s.pc = .readSize)
    (hmap : s'.pc = .mapData → s.pc = .mapSize) (hun : s'.pc.uncreated = s.pc.uncreated)
    (hrec : s'.received = s.received ∧ s'.response = s.response)
    (hmaps : s'.requestDataMap = s.requestDataMap ∧ s'.dataMap = s.dataMap)
    (hsize : k.sizeOfData.isSome = true → k'.sizeOfData.isSome = true)
    (hmade : k'.serverMadeResponse.isSome = k.serverMadeResponse.isSome) :
    ServerOpened cfg s' k' := by
  obtain ⟨hopenData, hmapRequest, hcreateData, hmapSize⟩ := hpc
  refine ⟨?_, ?_, ?_, ?_, ?_, ?_⟩
  · rintro (hp | hp)
    · exact absurd hp hopenData
    · exact absurd hp hmapRequest
  · rintro (hp | hp)
    · exact absurd hp hmapRequest
    · rw [hrec.1, hmaps.1]
      apply h.requestDataMap
      rcases hdata hp with hp | hp
      · exact .inl hp
      · exact .inr (.inl hp)
  · rintro (hp | hp)
    · exact absurd hp hcreateData
    · exact absurd hp hmapSize
  · rintro (hp | hp)
    · exact absurd hp hmapSize
    · rw [hrec.2, hmaps.2]
      exact h.dataMap (.inl (hmap hp))
  · rintro (hp | hp)
    · exact absurd hp hcreateData
    · rw [hun, hrec.1] at hp
      exact hsize (h.created (.inr hp))
  · rw [hmade, hun, hrec.1]
    exact h.told

theorem ServerOpened.step {cfg : Config} {s s' : Server} {k k' : Kernel}
    (h : ServerOpened cfg s k) (hr : cfg.serverReuse = false) (hreplied : Replied s.view)
    (hrequest : s.pc.phase = .reading → k.sizeOfDataRequest.isSome = true ∧
      ((cfg.request s.received.length).bytes = [] ∨ k.clientMessageData.isSome = true))
    (hs : s.step cfg k = some (s', k')) : ServerOpened cfg s' k' := by
  obtain ⟨hkeep, -⟩ := Server.step_keeps hs
  have hwhole := h
  obtain ⟨hrsize, hrdata, hsizeMap, hdataMap, hcreated, htold⟩ := h
  have hphase : s.view.phase = s.pc.phase := rfl
  cases hpc : s.pc <;> rw [hpc] at hphase <;> simp only [Server.step, hpc] at hs
  case openSize =>
    split_ifs at hs
    cases hs
    have hsec := (hrequest (by rw [hpc]; rfl)).1
    exact ⟨fun _ => hsec, by simp, by simp, by simp,
      by simpa [hpc, ServerPc.uncreated] using hcreated,
      by simpa [hpc, ServerPc.uncreated] using htold⟩
  case openData =>
    split_ifs at hs
    cases hs
    have hsec := (hrequest (by rw [hpc]; rfl)).2
    exact ⟨fun _ => hrsize (.inl hpc), fun _ => hsec, by simp, by simp,
      by simpa [hpc, ServerPc.uncreated] using hcreated,
      by simpa [hpc, ServerPc.uncreated] using htold⟩
  case createSize =>
    split_ifs at hs
    cases hs
    have hsec := isSome_createFileMapping_of_pos (show 4 ≠ 0 by decide) k.sizeOfData
    exact ⟨by simp, by simp, fun _ => hsec, by simp, fun _ => hsec,
      by simpa [hpc, ServerPc.uncreated] using htold⟩
  case createData =>
    split_ifs at hs
    cases hs
    have hpos := List.length_pos_iff.mpr (hreplied (.inl hphase))
    refine ⟨by simp, by simp, fun _ => hsizeMap (.inl hpc), fun _ => ?_,
      fun _ => hcreated (.inl hpc), fun _ => hpos⟩
    by_cases hnil : s.response.bytes = []
    · exact .inl hnil
    · exact .inr (isSome_createFileMapping_of_pos (by simpa using hnil) _)
  case build =>
    split_ifs at hs
    cases hs
    simp only [Server.build, hr]
    refine ⟨by simp, by simp, by simp, by simp, ?_, ?_⟩
    · simpa [hpc, ServerPc.uncreated] using hcreated
    · simpa [hpc, ServerPc.uncreated] using htold
  case waitMade =>
    split_ifs at hs
    cases hs
    simp only [Server.released, hr, Bool.not_false, Bool.true_or, if_true]
    exact ⟨by simp, by simp, by simp, by simp,
      by simpa [hpc, ServerPc.uncreated] using hcreated,
      by simpa [hpc, ServerPc.uncreated] using htold⟩
  case createResponse =>
    split_ifs at hs
    cases hs
    have hpos := List.length_pos_iff.mpr (hreplied (.inr (.inr hphase)))
    exact ⟨by simp, by simp, by simp, by simp,
      by simpa [hpc, ServerPc.uncreated] using hcreated, fun _ => hpos⟩
  case setResponse =>
    split_ifs at hs
    cases hs
    exact hwhole.keep (by simp) (by simp) (by simp) (by simp [hpc, ServerPc.uncreated]) ⟨rfl, rfl⟩
      ⟨rfl, rfl⟩ hkeep (isSome_setEvent _)
  case writeSize | writeData | readSize | readData =>
    split_ifs at hs
    split at hs <;> cases hs
    · exact ⟨by simp [Server.crash, hpc], hrdata, by simp [Server.crash, hpc],
        by simp [Server.crash, hpc], hcreated, htold⟩
    · exact hwhole.keep (by simp) (by simp [hpc]) (by simp) (by simp [hpc, ServerPc.uncreated])
        ⟨rfl, rfl⟩ ⟨rfl, rfl⟩ hkeep rfl
  case startCreateSize | startCreateData | startOpenSize | startOpenData =>
    split_ifs at hs
    cases hs
    exact ⟨by simp, by simp, by simp, by simp,
      fun hp => hkeep (hcreated (.inr (by simpa [hpc, ServerPc.uncreated] using hp))),
      by simpa [hpc, ServerPc.uncreated] using htold⟩
  -- the other steps neither create, open nor build
  all_goals
    split_ifs at hs
    cases hs
    exact hwhole.keep (by simp) (by simp [hpc]) (by simp [hpc])
      (by simp [hpc, ServerPc.uncreated]) ⟨rfl, rfl⟩ ⟨rfl, rfl⟩ hkeep rfl

/-- The invariant of a conversation without `-r` that does not crash. -/
structure OpenedUp (cfg : Config) (s : State) : Prop where
  sizes : SectionsFit cfg s
  told : Told cfg s
  client : ClientOpened cfg s.client s.kernel
  server : ServerOpened cfg s.server s.kernel
  views : Views s

namespace OpenedUp

variable {cfg : Config} {s s' : State} {a : Proc}

theorem init (cfg : Config) : OpenedUp cfg (conversation cfg).init := by
  refine ⟨.init cfg, told_init cfg, ⟨?_, ?_, ?_, ?_, ?_⟩, ⟨?_, ?_, ?_, ?_, ?_, ?_⟩, .init cfg⟩
  all_goals
    simp only [conversation, Client.start, Server.start]
    split_ifs <;>
      simp [ClientPc.created, ClientPc.mapsReply, ServerPc.uncreated, Kernel.start]

/-- The request sections are there when the server opens and maps them. -/
theorem requestSections (h : OpenedUp cfg s) (hc : cfg.clientReuse = false)
    (hholds : s.server.pc.phase.holds = 1) :
    s.kernel.sizeOfDataRequest.isSome = true ∧
      ((cfg.request s.server.received.length).bytes = [] ∨
        s.kernel.clientMessageData.isSome = true) := by
  have hphase : s.client.pc.phase = .asking := h.sizes.passing.tokens.asking hholds
  have hlen : s.client.handed.length = s.server.received.length :=
    h.sizes.passing.tokens.holds_eq hholds
  have hone : s.client.pc.created = 1 := by
    cases hp : s.client.pc <;> simp [hp, ClientPc.phase, ClientPc.created] at hphase ⊢
  have hdata := h.sizes.client.data
  rw [hc, hone] at hdata
  refine ⟨h.client.created (.inr (by omega)), ?_⟩
  rw [← hlen]
  exact hdata.nil_or_isSome (Nat.lt_succ_self _)

/-- The section of the size of a reply is there when the client opens and maps it. -/
theorem replySize (h : OpenedUp cfg s) (hpc : s.client.pc.usesReply) :
    s.kernel.sizeOfData.isSome = true :=
  h.server.created (.inr (h.server.told (h.sizes.reply.answered hpc)))

/-- If there is something in the first reply, the section of the replies is there when
    the client opens it. -/
theorem opensReply (h : OpenedUp cfg s) (hs : cfg.serverReuse = false)
    (hfirst : (cfg.reply 0).bytes ≠ []) : OpensReply cfg s a := by
  intro _ hpc
  have hlt := h.server.told (h.sizes.reply.answered (by rw [hpc]; trivial))
  have hdata := h.sizes.server.data
  rw [hs] at hdata
  have hsome := hdata.nil_or_isSome (show 0 < _ by omega)
  exact .inl (hsome.resolve_left hfirst)

/-- The reply that the server is about to write has its section. -/
theorem responseSection (h : OpenedUp cfg s) (hs : cfg.serverReuse = false)
    (hpc : s.server.pc = .mapData) :
    s.server.response.bytes = [] ∨ s.kernel.serverMessageData.isSome = true := by
  obtain ⟨n, hn, hresp⟩ := h.sizes.server.response (.inl (by rw [hpc]; rfl))
  have hdata := h.sizes.server.data
  rw [hs, hpc] at hdata
  rw [hresp]
  apply hdata.nil_or_isSome
  simp only [ServerPc.uncreated]
  omega

theorem mapsSucceed (h : OpenedUp cfg s) (hc : cfg.clientReuse = false)
    (hs : cfg.serverReuse = false) (hroom : HasRoom cfg s a) : MapsSucceed cfg s a := by
  apply mapsSucceed_of_valid h.sizes.mapsFit _ hroom
  rintro m (hm | hm)
  · cases hpc : s.server.pc <;> simp only [Server.mapping, hpc, reduceCtorEq] at hm
    case mapRequestSize =>
      cases hm
      obtain ⟨hsec, -⟩ := h.requestSections hc (by rw [hpc]; rfl)
      exact .inr ⟨h.server.requestSizeMap (.inr hpc), hsec⟩
    case mapRequestData =>
      cases hm
      obtain ⟨-, hsec⟩ := h.requestSections hc (by rw [hpc]; rfl)
      have hpacket : s.server.requestPacket = (cfg.request s.server.received.length).size := by
        apply h.sizes.passing.requests.requestPacket
        left
        simp only [Server.view, hpc, ServerPc.phase]
      rcases h.server.requestDataMap (.inr (.inr hpc)) with hnil | hhandle
      · left
        show s.server.requestPacket.toNat = 0
        rw [hpacket, Packet.size_toNat, hnil, List.length_nil]
      · rcases hsec with hnil | hsec
        · left
          show s.server.requestPacket.toNat = 0
          rw [hpacket, Packet.size_toNat, hnil, List.length_nil]
        · exact .inr ⟨hhandle, hsec⟩
    case mapSize =>
      cases hm
      have hreceived : s.server.received ≠ [] := by
        apply h.told.replied
        left
        simp only [Server.view, hpc, ServerPc.phase]
      have hpos := List.length_pos_iff.mpr hreceived
      refine .inr ⟨h.server.sizeMap (.inr hpc), h.server.created (.inr ?_)⟩
      simpa only [hpc, ServerPc.uncreated] using hpos
    case mapData =>
      cases hm
      rcases h.server.dataMap (.inr hpc) with hnil | hhandle
      · exact .inl (by rw [hnil, List.length_nil])
      · rcases h.responseSection hs hpc with hnil | hsec
        · exact .inl (by rw [hnil, List.length_nil])
        · exact .inr ⟨hhandle, hsec⟩
  · cases hpc : s.client.pc <;> simp only [Client.mapping, hpc, reduceCtorEq] at hm
    case mapRequestSize =>
      cases hm
      refine .inr ⟨h.client.rsizeMap (.inr hpc), h.client.created (.inr ?_)⟩
      simp [hpc, ClientPc.created]
    case mapRequestData =>
      cases hm
      have hrdata : s.client.rdata = cfg.request s.client.handed.length := by
        apply h.sizes.passing.requests.rdata
        left
        simp only [Client.view, hpc, ClientPc.phase]
      have hdata := h.sizes.client.data
      rw [hc, hpc] at hdata
      have hsec := hdata.nil_or_isSome (show s.client.handed.length < _ by
        simp only [ClientPc.created]
        omega)
      rw [← hrdata] at hsec
      rcases h.client.rdataMap (.inr hpc) with hnil | hhandle
      · exact .inl (by rw [hnil, List.length_nil])
      · rcases hsec with hnil | hsec
        · exact .inl (by rw [hnil, List.length_nil])
        · exact .inr ⟨hhandle, hsec⟩
    case mapSize =>
      cases hm
      exact .inr ⟨h.client.sizeMap (.inr hpc), h.replySize (by rw [hpc]; trivial)⟩
    case mapData =>
      cases hm
      rcases h.client.dataMap (by rw [hpc]; trivial) with hmap | hnil
      · exact .inr hmap
      · -- the size that was read is that of a reply which the client has been told of
        obtain ⟨j, hj, hpacket⟩ := h.sizes.reply.packet hpc
        have hle : s.server.received.length ≤ s.client.handed.length + 1 :=
          h.sizes.passing.tokens.received_le
        left
        show s.client.packet.toNat = 0
        rw [hpacket, Packet.size_toNat, hnil j (by omega), List.length_nil]

theorem step (h : OpenedUp cfg s) (hc : cfg.clientReuse = false) (hsrv : cfg.serverReuse = false)
    (hsizes : SizesFit cfg s a) (hroom : HasRoom cfg s a) (hreply : OpensReply cfg s a)
    (hs : (conversation cfg).step a s = some s') : OpenedUp cfg s' := by
  have hviews := h.views.step (h.mapsSucceed hc hsrv hroom) hs
  have htold := told_step h.told hs
  have hfit := h.sizes.step hsizes hs
  rcases conversation_step hs with ⟨c, k, rfl, hstep, rfl⟩ | ⟨srv, k, -, hstep, rfl⟩
  · exact ⟨hfit, htold, h.client.step hc h.replySize (hreply rfl) hstep,
      h.server.client_step hstep, hviews⟩
  · have hrequest : s.server.pc.phase = .reading → _ := fun hp =>
      h.requestSections hc (by rw [hp]; rfl)
    exact ⟨hfit, htold, h.client.server_step hstep,
      h.server.step hsrv h.told.replied hrequest hstep, hviews⟩

end OpenedUp

/-! ## Neither program crashes -/

/-- If the step opens a section, the program gets the handle that it will need. -/
def OpensCreated (cfg : Config) (s : State) (a : Proc) : Prop :=
  OpensBothOrNone s a ∧ OpensReply cfg s a

instance (cfg : Config) (s : State) (a : Proc) : Decidable (OpensCreated cfg s a) :=
  inferInstanceAs (Decidable (_ ∧ _))

/-- A run whose messages fit, which has room for its views and opens what has been
    created. -/
structure Covered (cfg : Config) (tr : List (State × Proc)) : Prop where
  sizes : Meets (SizesFit cfg) tr
  room : Meets (HasRoom cfg) tr
  opens : Meets (OpensCreated cfg) tr

/-- The invariant of a conversation that does not crash, in either mode. -/
structure Sound (cfg : Config) (s : State) : Prop where
  kept : cfg.serverReuse = true → KeptUp cfg s
  opened : cfg.serverReuse = false → OpenedUp cfg s

namespace Sound

variable {cfg : Config} {s s' : State} {a : Proc}

theorem init (hsame : cfg.clientReuse = cfg.serverReuse) : Sound cfg (conversation cfg).init where
  kept hr := .init (hsame.trans hr) hr
  opened _ := .init cfg

theorem step (h : Sound cfg s) (hsame : cfg.clientReuse = cfg.serverReuse)
    (hsizes : SizesFit cfg s a) (hroom : HasRoom cfg s a) (hopens : OpensCreated cfg s a)
    (hs : (conversation cfg).step a s = some s') : Sound cfg s' where
  kept hr := (h.kept hr).step (hsame.trans hr) hr hsizes hroom hopens.1 hs
  opened hr := (h.opened hr).step (hsame.trans hr) hr hsizes hroom hopens.2 hs

theorem up (h : Sound cfg s) : s.Up := by
  cases hr : cfg.serverReuse with
  | true => exact (h.kept hr).views.up
  | false => exact (h.opened hr).views.up

/-- Without `-r` the server opens nothing at its start, and with `-r` the client finds the
    reply's section. -/
theorem opensCreated (h : Sound cfg s)
    (hfirst : cfg.serverReuse = false → (cfg.reply 0).bytes ≠ [])
    (hboth : cfg.serverReuse = true → OpensBothOrNone s a) : OpensCreated cfg s a := by
  cases hr : cfg.serverReuse with
  | true =>
      refine ⟨hboth hr, fun _ hpc => .inl ?_⟩
      exact ((h.kept hr).handles.replySections (by rw [hpc]; trivial)).2
  | false =>
      have hopened := h.opened hr
      refine ⟨fun _ hpc => ?_, hopened.opensReply hr (hfirst hr)⟩
      have hreuse := hopened.sizes.server.start (by simp [hpc, ServerPc.started])
      rw [hr] at hreuse
      cases hreuse

end Sound

theorem up_of_covered {cfg : Config} {tr : List (State × Proc)} {s : State}
    (hsame : cfg.clientReuse = cfg.serverReuse) (h : Exec (conversation cfg) tr s)
    (hcovered : Covered cfg tr) : ∀ t ∈ visited tr s, t.Up := by
  intro t ht
  have hall : Meets (fun s a => SizesFit cfg s a ∧ HasRoom cfg s a ∧ OpensCreated cfg s a) tr :=
    fun e he => ⟨hcovered.sizes e he, hcovered.room e he, hcovered.opens e he⟩
  have hsound : Sound cfg t :=
    h.invariant_visited (Sound.init hsame)
      (fun _ _ _ hI ha hstep => hI.step hsame ha.1 ha.2.1 ha.2.2 hstep) hall t ht
  exact hsound.up

/-- In every such run every `MapViewOfFile` through a valid handle asks for no more than
    the section holds, and no program copies a byte through a view that it did not get. -/
theorem mapsFit_and_up {cfg : Config} {tr : List (State × Proc)} {s : State}
    (hsame : cfg.clientReuse = cfg.serverReuse) (h : Exec (conversation cfg) tr s)
    (hcovered : Covered cfg tr) : ∀ t ∈ visited tr s, MapsFit t ∧ t.Up := by
  intro t ht
  exact ⟨mapsFit_of_sizesFit h hcovered.sizes t ht, up_of_covered hsame h hcovered t ht⟩

/-- Two rounds without `-r`, each of them in the order that the events are meant to
    enforce. -/
theorem orderlyRounds_mapsFit_and_up :
    ∃ tr s, Exec (conversation twoReplies) tr s ∧ s.client.handed.length = 2 ∧
      ∀ t ∈ visited tr s, MapsFit t ∧ t.Up := by
  have hrun : ((conversation twoReplies).runIf
      (fun s a => decide (SizesFit twoReplies s a ∧ HasRoom twoReplies s a ∧
        OpensCreated twoReplies s a)) (orderlyRound ++ orderlyRound)
          (conversation twoReplies).init).map (fun s => s.client.handed.length) = some 2 := by
    decide +kernel
  obtain ⟨s, hs, hhanded⟩ := Option.map_eq_some_iff.mp hrun
  obtain ⟨tr, hexec, hmeets⟩ := Exec.of_runIf hs
  have hall : ∀ e ∈ tr, SizesFit twoReplies e.1 e.2 ∧ HasRoom twoReplies e.1 e.2 ∧
      OpensCreated twoReplies e.1 e.2 := fun e he => of_decide_eq_true (hmeets e he)
  have hcovered : Covered twoReplies tr :=
    { sizes := fun e he => (hall e he).1
      room := fun e he => (hall e he).2.1
      opens := fun e he => (hall e he).2.2 }
  exact ⟨tr, s, hexec, hhanded, mapsFit_and_up rfl hexec hcovered⟩

end IpcWin.SharedMem
