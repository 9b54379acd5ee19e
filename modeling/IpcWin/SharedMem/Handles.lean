/-
  IpcWin.SharedMem.Handles

  The mapping handles in reuse mode.

  Each program creates two sections at its start and tries to open the two of the
  other one; a handle that it did not get there is opened again in a later round.
  The client asks for each of its two handles whether it is missing.  The server
  asks `requestSizeMap == NULL || requestDataMap`: when it got the first handle
  and not the second, it never opens the second again.  That takes a server that
  runs between the two `CreateFileMapping` calls of the client, and every other
  order of the two start-ups is safe (`handlesValid_of_opensBothOrNone`).
-/

import IpcWin.SharedMem.Exchange

namespace IpcWin.SharedMem

open IpcWin.Lib IpcWin.Wire

/-! ## The calls of MapViewOfFile -/

/-- The arguments of a call of `MapViewOfFile`: the handle, `NULL` or not, the
    section it stands for, and the number of bytes asked for. -/
structure MapCall where
  handle : Bool
  sec : Option Section
  bytes : Nat
deriving DecidableEq, Repr

/-- The call that the server's next step makes. -/
def Server.mapping (s : Server) (k : Kernel) : Option MapCall :=
  match s.pc with
  | .mapRequestSize => some ⟨s.requestSizeMap, k.sizeOfDataRequest, 4⟩
  | .mapRequestData => some ⟨s.requestDataMap, k.clientMessageData, s.requestPacket.toNat⟩
  | .mapSize => some ⟨s.sizeMap, k.sizeOfData, 4⟩
  | .mapData => some ⟨s.dataMap, k.serverMessageData, s.response.bytes.length⟩
  | _ => none

/-- The call that the client's next step makes. -/
def Client.mapping (c : Client) (k : Kernel) : Option MapCall :=
  match c.pc with
  | .mapRequestSize => some ⟨c.rsizeMap, k.sizeOfDataRequest, 4⟩
  | .mapRequestData => some ⟨c.rdataMap, k.clientMessageData, c.rdata.bytes.length⟩
  | .mapSize => some ⟨c.sizeMap, k.sizeOfData, 4⟩
  | .mapData => some ⟨c.dataMap, k.serverMessageData, c.packet.toNat⟩
  | _ => none

/-- A call that one of the two programs is about to make. -/
def State.Maps (s : State) (m : MapCall) : Prop :=
  s.server.mapping s.kernel = some m ∨ s.client.mapping s.kernel = some m

/-- No `MapViewOfFile` is given a `NULL` handle. -/
def HandlesValid (s : State) : Prop := ∀ m, s.Maps m → m.handle = true

/-- If the step is the server's second `OpenFileMapping` at its start and the first
    one succeeded, the client has created the second section too. -/
def OpensBothOrNone (s : State) (a : Proc) : Prop :=
  a = .server → s.server.pc = .startOpenData → s.server.requestSizeMap = true →
    s.kernel.clientMessageData.isSome = true

instance (s : State) (a : Proc) : Decidable (OpensBothOrNone s a) :=
  inferInstanceAs (Decidable (_ → _ → _ → _))

/-! ## Sections stay -/

theorem isSome_createFileMapping_of_pos {size : Nat} (h : size ≠ 0) (sec : Option Section) :
    (createFileMapping size sec).isSome = true := by
  cases sec with
  | none =>
      rw [createFileMapping, if_neg h]
      rfl
  | some sec => rfl

theorem isSome_of_copyTo {view : Bool} {sec sec' : Option Section} {bytes : List Byte}
    (h : copyTo view sec bytes = some sec') (hsec : sec.isSome = true) :
    sec'.isSome = true := by
  unfold copyTo at h
  split_ifs at h
  · rw [← Option.some.inj h]
    exact hsec
  · obtain ⟨sec, -, rfl⟩ := Option.map_eq_some_iff.mp h
    rfl

@[simp] theorem isSome_setEvent (e : Option Event) : (setEvent e).isSome = e.isSome := by
  cases e <;> rfl

@[simp] theorem isSome_waitEvent (e : Option Event) : (waitEvent e).isSome = e.isSome := by
  cases e <;> rfl

/-- What a step of the server leaves alone: the client's two sections, and the event
    of its replies once it exists. -/
theorem Server.step_frame {cfg : Config} {s s' : Server} {k k' : Kernel}
    (h : s.step cfg k = some (s', k')) :
    k'.sizeOfDataRequest = k.sizeOfDataRequest ∧ k'.clientMessageData = k.clientMessageData ∧
      (k.serverMadeResponse.isSome = true → k'.serverMadeResponse.isSome = true) := by
  cases hpc : s.pc <;> simp only [Server.step, hpc] at h
  case readSize | readData | writeSize | writeData =>
    split_ifs at h
    split at h <;> cases h <;> exact ⟨rfl, rfl, id⟩
  case createResponse =>
    split_ifs at h
    cases h
    exact ⟨rfl, rfl, fun _ => isSome_createEvent _ _⟩
  case setResponse =>
    split_ifs at h
    cases h
    exact ⟨rfl, rfl, fun he => (isSome_setEvent _).trans he⟩
  all_goals
    split_ifs at h
    cases h
    exact ⟨rfl, rfl, id⟩

/-- What a step of the client leaves alone: the server's two sections, and whether
    there is an event of its replies. -/
theorem Client.step_frame {cfg : Config} {c c' : Client} {k k' : Kernel}
    (h : c.step cfg k = some (c', k')) :
    k'.sizeOfData = k.sizeOfData ∧ k'.serverMessageData = k.serverMessageData ∧
      k'.serverMadeResponse.isSome = k.serverMadeResponse.isSome := by
  cases hpc : c.pc <;> simp only [Client.step, hpc] at h
  case readSize | readData | writeSize | writeData =>
    split_ifs at h
    split at h <;> cases h <;> exact ⟨rfl, rfl, rfl⟩
  case waitResponse =>
    split_ifs at h
    cases h
    exact ⟨rfl, rfl, isSome_waitEvent _⟩
  all_goals
    split_ifs at h
    cases h
    exact ⟨rfl, rfl, rfl⟩

/-! ## The server's handles -/

/-- The server's sections have been created. -/
def ServerPc.started : ServerPc → Prop
  | .startOpenSize | .startOpenData | .startCreateSize | .startCreateData => False
  | _ => True

/-- The server is at the request sections, past its first `OpenFileMapping`. -/
def ServerPc.usesRequest : ServerPc → Prop
  | .openData | .mapRequestSize | .readSize | .mapRequestData => True
  | _ => False

/-- The client is past its wait for a response, and not yet done with the reply
    sections. -/
def ClientPc.usesReply : ClientPc → Prop
  | .waitResponse | .openSize | .openData | .mapSize | .readSize | .mapData => True
  | _ => False

/-- The handles that the server holds in reuse mode. -/
structure ServerHandles (s : Server) (k : Kernel) : Prop where
  sizeMap : s.pc.started ∨ s.pc = .startCreateData →
    s.sizeMap = true ∧ k.sizeOfData.isSome = true
  dataMap : s.pc.started → s.dataMap = true ∧ k.serverMessageData.isSome = true
  bothOrNone : s.pc ≠ .startOpenData → s.pc ≠ .openData → s.requestSizeMap = true →
    s.requestDataMap = true
  requestSizeMap : s.pc.usesRequest → s.requestSizeMap = true
  kept : s.pc ≠ .createSize ∧ s.pc ≠ .createData
  answered : k.serverMadeResponse.isSome = true → s.pc.started

/-- No step of the client closes what the server has open. -/
theorem ServerHandles.client_step {cfg : Config} {s : Server} {c c' : Client} {k k' : Kernel}
    (h : ServerHandles s k) (hs : c.step cfg k = some (c', k')) : ServerHandles s k' := by
  obtain ⟨hsize, hdata, hmade⟩ := Client.step_frame hs
  refine { h with sizeMap := ?_, dataMap := ?_, answered := ?_ }
  · rw [hsize]
    exact h.sizeMap
  · rw [hdata]
    exact h.dataMap
  · rw [hmade]
    exact h.answered

/-- A step behind the start that changes no handle and closes no section. -/
theorem ServerHandles.keep {s s' : Server} {k k' : Kernel} (h : ServerHandles s k)
    (hpc : s.pc.started ∧ s.pc ≠ .openData) (hpc' : s'.pc.started)
    (hkept : s'.pc ≠ .createSize ∧ s'.pc ≠ .createData)
    (huse : s'.pc.usesRequest → s.pc.usesRequest)
    (hreq : s'.requestSizeMap = s.requestSizeMap ∧ s'.requestDataMap = s.requestDataMap)
    (hown : s'.sizeMap = s.sizeMap ∧ s'.dataMap = s.dataMap)
    (hsize : k.sizeOfData.isSome = true → k'.sizeOfData.isSome = true)
    (hdata : k.serverMessageData.isSome = true → k'.serverMessageData.isSome = true) :
    ServerHandles s' k' := by
  obtain ⟨hsizeMap, hsizeSec⟩ := h.sizeMap (.inl hpc.1)
  obtain ⟨hdataMap, hdataSec⟩ := h.dataMap hpc.1
  have hstart : s.pc ≠ .startOpenData := by
    intro heq
    rw [heq] at hpc
    exact hpc.1
  refine ⟨fun _ => ⟨?_, hsize hsizeSec⟩, fun _ => ⟨?_, hdata hdataSec⟩, ?_,
    ?_, hkept, fun _ => hpc'⟩
  · rw [hown.1, hsizeMap]
  · rw [hown.2, hdataMap]
  · intro _ _
    rw [hreq.1, hreq.2]
    exact h.bothOrNone hstart hpc.2
  · intro hu
    rw [hreq.1]
    exact h.requestSizeMap (huse hu)

theorem ServerHandles.step {cfg : Config} {s s' : Server} {k k' : Kernel}
    (hr : cfg.serverReuse = true) (h : ServerHandles s k)
    (hrequest : s.pc.phase = .reading →
      k.sizeOfDataRequest.isSome = true ∧ k.clientMessageData.isSome = true)
    (hstart : s.pc = .startOpenData → s.requestSizeMap = true →
      k.clientMessageData.isSome = true)
    (hs : s.step cfg k = some (s', k')) : ServerHandles s' k' := by
  cases hpc : s.pc <;> simp only [Server.step, hpc] at hs
  case startOpenSize =>
    split_ifs at hs
    cases hs
    have hans := h.answered
    rw [hpc] at hans
    exact ⟨by simp [ServerPc.started], by simp [ServerPc.started], by simp,
      by simp [ServerPc.usesRequest], by simp, hans⟩
  case startOpenData =>
    split_ifs at hs
    cases hs
    have hans := h.answered
    rw [hpc] at hans
    exact ⟨by simp [ServerPc.started], by simp [ServerPc.started], fun _ _ => hstart hpc,
      by simp [ServerPc.usesRequest], by simp, hans⟩
  case startCreateSize =>
    split_ifs at hs
    cases hs
    have hans := h.answered
    rw [hpc] at hans
    have hsec := isSome_createFileMapping_of_pos (show 4 ≠ 0 by decide) k.sizeOfData
    exact ⟨fun _ => ⟨hsec, hsec⟩, by simp [ServerPc.started],
      fun _ _ => h.bothOrNone (by simp [hpc]) (by simp [hpc]), by simp [ServerPc.usesRequest],
      by simp, hans⟩
  case startCreateData =>
    split_ifs at hs
    cases hs
    have hsec := isSome_createFileMapping_of_pos (show 5000 * 1024 ≠ 0 by decide)
      k.serverMessageData
    exact ⟨fun _ => h.sizeMap (.inr hpc), fun _ => ⟨hsec, hsec⟩,
      fun _ _ => h.bothOrNone (by simp [hpc]) (by simp [hpc]), by simp [ServerPc.usesRequest],
      by simp, fun _ => trivial⟩
  case waitMade =>
    split_ifs at hs
    cases hs
    -- it has both handles or none of them, so both are opened again
    have hopen : (s.released cfg).pc = .openSize := by
      have hboth := h.bothOrNone (by simp [hpc]) (by simp [hpc])
      unfold Server.released
      cases hsize : s.requestSizeMap with
      | false => simp
      | true => simp [hboth hsize]
    have hsame : s.released cfg = { s with pc := .openSize } := by
      rw [← hopen]
      rfl
    rw [hsame]
    exact h.keep (by simp [hpc, ServerPc.started]) trivial (by simp)
      (by simp [ServerPc.usesRequest]) ⟨rfl, rfl⟩ ⟨rfl, rfl⟩ id id
  case openSize =>
    split_ifs at hs
    cases hs
    obtain ⟨hsize, hdata⟩ := hrequest (by rw [hpc]; rfl)
    have hst : s.pc.started := by
      rw [hpc]
      trivial
    exact ⟨fun _ => h.sizeMap (.inl hst), fun _ => h.dataMap hst, by simp, fun _ => hsize, by simp,
      fun _ => trivial⟩
  case openData =>
    split_ifs at hs
    cases hs
    obtain ⟨hsize, hdata⟩ := hrequest (by rw [hpc]; rfl)
    have hst : s.pc.started := by
      rw [hpc]
      trivial
    exact ⟨fun _ => h.sizeMap (.inl hst), fun _ => h.dataMap hst, fun _ _ _ => hdata,
      fun _ => h.requestSizeMap (by rw [hpc]; trivial), by simp, fun _ => trivial⟩
  case build =>
    split_ifs at hs
    cases hs
    have hsame : (s.build cfg).pc = .mapSize := by
      simp [Server.build, hr]
    exact h.keep (by simp [hpc, ServerPc.started]) (by rw [hsame]; trivial) (by simp [hsame])
      (by simp [hsame, ServerPc.usesRequest]) ⟨rfl, rfl⟩ ⟨rfl, rfl⟩ id id
  case createSize => exact absurd hpc h.kept.1
  case createData => exact absurd hpc h.kept.2
  case readSize | readData =>
    split_ifs at hs
    split at hs
    · cases hs
      exact h.keep (by simp [hpc, ServerPc.started]) (by simp [Server.crash, hpc, ServerPc.started])
        h.kept id ⟨rfl, rfl⟩ ⟨rfl, rfl⟩ id id
    · cases hs
      exact h.keep (by simp [hpc, ServerPc.started]) trivial (by simp)
        (by simp [hpc, ServerPc.usesRequest]) ⟨rfl, rfl⟩ ⟨rfl, rfl⟩ id id
  case writeSize =>
    split_ifs at hs
    split at hs
    · cases hs
      exact h.keep (by simp [hpc, ServerPc.started]) (by simp [Server.crash, hpc, ServerPc.started])
        h.kept id ⟨rfl, rfl⟩ ⟨rfl, rfl⟩ id id
    · rename_i sec hsec
      cases hs
      exact h.keep (by simp [hpc, ServerPc.started]) trivial (by simp)
        (by simp [hpc, ServerPc.usesRequest]) ⟨rfl, rfl⟩ ⟨rfl, rfl⟩ (isSome_of_copyTo hsec) id
  case writeData =>
    split_ifs at hs
    split at hs
    · cases hs
      exact h.keep (by simp [hpc, ServerPc.started]) (by simp [Server.crash, hpc, ServerPc.started])
        h.kept id ⟨rfl, rfl⟩ ⟨rfl, rfl⟩ id id
    · rename_i sec hsec
      cases hs
      exact h.keep (by simp [hpc, ServerPc.started]) trivial (by simp)
        (by simp [hpc, ServerPc.usesRequest]) ⟨rfl, rfl⟩ ⟨rfl, rfl⟩ id (isSome_of_copyTo hsec)
  -- every other step is one behind the start that touches no handle
  all_goals
    split_ifs at hs
    cases hs
    exact h.keep (by simp [hpc, ServerPc.started]) trivial (by simp)
      (by simp [hpc, ServerPc.usesRequest]) ⟨rfl, rfl⟩ ⟨rfl, rfl⟩ id id

/-! ## The client's handles -/

/-- The client maps the reply sections with the handles that it has. -/
def ClientPc.mapsReply : ClientPc → Prop
  | .mapSize | .readSize | .mapData => True
  | _ => False

/-- The handles that the client holds in reuse mode. -/
structure ClientHandles (c : Client) (k : Kernel) : Prop where
  rsizeMap : c.pc ≠ .startCreateSize → c.rsizeMap = true ∧ k.sizeOfDataRequest.isSome = true
  rdataMap : c.pc ≠ .startCreateSize → c.pc ≠ .startCreateData →
    c.rdataMap = true ∧ k.clientMessageData.isSome = true
  sizeMap : c.pc = .openData ∨ c.pc.mapsReply → c.sizeMap = true
  dataMap : c.pc.mapsReply → c.dataMap = true
  kept : c.pc ≠ .createSize ∧ c.pc ≠ .createData
  answered : c.pc.usesReply → k.serverMadeResponse.isSome = true

/-- No step of the server closes what the client has open. -/
theorem ClientHandles.server_step {cfg : Config} {c : Client} {s s' : Server} {k k' : Kernel}
    (h : ClientHandles c k) (hs : s.step cfg k = some (s', k')) : ClientHandles c k' := by
  obtain ⟨hsize, hdata, hmade⟩ := Server.step_frame hs
  refine { h with rsizeMap := ?_, rdataMap := ?_, answered := ?_ }
  · rw [hsize]
    exact h.rsizeMap
  · rw [hdata]
    exact h.rdataMap
  · intro hu
    exact hmade (h.answered hu)

/-- A step behind the creation that changes no handle and closes no section. -/
theorem ClientHandles.keep {c c' : Client} {k k' : Kernel} (h : ClientHandles c k)
    (hpc : c.pc ≠ .startCreateSize ∧ c.pc ≠ .startCreateData)
    (hkept : c'.pc ≠ .createSize ∧ c'.pc ≠ .createData) (hopen : c'.pc ≠ .openData)
    (hmaps : c'.pc.mapsReply → c.pc.mapsReply) (huse : c'.pc.usesReply → c.pc.usesReply)
    (hown : c'.rsizeMap = c.rsizeMap ∧ c'.rdataMap = c.rdataMap)
    (hreply : c'.sizeMap = c.sizeMap ∧ c'.dataMap = c.dataMap)
    (hsize : k.sizeOfDataRequest.isSome = true → k'.sizeOfDataRequest.isSome = true)
    (hdata : k.clientMessageData.isSome = true → k'.clientMessageData.isSome = true)
    (hans : k'.serverMadeResponse = k.serverMadeResponse) : ClientHandles c' k' := by
  obtain ⟨hsizeMap, hsizeSec⟩ := h.rsizeMap hpc.1
  obtain ⟨hdataMap, hdataSec⟩ := h.rdataMap hpc.1 hpc.2
  refine ⟨fun _ => ⟨?_, hsize hsizeSec⟩, fun _ _ => ⟨?_, hdata hdataSec⟩, ?_,
    ?_, hkept, ?_⟩
  · rw [hown.1, hsizeMap]
  · rw [hown.2, hdataMap]
  · intro hu
    rw [hreply.1]
    exact h.sizeMap (.inr (hmaps (hu.resolve_left hopen)))
  · intro hu
    rw [hreply.2]
    exact h.dataMap (hmaps hu)
  · intro hu
    rw [hans]
    exact h.answered (huse hu)

theorem ClientHandles.step {cfg : Config} {c c' : Client} {k k' : Kernel}
    (hr : cfg.clientReuse = true) (h : ClientHandles c k)
    (hreply : c.pc.usesReply → k.sizeOfData.isSome = true ∧ k.serverMessageData.isSome = true)
    (hs : c.step cfg k = some (c', k')) : ClientHandles c' k' := by
  cases hpc : c.pc <;> simp only [Client.step, hpc] at hs
  case startCreateSize =>
    split_ifs at hs
    cases hs
    have hsec := isSome_createFileMapping_of_pos (show 4 ≠ 0 by decide) k.sizeOfDataRequest
    exact ⟨fun _ => ⟨hsec, hsec⟩, by simp, by simp [ClientPc.mapsReply],
      by simp [ClientPc.mapsReply], by simp, by simp [ClientPc.usesReply]⟩
  case startCreateData =>
    split_ifs at hs
    cases hs
    have hsec := isSome_createFileMapping_of_pos (show 3000 * 1024 ≠ 0 by decide)
      k.clientMessageData
    exact ⟨fun _ => h.rsizeMap (by simp [hpc]), fun _ _ => ⟨hsec, hsec⟩,
      by simp [ClientPc.mapsReply], by simp [ClientPc.mapsReply], by simp,
      by simp [ClientPc.usesReply]⟩
  case startOpenSize | startOpenData =>
    split_ifs at hs
    cases hs
    exact ⟨fun _ => h.rsizeMap (by simp [hpc]), fun _ _ => h.rdataMap (by simp [hpc]) (by simp [hpc]),
      by simp [ClientPc.mapsReply], by simp [ClientPc.mapsReply], by simp,
      by simp [ClientPc.usesReply]⟩
  case build =>
    split_ifs at hs
    cases hs
    have hsame : (c.build cfg).pc = .mapRequestSize := by
      simp [Client.build, hr]
    exact h.keep (by simp [hpc]) (by simp [hsame]) (by simp [hsame])
      (by simp [hsame, ClientPc.mapsReply]) (by simp [hsame, ClientPc.usesReply]) ⟨rfl, rfl⟩
      ⟨rfl, rfl⟩ id id rfl
  case createSize => exact absurd hpc h.kept.1
  case createData => exact absurd hpc h.kept.2
  case openResponse =>
    split_ifs at hs with _ hans
    cases hs
    exact ⟨fun _ => h.rsizeMap (by simp [hpc]), fun _ _ => h.rdataMap (by simp [hpc]) (by simp [hpc]),
      by simp [ClientPc.mapsReply], by simp [ClientPc.mapsReply], by simp, fun _ => hans⟩
  case waitResponse =>
    split_ifs at hs
    cases hs
    have hans := h.answered (by rw [hpc]; trivial)
    refine ⟨fun _ => h.rsizeMap (by simp [hpc]), fun _ _ => h.rdataMap (by simp [hpc]) (by simp [hpc]),
      ?_, ?_, ?_, fun _ => (isSome_waitEvent _).trans hans⟩
    -- the two handles are used as they are only if neither is missing
    all_goals
      unfold Client.released
      split_ifs with hmissing
    · simp [ClientPc.mapsReply]
    · simp only [Bool.not_eq_true, Bool.or_eq_false_iff, Bool.not_eq_false'] at hmissing
      exact fun _ => hmissing.2
    · simp [ClientPc.mapsReply]
    · simp only [Bool.not_eq_true, Bool.or_eq_false_iff, Bool.not_eq_false'] at hmissing
      exact fun _ => hmissing.1.2
    · simp
    · simp
  case openSize =>
    split_ifs at hs
    cases hs
    have hu : c.pc.usesReply := by
      rw [hpc]
      trivial
    exact ⟨fun _ => h.rsizeMap (by simp [hpc]), fun _ _ => h.rdataMap (by simp [hpc]) (by simp [hpc]),
      fun _ => (hreply hu).1, by simp [ClientPc.mapsReply], by simp, fun _ => h.answered hu⟩
  case openData =>
    split_ifs at hs
    cases hs
    have hu : c.pc.usesReply := by
      rw [hpc]
      trivial
    exact ⟨fun _ => h.rsizeMap (by simp [hpc]), fun _ _ => h.rdataMap (by simp [hpc]) (by simp [hpc]),
      fun _ => h.sizeMap (.inl hpc), fun _ => (hreply hu).2, by simp, fun _ => h.answered hu⟩
  case writeSize | writeData =>
    split_ifs at hs
    split at hs
    · cases hs
      exact h.keep (by simp [hpc]) h.kept (by simp [Client.crash, hpc]) id id ⟨rfl, rfl⟩ ⟨rfl, rfl⟩
        id id rfl
    · rename_i sec hsec
      cases hs
      exact h.keep (by simp [hpc]) (by simp) (by simp) (by simp [ClientPc.mapsReply])
        (by simp [ClientPc.usesReply]) ⟨rfl, rfl⟩ ⟨rfl, rfl⟩
        (by first | exact id | exact isSome_of_copyTo hsec)
        (by first | exact id | exact isSome_of_copyTo hsec) rfl
  case readSize | readData =>
    split_ifs at hs
    split at hs
    · cases hs
      exact h.keep (by simp [hpc]) h.kept (by simp [Client.crash, hpc]) id id ⟨rfl, rfl⟩ ⟨rfl, rfl⟩
        id id rfl
    · cases hs
      exact h.keep (by simp [hpc]) (by simp) (by simp) (by simp [hpc, ClientPc.mapsReply])
        (by simp [hpc, ClientPc.usesReply]) ⟨rfl, rfl⟩ ⟨rfl, rfl⟩ id id rfl
  -- every other step is one behind the creation that touches no handle
  all_goals
    split_ifs at hs
    cases hs
    exact h.keep (by simp [hpc]) (by simp) (by simp) (by simp [hpc, ClientPc.mapsReply])
      (by simp [hpc, ClientPc.usesReply]) ⟨rfl, rfl⟩ ⟨rfl, rfl⟩ id id rfl

/-! ## Both programs together -/

/-- The invariant of reuse mode: the exchange, and the handles of both programs. -/
structure HandlesOpened (cfg : Config) (s : State) : Prop where
  passing : Passing cfg s
  server : ServerHandles s.server s.kernel
  client : ClientHandles s.client s.kernel

namespace HandlesOpened

variable {cfg : Config} {s s' : State} {a : Proc}

theorem init (hc : cfg.clientReuse = true) (hs : cfg.serverReuse = true) :
    HandlesOpened cfg (conversation cfg).init := by
  refine ⟨passing_init cfg, ?_, ?_⟩
  · have hpc : (Server.start cfg).pc = .startOpenSize := by simp [Server.start, hs]
    refine ⟨?_, ?_, ?_, ?_, ?_, ?_⟩
    all_goals simp [conversation, hpc, ServerPc.started, ServerPc.usesRequest, Kernel.start]
    simp [Server.start]
  · have hpc : (Client.start cfg).pc = .startCreateSize := by simp [Client.start, hc]
    refine ⟨?_, ?_, ?_, ?_, ?_, ?_⟩
    all_goals simp [conversation, hpc, ClientPc.mapsReply, ClientPc.usesReply]

/-- While the server reads, the client asks, so it has created its sections. -/
theorem requestSections (h : HandlesOpened cfg s) (hpc : s.server.pc.phase = .reading) :
    s.kernel.sizeOfDataRequest.isSome = true ∧ s.kernel.clientMessageData.isSome = true := by
  have hone := h.passing.tokens.one
  have hasking : s.client.pc.phase.holds = 0 := by
    simp only [Client.view, Server.view, hpc, ServerPhase.holds] at hone
    omega
  have hstart : s.client.pc ≠ .startCreateSize := by
    intro heq
    simp [heq, ClientPc.phase, ClientPhase.holds] at hasking
  have hstart' : s.client.pc ≠ .startCreateData := by
    intro heq
    simp [heq, ClientPc.phase, ClientPhase.holds] at hasking
  exact ⟨(h.client.rsizeMap hstart).2, (h.client.rdataMap hstart hstart').2⟩

/-- A client past its wait has been answered, by a server that has started. -/
theorem replySections (h : HandlesOpened cfg s) (hpc : s.client.pc.usesReply) :
    s.kernel.sizeOfData.isSome = true ∧ s.kernel.serverMessageData.isSome = true := by
  have hst := h.server.answered (h.client.answered hpc)
  exact ⟨(h.server.sizeMap (.inl hst)).2, (h.server.dataMap hst).2⟩

theorem step (hc : cfg.clientReuse = true) (hsrv : cfg.serverReuse = true)
    (h : HandlesOpened cfg s) (ha : OpensBothOrNone s a)
    (hs : (conversation cfg).step a s = some s') : HandlesOpened cfg s' := by
  have hpass := passing_step h.passing hs
  rcases conversation_step hs with ⟨c, k, rfl, hstep, rfl⟩ | ⟨srv, k, rfl, hstep, rfl⟩
  · exact ⟨hpass, h.server.client_step hstep, h.client.step hc h.replySections hstep⟩
  · exact ⟨hpass, h.server.step hsrv h.requestSections (ha rfl) hstep,
      h.client.server_step hstep⟩

theorem handlesValid (h : HandlesOpened cfg s) : HandlesValid s := by
  intro m hm
  rcases hm with hm | hm
  · have hreq := h.server.requestSizeMap
    cases hpc : s.server.pc <;> simp only [Server.mapping, hpc, reduceCtorEq] at hm
    case mapRequestSize =>
      cases hm
      exact hreq (by rw [hpc]; trivial)
    case mapRequestData =>
      cases hm
      exact h.server.bothOrNone (by simp [hpc]) (by simp [hpc]) (hreq (by rw [hpc]; trivial))
    case mapSize =>
      cases hm
      exact (h.server.sizeMap (by rw [hpc]; exact .inl trivial)).1
    case mapData =>
      cases hm
      exact (h.server.dataMap (by rw [hpc]; trivial)).1
  · cases hpc : s.client.pc <;> simp only [Client.mapping, hpc, reduceCtorEq] at hm
    case mapRequestSize =>
      cases hm
      exact (h.client.rsizeMap (by simp [hpc])).1
    case mapRequestData =>
      cases hm
      exact (h.client.rdataMap (by simp [hpc]) (by simp [hpc])).1
    case mapSize =>
      cases hm
      exact h.client.sizeMap (by rw [hpc]; exact .inr trivial)
    case mapData =>
      cases hm
      exact h.client.dataMap (by rw [hpc]; trivial)

end HandlesOpened

/-- In reuse mode, in every run in which the server does not open the first of the
    client's sections without the second, no `MapViewOfFile` is given a `NULL`
    handle. -/
theorem handlesValid_of_opensBothOrNone {cfg : Config} {tr : List (State × Proc)} {s : State}
    (hc : cfg.clientReuse = true) (hs : cfg.serverReuse = true)
    (h : Exec (conversation cfg) tr s) (hopens : Meets OpensBothOrNone tr) :
    ∀ t ∈ visited tr s, HandlesValid t := by
  intro t ht
  have hopened : HandlesOpened cfg t :=
    h.invariant_visited (HandlesOpened.init hc hs)
      (fun _ _ _ hI ha hstep => hI.step hc hs ha hstep) hopens t ht
  exact hopened.handlesValid

/-! ## A start-up that is safe, and one that is not -/

/-- One-byte requests and replies through sections created once. -/
def reuseConfig : Config :=
  { clientReuse := true, serverReuse := true
    request := fun _ => .ofByte 0x3F
    builder := fun _ => .ofByte 0x41 }

/-- The server starts first and opens nothing; then the client starts and asks, and
    the server maps the request. -/
def serverFirst : List Proc :=
  List.replicate 4 .server ++ List.replicate 11 .client ++ List.replicate 6 .server

theorem serverFirst_handlesValid :
    ∃ tr s, Exec (conversation reuseConfig) tr s ∧ s.server.requestDataMap = true ∧
      ∀ t ∈ visited tr s, HandlesValid t := by
  have hrun : ((conversation reuseConfig).runIf (fun s a => decide (OpensBothOrNone s a))
      serverFirst (conversation reuseConfig).init).map
        (fun s => s.server.requestDataMap) = some true := by
    decide +kernel
  obtain ⟨s, hs, hmap⟩ := Option.map_eq_some_iff.mp hrun
  obtain ⟨tr, hexec, hmeets⟩ := Exec.of_runIf hs
  exact ⟨tr, s, hexec, hmap, handlesValid_of_opensBothOrNone rfl rfl hexec
    fun e he => of_decide_eq_true (hmeets e he)⟩

/-- The server starts between the two `CreateFileMapping` calls of the client; the
    client asks, and the server goes on to map the request. -/
def serverBetween : List Proc :=
  [.client] ++ List.replicate 4 .server ++ List.replicate 10 .client ++ List.replicate 4 .server

/-- The second handle is `NULL`, and is not opened again. -/
theorem serverBetween_not_handlesValid :
    reuseConfig.clientReuse = true ∧ reuseConfig.serverReuse = true ∧
      ∃ tr s, Exec (conversation reuseConfig) tr s ∧ s.server.pc = .mapRequestData ∧
        s.server.requestDataMap = false ∧ ¬ HandlesValid s := by
  have hrun : ((conversation reuseConfig).run serverBetween).map
      (fun s => (s.server.pc, s.server.requestDataMap)) = some (.mapRequestData, false) := by
    decide +kernel
  obtain ⟨s, hs, hpair⟩ := Option.map_eq_some_iff.mp hrun
  obtain ⟨hpc, hmap⟩ := Prod.mk.inj hpair
  obtain ⟨tr, hexec⟩ := Exec.of_run hs
  refine ⟨rfl, rfl, tr, s, hexec, hpc, hmap, ?_⟩
  intro hvalid
  have hcall : s.Maps ⟨s.server.requestDataMap, s.kernel.clientMessageData,
      s.server.requestPacket.toNat⟩ := by
    left
    simp only [Server.mapping, hpc]
  have htrue := hvalid _ hcall
  rw [hmap] at htrue
  cases htrue

end IpcWin.SharedMem
