/-
  IpcWin.Native.Codec

  The native translation functions against the wire format: one specification
  per function, and nothing above this module unfolds them.

  * `getSize` is the wire length reduced to an `int`.
  * `toArray` after `getSize` fills a buffer of the wire length with the wire
    bytes, each offset once (`toArray_getSize`); the callers' sequence succeeds
    exactly on the messages whose wire length is an `int` (`encode_eq_ok_iff`).
  * `fromArray` is the wire format's split, followed by the bound check on the
    name that the `memcpy` needs (`fromArray_eq`).
-/

import IpcWin.Native.Objects

namespace IpcWin.Native

open IpcWin.Lib IpcWin.Wire

/-! ## getSize -/

theorem stringsSize_eq (ss : List Str) (size : Word) :
    stringsSize ss size = size + BitVec.ofNat 32 (sectionLength ss) := by
  induction ss generalizing size with
  | nil => simp [stringsSize]
  | cons s ss ih =>
      rw [stringsSize, ih, sectionLength_cons, BitVec.add_assoc, ← BitVec.ofNat_add]

/-- The wire length of a request, as a natural. -/
def CustomRequest.wireLength (r : CustomRequest) : Nat :=
  requestLength r.mIds r.mTypes r.mName

/-- The wire bytes of a request. -/
def CustomRequest.wireBytes (r : CustomRequest) : List Byte :=
  requestBytes r.mIds r.mTypes r.mName

@[simp] theorem CustomRequest.wireBytes_length (r : CustomRequest) :
    r.wireBytes.length = r.wireLength := requestBytes_length _ _ _

theorem CustomRequest.getSize_fst (r : CustomRequest) :
    r.getSize.1 = BitVec.ofNat 32 r.wireLength := by
  simp only [getSize, stringsSize_eq, wireLength, requestLength, BitVec.ofNat_eq_ofNat,
    BitVec.reduceMul, ← BitVec.ofNat_add]
  congr 1
  omega

theorem CustomRequest.getSize_snd (r : CustomRequest) :
    r.getSize.2 =
      { r with
        idss := BitVec.ofNat 32 (sectionLength r.mIds)
        typess := BitVec.ofNat 32 (sectionLength r.mTypes) } := by
  simp [getSize, stringsSize_eq]

/-- The wire length of a response, as a natural. -/
def CustomResponse.wireLength (r : CustomResponse) : Nat := responseLength r.mData

/-- The wire bytes of a response. -/
def CustomResponse.wireBytes (r : CustomResponse) : List Byte := responseBytes r.mData

@[simp] theorem CustomResponse.wireBytes_length (r : CustomResponse) :
    r.wireBytes.length = r.wireLength := responseBytes_length _

theorem CustomResponse.getSize_eq (r : CustomResponse) :
    r.getSize = BitVec.ofNat 32 r.wireLength := by
  rw [getSize, stringsSize_eq, wireLength, responseLength, BitVec.ofNat_add]
  rfl

/-! ## toArray -/

/-- `toArray` right after `getSize` fills a buffer of the wire length with the
    wire bytes, whatever the buffer held, writing each offset once. -/
theorem CustomRequest.toArray_getSize (r : CustomRequest) (buffer : List Byte) (size : Word)
    (hlen : buffer.length = r.wireLength) :
    ∃ o, r.getSize.2.toArray buffer size = .ok o ∧ o.mem = r.wireBytes ∧
      o.written = List.range r.wireLength := by
  have hsize := hlen
  simp only [wireLength, requestLength] at hsize
  -- every copy fits: what is filled so far and the rest are the wire length
  obtain ⟨o₁, h₁, f₁⟩ := (OutBuf.filled_start buffer).put
    (intBytes (BitVec.ofNat 32 (sectionLength r.mIds))) (by simp; omega)
  obtain ⟨o₂, h₂, f₂⟩ := f₁.put (intBytes (BitVec.ofNat 32 r.mIds.length)) (by simp; omega)
  obtain ⟨o₃, h₃, f₃⟩ := f₂.put
    (intBytes (BitVec.ofNat 32 (sectionLength r.mTypes))) (by simp; omega)
  obtain ⟨o₄, h₄, f₄⟩ := f₃.put (intBytes (BitVec.ofNat 32 r.mTypes.length))
    (by simp; omega)
  obtain ⟨o₅, h₅, f₅⟩ := f₄.put (intBytes (BitVec.ofNat 32 (r.mName.length + 1)))
    (by simp; omega)
  obtain ⟨o₆, h₆, f₆⟩ := f₅.putStrings r.mIds (by simp; omega)
  obtain ⟨o₇, h₇, f₇⟩ := f₆.putStrings r.mTypes (by simp; omega)
  obtain ⟨o₈, h₈, f₈⟩ := f₇.put (r.mName ++ [nul]) (by simp; omega)
  -- the eight pieces in the order of the copies are the wire bytes
  have hout : ([] ++ intBytes (BitVec.ofNat 32 (sectionLength r.mIds)) ++
      intBytes (BitVec.ofNat 32 r.mIds.length) ++
      intBytes (BitVec.ofNat 32 (sectionLength r.mTypes)) ++
      intBytes (BitVec.ofNat 32 r.mTypes.length) ++
      intBytes (BitVec.ofNat 32 (r.mName.length + 1)) ++ terminated nul r.mIds ++
      terminated nul r.mTypes ++ (r.mName ++ [nul])) = r.wireBytes := by
    simp [wireBytes, requestBytes, requestHeader, requestBody, RequestHeader.bytes]
  rw [hout] at f₈
  refine ⟨o₈, ?_, f₈.mem_eq (by simp [hlen]), by rw [f₈.written, wireBytes_length]⟩
  rw [getSize_snd]
  simp only [toArray, h₁, h₂, h₃, h₄, h₅, h₆, h₇, bind, Except.bind]
  exact h₈

/-- The callers' sequence puts out the wire bytes when their number is an `int`. -/
theorem CustomRequest.encode_of_lt (junk : Nat → Byte) {r : CustomRequest}
    (hfit : r.wireLength < 2 ^ 31) : r.encode junk = .ok r.wireBytes := by
  obtain ⟨o, ho, hmem, -⟩ := r.toArray_getSize ((List.range r.wireLength).map junk)
    (BitVec.ofNat 32 r.wireLength) (by simp)
  unfold encode
  rw [← Prod.eta r.getSize]
  simp only [getSize_fst, malloc_of_lt hfit, ho, Except.map, hmem]

theorem CustomResponse.toArray_eq (r : CustomResponse) (buffer : List Byte) (size : Word)
    (hlen : buffer.length = r.wireLength) :
    ∃ o, r.toArray buffer size = .ok o ∧ o.mem = r.wireBytes ∧
      o.written = List.range r.wireLength := by
  have hsize := hlen
  simp only [wireLength, responseLength] at hsize
  obtain ⟨o₁, h₁, f₁⟩ := (OutBuf.filled_start buffer).put
    (intBytes (BitVec.ofNat 32 r.mData.length)) (by simp; omega)
  obtain ⟨o₂, h₂, f₂⟩ := f₁.putStrings r.mData (by simp; omega)
  have hout : [] ++ intBytes (BitVec.ofNat 32 r.mData.length) ++ terminated nul r.mData =
      r.wireBytes := by simp [wireBytes, responseBytes]
  rw [hout] at f₂
  refine ⟨o₂, ?_, f₂.mem_eq (by simp [hlen]), by rw [f₂.written, wireBytes_length]⟩
  simp only [toArray, h₁, bind, Except.bind]
  exact h₂

theorem CustomResponse.encode_of_lt (junk : Nat → Byte) {r : CustomResponse}
    (hfit : r.wireLength < 2 ^ 31) : r.encode junk = .ok r.wireBytes := by
  obtain ⟨o, ho, hmem, -⟩ := r.toArray_eq ((List.range r.wireLength).map junk)
    (BitVec.ofNat 32 r.wireLength) (by simp)
  unfold encode
  simp only [getSize_eq, malloc_of_lt hfit, ho, Except.map, hmem]

/-- `toArray` succeeds only on a buffer that holds the whole message. -/
theorem CustomRequest.wireLength_le_of_toArray {r : CustomRequest} {buffer : List Byte}
    {size : Word} {o : OutBuf} (h : r.toArray buffer size = .ok o) :
    r.wireLength ≤ buffer.length := by
  simp only [toArray] at h
  obtain ⟨o₁, h₁, h⟩ := bind_eq_ok.mp h
  obtain ⟨o₂, h₂, h⟩ := bind_eq_ok.mp h
  obtain ⟨o₃, h₃, h⟩ := bind_eq_ok.mp h
  obtain ⟨o₄, h₄, h⟩ := bind_eq_ok.mp h
  obtain ⟨o₅, h₅, h⟩ := bind_eq_ok.mp h
  obtain ⟨o₆, h₆, h⟩ := bind_eq_ok.mp h
  obtain ⟨o₇, h₇, h⟩ := bind_eq_ok.mp h
  -- each copy moves the pointer by its length and never past the end
  obtain ⟨p₁, -, m₁⟩ := OutBuf.put_eq_ok h₁
  obtain ⟨p₂, -, m₂⟩ := OutBuf.put_eq_ok h₂
  obtain ⟨p₃, -, m₃⟩ := OutBuf.put_eq_ok h₃
  obtain ⟨p₄, -, m₄⟩ := OutBuf.put_eq_ok h₄
  obtain ⟨p₅, l₅, m₅⟩ := OutBuf.put_eq_ok h₅
  obtain ⟨p₆, l₆, m₆⟩ := OutBuf.putStrings_eq_ok l₅ h₆
  obtain ⟨p₇, l₇, m₇⟩ := OutBuf.putStrings_eq_ok l₆ h₇
  obtain ⟨p₈, l₈, m₈⟩ := OutBuf.put_eq_ok h
  simp only [intBytes_length, List.length_append, List.length_cons, List.length_nil,
    OutBuf.start] at p₁ p₂ p₃ p₄ p₅ p₈ m₁
  simp only [wireLength, requestLength]
  omega

theorem CustomResponse.wireLength_le_of_toArray {r : CustomResponse} {buffer : List Byte}
    {size : Word} {o : OutBuf} (h : r.toArray buffer size = .ok o) :
    r.wireLength ≤ buffer.length := by
  obtain ⟨o₁, h₁, h₂⟩ := bind_eq_ok.mp h
  obtain ⟨p₁, l₁, m₁⟩ := OutBuf.put_eq_ok h₁
  obtain ⟨p₂, l₂, m₂⟩ := OutBuf.putStrings_eq_ok l₁ h₂
  simp only [intBytes_length, OutBuf.start] at p₁ m₁
  simp only [wireLength, responseLength]
  omega

/-- A block that `malloc` hands out for a length reduced to an `int` is either
    of that length or too short for it. -/
theorem malloc_ofNat_length {junk : Nat → Byte} {n : Nat} {data : List Byte}
    (h : malloc junk (BitVec.ofNat 32 n) = some data) (hle : n ≤ data.length) : n < 2 ^ 31 := by
  -- a count that wrapped is negative, or gives a block shorter than `n`
  by_cases hneg : (BitVec.ofNat 32 n).toInt < 0
  · simp [malloc, hneg] at h
  · rw [malloc, if_neg hneg, Option.some.injEq] at h
    rw [← h, List.length_map, List.length_range] at hle
    simp only [BitVec.toInt_eq_toNat_cond, BitVec.toNat_ofNat] at hneg hle
    split at hneg <;> omega

/-- The callers' sequence succeeds exactly on the messages whose wire length is
    an `int`, and then puts out their wire bytes. -/
theorem CustomRequest.encode_eq_ok_iff {junk : Nat → Byte} {r : CustomRequest} {b : List Byte} :
    r.encode junk = .ok b ↔ r.wireLength < 2 ^ 31 ∧ b = r.wireBytes := by
  constructor
  · intro h
    have hfit : r.wireLength < 2 ^ 31 := by
      unfold encode at h
      rw [← Prod.eta r.getSize] at h
      simp only [getSize_fst] at h
      cases hdata : malloc junk (BitVec.ofNat 32 r.wireLength) with
      | none => simp [hdata] at h
      | some data =>
          simp only [hdata] at h
          -- `malloc` succeeded, so a length that wrapped would have left the block
          cases ho : r.getSize.2.toArray data (BitVec.ofNat 32 r.wireLength) with
          | error e => simp [ho, Except.map] at h
          | ok o =>
              have hle := wireLength_le_of_toArray ho
              rw [getSize_snd] at hle
              exact malloc_ofNat_length hdata hle
    rw [encode_of_lt junk hfit, Except.ok.injEq] at h
    exact ⟨hfit, h.symm⟩
  · rintro ⟨hfit, rfl⟩
    exact encode_of_lt junk hfit

theorem CustomResponse.encode_eq_ok_iff {junk : Nat → Byte} {r : CustomResponse}
    {b : List Byte} : r.encode junk = .ok b ↔ r.wireLength < 2 ^ 31 ∧ b = r.wireBytes := by
  constructor
  · intro h
    have hfit : r.wireLength < 2 ^ 31 := by
      simp only [encode, getSize_eq] at h
      cases hdata : malloc junk (BitVec.ofNat 32 r.wireLength) with
      | none => simp [hdata] at h
      | some data =>
          simp only [hdata] at h
          cases ho : r.toArray data (BitVec.ofNat 32 r.wireLength) with
          | error e => simp [ho, Except.map] at h
          | ok o => exact malloc_ofNat_length hdata (wireLength_le_of_toArray ho)
    rw [encode_of_lt junk hfit, Except.ok.injEq] at h
    exact ⟨hfit, h.symm⟩
  · rintro ⟨hfit, rfl⟩
    exact encode_of_lt junk hfit

/-! ## fromArray -/

theorem readInt_of_le {buffer : List Byte} (h : 4 ≤ buffer.length) :
    readInt buffer = .ok (bytesInt (buffer.take 4)) := if_pos h

theorem readInt_of_lt {buffer : List Byte} (h : buffer.length < 4) :
    readInt buffer = .error .readPast := if_neg (by omega)

/-- The decoder splits the bytes and then checks nothing but that the name is there. -/
theorem CustomRequest.fromArray_eq (d : CustomRequest) (p : List Byte) :
    d.fromArray p =
      match splitRequest p with
      | none => .error .readPast
      | some (h, ids, types, rest) =>
          if h.ns.toInt < 0 then .error .negativeLength
          else if h.ns.toNat ≤ rest.length then
            .ok ({ d with
                    mIds := d.mIds ++ ids, mTypes := d.mTypes ++ types
                    idss := h.idss, typess := h.typess },
              BitVec.ofNat 32 (p.length - (rest.drop h.ns.toNat).length))
          else .error .readPast := by
  -- with twenty bytes there, the five header words can be read
  by_cases hlen : 20 ≤ p.length
  · have h₁ : readInt p = .ok (headerAt p).idss := readInt_of_le (by omega)
    have h₂ : readInt (p.drop 4) = .ok (headerAt p).cids :=
      readInt_of_le (by rw [List.length_drop]; omega)
    have h₃ : readInt (p.drop 8) = .ok (headerAt p).typess :=
      readInt_of_le (by rw [List.length_drop]; omega)
    have h₄ : readInt (p.drop 12) = .ok (headerAt p).ctypes :=
      readInt_of_le (by rw [List.length_drop]; omega)
    have h₅ : readInt (p.drop 16) = .ok (headerAt p).ns :=
      readInt_of_le (by rw [List.length_drop]; omega)
    simp only [fromArray, List.drop_drop, Nat.reduceAdd, h₁, h₂, h₃, h₄, h₅, bind, Except.bind,
      readStrings_eq, splitRequest, if_pos hlen]
    cases takeSegments nul (loopCount (headerAt p).cids) (p.drop 20) with
    | none => rfl
    | some q =>
        simp only [Option.bind_some]
        cases takeSegments nul (loopCount (headerAt p).ctypes) q.2 with
        | none => rfl
        | some q' =>
            simp only [Option.map_some, readBlock]
            split_ifs <;> rfl
  · rw [splitRequest, if_neg hlen]
    simp only [fromArray, readInt, List.length_drop, bind, Except.bind]
    split_ifs
    -- one of the five reads ends behind the packet, whichever comes first
    all_goals first | rfl | omega

theorem CustomResponse.fromArray_eq (d : CustomResponse) (p : List Byte) :
    d.fromArray p =
      match splitResponse p with
      | none => .error .readPast
      | some (data, rest) =>
          .ok ({ mData := d.mData ++ data }, BitVec.ofNat 32 (p.length - rest.length)) := by
  by_cases hlen : 4 ≤ p.length
  · simp only [fromArray, readInt_of_le hlen, bind, Except.bind, readStrings_eq, splitResponse,
      if_pos hlen]
    cases takeSegments nul (loopCount (bytesInt (p.take 4))) (p.drop 4) with
    | none => rfl
    | some q => rfl
  · rw [splitResponse, if_neg hlen, fromArray, readInt_of_lt (by omega)]
    rfl

/-! ## fromArray behind toArray -/

/-- No string of the two lists holds a NUL; the name may. -/
def CustomRequest.NulFree (r : CustomRequest) : Prop :=
  (∀ s ∈ r.mIds, nul ∉ s) ∧ (∀ s ∈ r.mTypes, nul ∉ s)

instance (r : CustomRequest) : Decidable r.NulFree :=
  inferInstanceAs (Decidable (_ ∧ _))

/-- No item holds a NUL. -/
def CustomResponse.NulFree (r : CustomResponse) : Prop := ∀ s ∈ r.mData, nul ∉ s

instance (r : CustomResponse) : Decidable r.NulFree :=
  inferInstanceAs (Decidable (∀ s ∈ r.mData, nul ∉ s))

/-- A message whose length is an `int` has counts that are. -/
theorem CustomRequest.counts_lt {r : CustomRequest} (hfit : r.wireLength < 2 ^ 31) :
    r.mIds.length < 2 ^ 31 ∧ r.mTypes.length < 2 ^ 31 ∧ r.mName.length + 1 < 2 ^ 31 := by
  have hids := length_le_sectionLength r.mIds
  have htypes := length_le_sectionLength r.mTypes
  simp only [wireLength, requestLength] at hfit
  omega

theorem CustomResponse.count_lt {r : CustomResponse} (hfit : r.wireLength < 2 ^ 31) :
    r.mData.length < 2 ^ 31 := by
  have hdata := length_le_sectionLength r.mData
  simp only [wireLength, responseLength] at hfit
  omega

/-- The object that is left when the bytes of `r` are decoded into `d`: its
    lists are added to those of `d`, the cached sizes are those of `r`, and the
    name stays. -/
def CustomRequest.absorb (d r : CustomRequest) : CustomRequest :=
  { mIds := d.mIds ++ r.mIds, mTypes := d.mTypes ++ r.mTypes, mName := d.mName
    idss := BitVec.ofNat 32 (sectionLength r.mIds)
    typess := BitVec.ofNat 32 (sectionLength r.mTypes) }

/-- The object that is left when the bytes of `r` are decoded into `d`. -/
def CustomResponse.absorb (d r : CustomResponse) : CustomResponse :=
  { mData := d.mData ++ r.mData }

/-- Wire bytes are decoded the same whatever follows them, and the wire length
    is reported. -/
theorem CustomRequest.fromArray_wireBytes_append {r : CustomRequest} (hnul : r.NulFree)
    (hfit : r.wireLength < 2 ^ 31) (d : CustomRequest) (tail : List Byte) :
    d.fromArray (r.wireBytes ++ tail) = .ok (d.absorb r, BitVec.ofNat 32 r.wireLength) := by
  obtain ⟨hcids, hctypes, hns⟩ := counts_lt hfit
  -- the length of the name is an `int`, so its `memcpy` is one of that many bytes
  have hneg : ¬ (BitVec.ofNat 32 (r.mName.length + 1)).toInt < 0 := by
    rw [toInt_ofNat_of_lt hns]
    omega
  have hlen : r.mName.length + 1 ≤ (r.mName ++ nul :: tail).length := by simp
  have hrest : (r.mName ++ nul :: tail).drop (r.mName.length + 1) = tail := by simp
  rw [fromArray_eq, wireBytes, splitRequest_requestBytes hnul.1 hnul.2 hcids hctypes]
  simp only [requestHeader, hneg, if_false, toNat_ofNat_of_lt hns, if_pos hlen, hrest]
  rw [List.length_append, requestBytes_length, Nat.add_sub_cancel]
  rfl

theorem CustomResponse.fromArray_wireBytes_append {r : CustomResponse} (hnul : r.NulFree)
    (hfit : r.wireLength < 2 ^ 31) (d : CustomResponse) (tail : List Byte) :
    d.fromArray (r.wireBytes ++ tail) = .ok (d.absorb r, BitVec.ofNat 32 r.wireLength) := by
  rw [fromArray_eq, wireBytes, splitResponse_responseBytes hnul (count_lt hfit)]
  simp only
  rw [List.length_append, responseBytes_length, Nat.add_sub_cancel]
  rfl

end IpcWin.Native
