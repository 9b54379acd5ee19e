/-
  IpcWin.Managed.Codec

  The managed translation functions against the wire format, one specification
  per function.

  * `toArray` after `getSize` yields the wire bytes of the ASCII encodings
    (`toArray_getSize`).
  * `fromArray` is the wire format's split, decoded to characters, followed by
    the range check that `GetString` makes on the name (`fromArray_of_split`);
    on bytes that do not split it throws (`fromArray_of_not_split`).
-/

import IpcWin.Managed.Objects

namespace IpcWin.Managed

open IpcWin.Lib IpcWin.Wire

/-! ## getSize -/

theorem stringsSize_eq (ss : List Str) (size : Word) :
    stringsSize ss size = size + BitVec.ofNat 32 (sectionLength (ss.map asciiBytes)) := by
  induction ss generalizing size with
  | nil => simp [stringsSize]
  | cons s ss ih =>
      rw [stringsSize, ih, List.map_cons, sectionLength_cons, asciiBytes_length,
        BitVec.add_assoc, BitVec.ofNat_add (s.length + 1), BitVec.ofNat_add s.length]
      rfl

/-- The wire length of a request: one byte for every UTF-16 unit. -/
def CustomRequest.wireLength (r : CustomRequest) : Nat :=
  requestLength (r.mIds.map asciiBytes) (r.mTypes.map asciiBytes) (asciiBytes r.mName)

/-- The wire bytes of a request's ASCII encoding. -/
def CustomRequest.wireBytes (r : CustomRequest) : List Byte :=
  requestBytes (r.mIds.map asciiBytes) (r.mTypes.map asciiBytes) (asciiBytes r.mName)

theorem CustomRequest.getSize_fst (r : CustomRequest) :
    r.getSize.1 = BitVec.ofNat 32 r.wireLength := by
  simp only [getSize, stringsSize_eq, wireLength, requestLength, asciiBytes_length,
    BitVec.ofNat_eq_ofNat, BitVec.reduceMul, ← BitVec.ofNat_add]
  congr 1
  omega

theorem CustomRequest.getSize_snd (r : CustomRequest) :
    r.getSize.2 =
      { r with
        idss := BitVec.ofNat 32 (sectionLength (r.mIds.map asciiBytes))
        typess := BitVec.ofNat 32 (sectionLength (r.mTypes.map asciiBytes)) } := by
  simp [getSize, stringsSize_eq]

/-! ## toArray -/

/-- `toArray` right after `getSize` throws nothing on a size that is an `int`,
    and yields the wire bytes of the ASCII encodings. -/
theorem CustomRequest.toArray_getSize {r : CustomRequest} (hfit : r.wireLength < 2 ^ 31) :
    ∃ b, r.getSize.2.toArray r.getSize.1 = .ok b ∧ b.bytes = r.wireBytes := by
  have hsize := hfit
  generalize hn : r.wireLength = n at hsize
  have hn' := hn
  simp only [wireLength, requestLength, asciiBytes_length] at hn'
  -- the offsets of the nine copies add up to the size that was allocated
  obtain ⟨b₀, h₀, f₀⟩ := newBytes_of_lt hsize
  obtain ⟨b₁, h₁, f₁⟩ := f₀.arrayCopy
    (intBytes (BitVec.ofNat 32 (sectionLength (r.mIds.map asciiBytes)))) 0 rfl (by simp; omega)
  obtain ⟨b₂, h₂, f₂⟩ := f₁.arrayCopy (intBytes (BitVec.ofNat 32 r.mIds.length)) 4
    (by simp) (by simp; omega)
  obtain ⟨b₃, h₃, f₃⟩ := f₂.arrayCopy
    (intBytes (BitVec.ofNat 32 (sectionLength (r.mTypes.map asciiBytes)))) 8
    (by simp) (by simp; omega)
  obtain ⟨b₄, h₄, f₄⟩ := f₃.arrayCopy (intBytes (BitVec.ofNat 32 r.mTypes.length)) 12
    (by simp) (by simp; omega)
  obtain ⟨b₅, h₅, f₅⟩ := f₄.arrayCopy
    (intBytes (BitVec.ofNat 32 (asciiBytes r.mName).length + 1)) 16 (by simp) (by simp; omega)
  obtain ⟨b₆, h₆, f₆⟩ := f₅.putStrings r.mIds 20 (by simp) (by omega)
  obtain ⟨b₇, h₇, f₇⟩ := f₆.putStrings r.mTypes
    (20 + sectionLength (r.mIds.map asciiBytes)) (by simp; omega) (by omega)
  obtain ⟨b₈, h₈, f₈⟩ := f₇.arrayCopy (asciiBytes r.mName)
    (20 + sectionLength (r.mIds.map asciiBytes) + sectionLength (r.mTypes.map asciiBytes))
    (by simp; omega) (by simp; omega)
  -- the terminator of the name is the one zero left of the new array
  have f₉ := f₈.skip (by simp; omega)
  have hns : BitVec.ofNat 32 (asciiBytes r.mName).length + 1 =
      BitVec.ofNat 32 ((asciiBytes r.mName).length + 1) := by
    rw [BitVec.ofNat_add]
    rfl
  have hout : [] ++ intBytes (BitVec.ofNat 32 (sectionLength (r.mIds.map asciiBytes))) ++
      intBytes (BitVec.ofNat 32 r.mIds.length) ++
      intBytes (BitVec.ofNat 32 (sectionLength (r.mTypes.map asciiBytes))) ++
      intBytes (BitVec.ofNat 32 r.mTypes.length) ++
      intBytes (BitVec.ofNat 32 (asciiBytes r.mName).length + 1) ++
      terminated nul (r.mIds.map asciiBytes) ++ terminated nul (r.mTypes.map asciiBytes) ++
      asciiBytes r.mName ++ [nul] = r.wireBytes := by
    rw [hns]
    simp [wireBytes, requestBytes, requestHeader, requestBody, RequestHeader.bytes]
  have hwire : r.wireBytes.length = n := by rw [wireBytes, requestBytes_length, ← hn, wireLength]
  have hbytes : b₈.bytes = r.wireBytes := by
    rw [f₉.bytes, hout, hwire, Nat.sub_self, List.replicate_zero, List.append_nil]
  refine ⟨b₈, ?_, hbytes⟩
  rw [getSize_fst, getSize_snd, hn]
  simp only [toArray, h₀, h₁, h₂, h₃, h₄, h₅, h₆, h₇, bind, Except.bind, Nat.reduceAdd, Nat.zero_add]
  exact h₈

/-- A copy that returned stayed within the array. -/
theorem arrayCopy_eq_ok {src : List Byte} {b b' : ByteArr} {pointer : Nat}
    (h : arrayCopy src b pointer = .ok b') :
    pointer + src.length ≤ b.bytes.length ∧ b'.bytes.length = b.bytes.length := by
  unfold arrayCopy at h
  split_ifs at h with hfit
  cases h
  refine ⟨hfit, ?_⟩
  simp only [List.length_append, List.length_take, List.length_drop]
  omega

theorem putStrings_eq_ok {ss : List Str} {b b' : ByteArr} {pointer pointer' : Nat}
    (h : putStrings ss b pointer = .ok (b', pointer')) :
    pointer' = pointer + sectionLength (ss.map asciiBytes) ∧
      b'.bytes.length = b.bytes.length := by
  induction ss generalizing b pointer with
  | nil =>
      simp only [putStrings, Except.ok.injEq, Prod.mk.injEq] at h
      obtain ⟨rfl, rfl⟩ := h
      exact ⟨rfl, rfl⟩
  | cons s ss ih =>
      obtain ⟨b₁, hcopy, hrest⟩ := bind_eq_ok.mp h
      obtain ⟨hpointer, hlen⟩ := ih hrest
      refine ⟨?_, hlen.trans (arrayCopy_eq_ok hcopy).2⟩
      rw [hpointer, List.map_cons, sectionLength_cons]
      omega

/-- An array that `toArray` returned has room for all but the last terminator. -/
theorem CustomRequest.wireLength_le_of_toArray {r : CustomRequest} {size : Word} {b : ByteArr}
    (h : r.toArray size = .ok b) :
    ∃ b₀, newBytes size = .ok b₀ ∧ r.wireLength ≤ b₀.bytes.length + 1 := by
  obtain ⟨b₀, h₀, h⟩ := bind_eq_ok.mp h
  obtain ⟨b₁, h₁, h⟩ := bind_eq_ok.mp h
  obtain ⟨b₂, h₂, h⟩ := bind_eq_ok.mp h
  obtain ⟨b₃, h₃, h⟩ := bind_eq_ok.mp h
  obtain ⟨b₄, h₄, h⟩ := bind_eq_ok.mp h
  obtain ⟨b₅, h₅, h⟩ := bind_eq_ok.mp h
  obtain ⟨⟨b₆, p₆⟩, h₆, h⟩ := bind_eq_ok.mp h
  obtain ⟨⟨b₇, p₇⟩, h₇, h₈⟩ := bind_eq_ok.mp h
  -- the last copy begins where the two sections end
  obtain ⟨hp₆, hlen₆⟩ := putStrings_eq_ok h₆
  obtain ⟨hp₇, hlen₇⟩ := putStrings_eq_ok h₇
  obtain ⟨hfit, -⟩ := arrayCopy_eq_ok h₈
  refine ⟨b₀, h₀, ?_⟩
  have hlen := hlen₇.trans (hlen₆.trans ((arrayCopy_eq_ok h₅).2.trans ((arrayCopy_eq_ok h₄).2.trans
    ((arrayCopy_eq_ok h₃).2.trans ((arrayCopy_eq_ok h₂).2.trans (arrayCopy_eq_ok h₁).2)))))
  simp only [wireLength, requestLength]
  omega

/-- `toArray` right after `getSize` returns only if the size is an `int`. -/
theorem CustomRequest.toArray_eq_ok {r : CustomRequest} {b : ByteArr}
    (h : r.getSize.2.toArray r.getSize.1 = .ok b) :
    r.wireLength < 2 ^ 31 ∧ b.bytes = r.wireBytes := by
  have hfit : r.wireLength < 2 ^ 31 := by
    obtain ⟨b₀, h₀, hle⟩ := wireLength_le_of_toArray h
    have hwire : r.getSize.2.wireLength = r.wireLength := by rw [getSize_snd]; rfl
    have hlt := b₀.length_lt
    rw [hwire] at hle
    by_contra hge
    -- the one length that is left is negative as an `int`
    have heq : r.wireLength = 2 ^ 31 := by omega
    rw [getSize_fst, heq] at h₀
    cases h₀
  obtain ⟨b', hb', hbytes⟩ := toArray_getSize hfit
  obtain rfl : b = b' := Except.ok.inj (h.symm.trans hb')
  exact ⟨hfit, hbytes⟩

/-! ## fromArray -/

/-- The object that the managed decoder makes of a split request; the range check
    of `GetString` is on `ns - 1`, computed as an `int`. -/
def CustomRequest.ofSplit (d : CustomRequest) (h : RequestHeader) (ids types : List (List Byte))
    (rest : List Byte) : Except Exn CustomRequest :=
  if (h.ns - 1).toInt < 0 then .error .argumentOutOfRange
  else if rest.length < (h.ns - 1).toInt then .error .argumentOutOfRange
  else .ok {
    mIds := d.mIds ++ ids.map asciiString, mTypes := d.mTypes ++ types.map asciiString
    mName := asciiString (rest.take (h.ns - 1).toNat)
    idss := h.idss, typess := h.typess }

/-- With twenty bytes there, the five header words can be read. -/
theorem toInt32_header {b : ByteArr} (hlen : 20 ≤ b.bytes.length) :
    toInt32 b 0 = .ok (headerAt b.bytes).idss ∧ toInt32 b 4 = .ok (headerAt b.bytes).cids ∧
      toInt32 b 8 = .ok (headerAt b.bytes).typess ∧
      toInt32 b 12 = .ok (headerAt b.bytes).ctypes ∧
      toInt32 b 16 = .ok (headerAt b.bytes).ns :=
  ⟨toInt32_of_le (by omega), toInt32_of_le (by omega), toInt32_of_le (by omega),
    toInt32_of_le (by omega), toInt32_of_le (by omega)⟩

/-- On bytes that split, the decoder is the split and the range check. -/
theorem CustomRequest.fromArray_of_split (d : CustomRequest) {b : ByteArr} {h : RequestHeader}
    {ids types : List (List Byte)} {rest : List Byte}
    (hsplit : splitRequest b.bytes = some (h, ids, types, rest)) :
    d.fromArray b = d.ofSplit h ids types rest := by
  obtain ⟨hlen, rfl, hids, htypes⟩ := splitRequest_eq_some hsplit
  obtain ⟨h₁, h₂, h₃, h₄, h₅⟩ := toInt32_header hlen
  -- where the cursor stands behind the ids, and behind the types
  have hmid := drop_of_takeSegments hids
  have hsum := length_of_takeSegments hids hlen
  rw [← hmid] at htypes
  have hend := drop_of_takeSegments htypes
  have hsum' := length_of_takeSegments htypes (by omega)
  simp only [fromArray, h₁, h₂, h₃, h₄, h₅, bind, Except.bind, Nat.reduceAdd, Nat.zero_add]
  rw [readStrings_eq b _ d.mIds 20 hlen, hids]
  simp only
  rw [readStrings_eq b _ d.mTypes _ (by omega), htypes]
  simp only [getString, hend, ofSplit]
  have hrange : (b.bytes.length : Int) - ((20 + sectionLength ids + sectionLength types : Nat) : Int)
      = rest.length := by omega
  rw [hrange]
  split_ifs <;> rfl

/-- On bytes that do not split, the decoder throws. -/
theorem CustomRequest.fromArray_of_not_split (d : CustomRequest) {b : ByteArr}
    (hsplit : splitRequest b.bytes = none) : ∃ e, d.fromArray b = .error e := by
  by_cases hlen : 20 ≤ b.bytes.length
  · obtain ⟨h₁, h₂, h₃, h₄, h₅⟩ := toInt32_header hlen
    rw [splitRequest, if_pos hlen] at hsplit
    simp only [fromArray, h₁, h₂, h₃, h₄, h₅, bind, Except.bind, Nat.reduceAdd, Nat.zero_add]
    rw [readStrings_eq b _ d.mIds 20 hlen]
    -- one of the two scans for a NUL runs off the array
    cases hids : takeSegments nul (loopCount (headerAt b.bytes).cids) (b.bytes.drop 20) with
    | none => exact ⟨_, rfl⟩
    | some q =>
        rw [hids, Option.bind_some, Option.map_eq_none_iff] at hsplit
        have hsum := length_of_takeSegments hids hlen
        simp only
        rw [readStrings_eq b _ d.mTypes _ (by omega), drop_of_takeSegments hids, hsplit]
        exact ⟨_, rfl⟩
  · cases h : d.fromArray b with
    | error e => exact ⟨e, rfl⟩
    | ok r =>
        -- a decoding that returned has read the fifth header word
        obtain ⟨_, -, h⟩ := bind_eq_ok.mp h
        obtain ⟨_, -, h⟩ := bind_eq_ok.mp h
        obtain ⟨_, -, h⟩ := bind_eq_ok.mp h
        obtain ⟨_, -, h⟩ := bind_eq_ok.mp h
        obtain ⟨_, hns, -⟩ := bind_eq_ok.mp h
        have hread := le_of_toInt32 hns
        omega

/-- The response decoder is the split, decoded to characters; it throws on bytes
    that do not split. -/
theorem CustomResponse.fromArray_of_split (d : CustomResponse) {b : ByteArr}
    {data : List (List Byte)} {rest : List Byte}
    (hsplit : splitResponse b.bytes = some (data, rest)) :
    d.fromArray b = .ok { mData := d.mData ++ data.map asciiString } := by
  obtain ⟨hlen, hdata⟩ := splitResponse_eq_some hsplit
  have h₁ : toInt32 b 0 = .ok (bytesInt (b.bytes.take 4)) := toInt32_of_le (by omega)
  simp only [fromArray, h₁, bind, Except.bind, Nat.zero_add]
  rw [readStrings_eq b _ d.mData 4 hlen, hdata]
  rfl

theorem CustomResponse.fromArray_of_not_split (d : CustomResponse) {b : ByteArr}
    (hsplit : splitResponse b.bytes = none) : ∃ e, d.fromArray b = .error e := by
  by_cases hlen : 4 ≤ b.bytes.length
  · have h₁ : toInt32 b 0 = .ok (bytesInt (b.bytes.take 4)) := toInt32_of_le (by omega)
    rw [splitResponse, if_pos hlen] at hsplit
    simp only [fromArray, h₁, bind, Except.bind, Nat.zero_add]
    rw [readStrings_eq b _ d.mData 4 hlen, hsplit]
    exact ⟨_, rfl⟩
  · cases h : d.fromArray b with
    | error e => exact ⟨e, rfl⟩
    | ok r =>
        obtain ⟨_, hsize, -⟩ := bind_eq_ok.mp h
        have hread := le_of_toInt32 hsize
        omega

end IpcWin.Managed
