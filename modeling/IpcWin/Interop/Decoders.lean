/-
  IpcWin.Interop.Decoders

  The native and the managed decoders side by side, on arbitrary byte arrays.

  The response decoders agree everywhere.  The request decoders agree on the
  header, the ids and the types, and part over the name: the native code copies
  all `ns` bytes, terminator included, where the managed code cuts out `ns - 1`
  of them.  With `R` bytes behind the types the native decoder stays in bounds
  for `0 ≤ ns ≤ R` and the managed one returns for `1 ≤ ns ≤ R + 1`.
-/

import IpcWin.Native.Bounds
import IpcWin.Managed.Codec

namespace IpcWin.Interop

open IpcWin.Lib IpcWin.Wire
open IpcWin.Native (LeavesPacket RequestInBounds ResponseInBounds)
open IpcWin.Managed (ByteArr Exn asciiString)

/-- A managed call returns without an exception. -/
def Returns {α : Type} (x : Except Exn α) : Prop := ∃ a, x = .ok a

@[simp] theorem returns_ok {α : Type} (a : α) : Returns (.ok a) := ⟨a, rfl⟩

@[simp] theorem not_returns_error {α : Type} (e : Exn) : ¬ Returns (.error e : Except Exn α) := by
  rintro ⟨a, h⟩
  cases h

/-! ## Responses -/

/-- The managed response decoder returns on the arrays that the native one does
    not leave. -/
theorem returns_responseFromArray_iff (b : ByteArr) :
    Returns (Managed.CustomResponse.new.fromArray b) ↔ ResponseInBounds b.bytes := by
  rw [ResponseInBounds, ← splitResponse_isSome_iff]
  cases hsplit : splitResponse b.bytes with
  | none =>
      obtain ⟨e, he⟩ := Managed.CustomResponse.fromArray_of_not_split .new hsplit
      simp [he]
  | some q => simp [Managed.CustomResponse.fromArray_of_split .new hsplit]

/-- The two response decoders agree on every byte array: the managed one returns
    exactly when the native one reads no byte behind the end, and then the
    strings are the same but for `'?'` in place of every byte from 0x80 on. -/
theorem responseDecoders_agree (b : ByteArr) :
    (Returns (Managed.CustomResponse.new.fromArray b) ↔
      ¬ LeavesPacket (Native.CustomResponse.new.fromArray b.bytes)) ∧
    (Returns (Managed.CustomResponse.new.fromArray b) →
      ∃ d d' sizeP, Managed.CustomResponse.new.fromArray b = .ok d ∧
        Native.CustomResponse.new.fromArray b.bytes = .ok (d', sizeP) ∧
        d.mData = d'.mData.map asciiString) := by
  refine ⟨?_, ?_⟩
  · rw [returns_responseFromArray_iff, Native.CustomResponse.leavesPacket_fromArray_iff, not_not]
  · intro hret
    rw [returns_responseFromArray_iff, ResponseInBounds, ← splitResponse_isSome_iff] at hret
    obtain ⟨⟨data, rest⟩, hsplit⟩ := Option.isSome_iff_exists.mp hret
    have hmanaged := Managed.CustomResponse.fromArray_of_split .new hsplit
    have hnative := Native.CustomResponse.fromArray_eq .new b.bytes
    rw [hsplit] at hnative
    refine ⟨_, _, _, hmanaged, hnative, ?_⟩
    simp [Managed.CustomResponse.new, Native.CustomResponse.new]

/-! ## Requests -/

/-- The header is there and the packet holds the counted NULs. -/
def SectionsInBounds (p : List Byte) : Prop :=
  20 ≤ p.length ∧
    loopCount (headerAt p).cids + loopCount (headerAt p).ctypes ≤ (p.drop 20).count nul

instance (p : List Byte) : Decidable (SectionsInBounds p) :=
  inferInstanceAs (Decidable (_ ∧ _))

/-- The number of bytes behind the last counted NUL. -/
def nameRoom (p : List Byte) : Nat :=
  (dropSegments nul (loopCount (headerAt p).cids + loopCount (headerAt p).ctypes)
    (p.drop 20)).length

/-- The native decoder copies `ns` bytes of the `nameRoom` that are left. -/
theorem requestInBounds_iff (p : List Byte) :
    RequestInBounds p ↔
      SectionsInBounds p ∧ 0 ≤ (headerAt p).ns.toInt ∧ (headerAt p).ns.toInt ≤ nameRoom p :=
  and_assoc.symm

/-- An `int` that is not the least one is decremented exactly. -/
theorem toInt_sub_one {x : Word} (hx : x.toInt ≠ -(2 ^ 31)) : (x - 1).toInt = x.toInt - 1 := by
  have hlo := BitVec.le_toInt x
  have hhi := BitVec.toInt_lt (x := x)
  have hone : (1 : Word).toInt = 1 := rfl
  rw [BitVec.toInt_sub, hone]
  apply Int.bmod_eq_of_le <;> omega

/-- The managed decoder cuts out `ns - 1` bytes of them. -/
theorem returns_requestFromArray_iff (b : ByteArr) :
    Returns (Managed.CustomRequest.new.fromArray b) ↔
      SectionsInBounds b.bytes ∧ 1 ≤ (headerAt b.bytes).ns.toInt ∧
        (headerAt b.bytes).ns.toInt ≤ nameRoom b.bytes + 1 := by
  cases hsplit : splitRequest b.bytes with
  | none =>
      have hnone : ¬ SectionsInBounds b.bytes := by
        rw [SectionsInBounds, ← splitRequest_isSome_iff, hsplit]
        simp
      obtain ⟨e, he⟩ := Managed.CustomRequest.fromArray_of_not_split .new hsplit
      simp [he, hnone]
  | some q =>
      obtain ⟨h, ids, types, rest⟩ := q
      have hsome : SectionsInBounds b.bytes :=
        splitRequest_isSome_iff.mp (by rw [hsplit]; rfl)
      obtain ⟨-, rfl, -, -⟩ := splitRequest_eq_some hsplit
      have hrest : rest.length = nameRoom b.bytes := by rw [splitRequest_rest hsplit, nameRoom]
      -- the header alone takes more of the array than the terminator does
      have hlt : nameRoom b.bytes < 2 ^ 31 - 1 := by
        have hle := b.length_lt
        have hdrop := dropSegments_length_le nul
          (loopCount (headerAt b.bytes).cids + loopCount (headerAt b.bytes).ctypes)
          (b.bytes.drop 20)
        have h20 := hsome.1
        rw [List.length_drop] at hdrop
        rw [nameRoom]
        omega
      rw [Managed.CustomRequest.fromArray_of_split _ hsplit, Managed.CustomRequest.ofSplit, hrest]
      by_cases hmin : (headerAt b.bytes).ns.toInt = -(2 ^ 31)
      · -- the least `int` wraps to the largest, which no array has room for
        have hns : (headerAt b.bytes).ns = BitVec.intMin 32 := by
          apply BitVec.eq_of_toInt_eq
          rw [hmin]
          rfl
        have hwrap : ((headerAt b.bytes).ns - 1).toInt = 2 ^ 31 - 1 := by
          rw [hns]
          rfl
        rw [hwrap, if_neg (by omega), if_pos (by omega), hmin]
        simp
      · rw [toInt_sub_one hmin]
        by_cases hlo : 1 ≤ (headerAt b.bytes).ns.toInt
        · rw [if_neg (by omega)]
          by_cases hhi : (headerAt b.bytes).ns.toInt ≤ nameRoom b.bytes + 1
          · rw [if_neg (by omega)]
            simp [hsome, hlo, hhi]
          · rw [if_pos (by omega)]
            simp [hhi]
        · rw [if_pos (by omega)]
          simp [hlo]

/-- Where both request decoders succeed, they make the same ids and types. -/
theorem strings_of_requestFromArray {b : ByteArr} {idss typess sizeP : Word}
    {d : Managed.CustomRequest} {d' : Native.CustomRequest}
    (hd : Managed.CustomRequest.new.fromArray b = .ok d)
    (hd' : (Native.CustomRequest.new idss typess).fromArray b.bytes = .ok (d', sizeP)) :
    d.mIds = d'.mIds.map asciiString ∧ d.mTypes = d'.mTypes.map asciiString := by
  -- both decoders made their strings from the one split
  cases hsplit : splitRequest b.bytes with
  | none =>
      obtain ⟨e, he⟩ := Managed.CustomRequest.fromArray_of_not_split .new hsplit
      rw [he] at hd
      cases hd
  | some q =>
      obtain ⟨h, ids, types, rest⟩ := q
      rw [Managed.CustomRequest.fromArray_of_split .new hsplit,
        Managed.CustomRequest.ofSplit] at hd
      rw [Native.CustomRequest.fromArray_eq, hsplit] at hd'
      simp only at hd'
      split_ifs at hd hd'
      cases hd
      cases hd'
      refine ⟨?_, ?_⟩
      · simp [Managed.CustomRequest.new, Native.CustomRequest.new]
      · simp [Managed.CustomRequest.new, Native.CustomRequest.new]

/-- The two request decoders part exactly where the sections are in bounds and
    `ns` is zero, where only the native one succeeds, or one more than the bytes
    that are left, where only the managed one does.  Where both succeed they
    make the same ids and types, but for `'?'` in place of bytes from 0x80 on. -/
theorem requestDecoders_agree_iff (b : ByteArr) (idss typess : Word) :
    ((Returns (Managed.CustomRequest.new.fromArray b) ↔
        ¬ LeavesPacket ((Native.CustomRequest.new idss typess).fromArray b.bytes)) ↔
      ¬ (SectionsInBounds b.bytes ∧
        ((headerAt b.bytes).ns.toInt = 0 ∨
          (headerAt b.bytes).ns.toInt = nameRoom b.bytes + 1))) ∧
    (SectionsInBounds b.bytes → (headerAt b.bytes).ns.toInt = 0 →
      ¬ Returns (Managed.CustomRequest.new.fromArray b) ∧
        ¬ LeavesPacket ((Native.CustomRequest.new idss typess).fromArray b.bytes)) ∧
    (SectionsInBounds b.bytes → (headerAt b.bytes).ns.toInt = nameRoom b.bytes + 1 →
      Returns (Managed.CustomRequest.new.fromArray b) ∧
        LeavesPacket ((Native.CustomRequest.new idss typess).fromArray b.bytes)) ∧
    ∀ d d' sizeP, Managed.CustomRequest.new.fromArray b = .ok d →
      (Native.CustomRequest.new idss typess).fromArray b.bytes = .ok (d', sizeP) →
      d.mIds = d'.mIds.map asciiString ∧ d.mTypes = d'.mTypes.map asciiString := by
  have hm := returns_requestFromArray_iff b
  have hn := (Native.CustomRequest.leavesPacket_fromArray_iff (.new idss typess) b.bytes).trans
    (not_congr (requestInBounds_iff b.bytes))
  refine ⟨?_, ?_, ?_, ?_⟩
  · rw [hm, hn, not_not]
    by_cases hs : SectionsInBounds b.bytes
    · simp only [hs, true_and]
      omega
    · simp [hs]
  · intro hs h0
    rw [hm, hn, not_not, h0]
    exact ⟨fun h => absurd h.2.1 (by decide), hs, by omega, by omega⟩
  · intro hs h1
    rw [hm, hn, h1]
    exact ⟨⟨hs, by omega, by omega⟩, fun h => absurd h.2.2 (by omega)⟩
  · intro d d' sizeP hd hd'
    exact strings_of_requestFromArray hd hd'

/-- Twenty zero bytes: no ids, no types, and a name of no bytes at all. -/
def zeroHeader : ByteArr := { bytes := List.replicate 20 0, length_lt := by decide }

/-- A header that announces a name of one byte, and nothing behind it. -/
def cutHeader : ByteArr :=
  { bytes := List.replicate 16 0 ++ [1, 0, 0, 0], length_lt := by decide }

/-- The managed decoder throws on the first array, which the native one reads
    through; on the second it is the other way round. -/
theorem requestDecoders_disagree :
    ¬ (Returns (Managed.CustomRequest.new.fromArray zeroHeader) ↔
        ¬ LeavesPacket ((Native.CustomRequest.new 0 0).fromArray zeroHeader.bytes)) ∧
    ¬ (Returns (Managed.CustomRequest.new.fromArray cutHeader) ↔
        ¬ LeavesPacket ((Native.CustomRequest.new 0 0).fromArray cutHeader.bytes)) := by
  have hthrows : Managed.CustomRequest.new.fromArray zeroHeader =
      .error .argumentOutOfRange := rfl
  have hreads : (Native.CustomRequest.new 0 0).fromArray zeroHeader.bytes =
      .ok (Native.CustomRequest.new 0 0, 20) := rfl
  have hreturns : Managed.CustomRequest.new.fromArray cutHeader =
      .ok Managed.CustomRequest.new := rfl
  have hleaves : (Native.CustomRequest.new 0 0).fromArray cutHeader.bytes =
      .error .readPast := rfl
  refine ⟨?_, ?_⟩
  · rw [hthrows, hreads]
    simp [LeavesPacket]
  · rw [hreturns, hleaves]
    simp [LeavesPacket]

end IpcWin.Interop
