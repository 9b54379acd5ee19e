/-
  IpcWin.Interop.Grammar

  The grammar of the managed request parser.

  `custom_request.fromArray` has no grammar written down: it counts strings, scans
  for NULs and cuts out a name, and a byte array that ends too early is an
  exception.  `Grammatical` says which arrays do not, and `Parsed` what the object
  is then; the parser accepts those arrays and no others
  (`requestFromArray_grammatical`).
-/

import IpcWin.Interop.Decoders

namespace IpcWin.Interop

open IpcWin.Lib IpcWin.Wire
open IpcWin.Managed (ByteArr asciiString)

/-- The arrays that the parser accepts: the header is there, the bytes behind it
    hold the counted NULs, and a name of `ns - 1` bytes fits behind the last of
    them. -/
structure Grammatical (p : List Byte) : Prop where
  header : 20 ≤ p.length
  nuls : max (headerAt p).cids.toInt 0 + max (headerAt p).ctypes.toInt 0 ≤
    ((p.drop 20).count nul : Int)
  named : 1 ≤ (headerAt p).ns.toInt
  name : (headerAt p).ns.toInt - 1 ≤ nameRoom p

/-- What the parser makes of them: the ASCII decodings of the segments between the
    counted NULs, and of the next `ns - 1` bytes. -/
def Parsed (p : List Byte) (r : Managed.CustomRequest) : Prop :=
  ∃ ids types rest,
    p.drop 20 = terminated nul ids ++ (terminated nul types ++ rest) ∧
    (∀ s ∈ ids, nul ∉ s) ∧ (∀ s ∈ types, nul ∉ s) ∧
    (ids.length : Int) = max (headerAt p).cids.toInt 0 ∧
    (types.length : Int) = max (headerAt p).ctypes.toInt 0 ∧
    r.mIds = ids.map asciiString ∧ r.mTypes = types.map asciiString ∧
    r.mName = asciiString (rest.take ((headerAt p).ns.toInt - 1).toNat)

/-- A count is clamped at zero, as a loop over it is. -/
theorem loopCount_eq_max (n : Word) : (loopCount n : Int) = max n.toInt 0 := by
  unfold loopCount
  omega

theorem sectionsInBounds_iff (p : List Byte) :
    SectionsInBounds p ↔
      20 ≤ p.length ∧
        max (headerAt p).cids.toInt 0 + max (headerAt p).ctypes.toInt 0 ≤
          ((p.drop 20).count nul : Int) := by
  rw [SectionsInBounds, ← loopCount_eq_max, ← loopCount_eq_max]
  exact and_congr_right fun _ => by omega

theorem grammatical_iff (p : List Byte) :
    Grammatical p ↔
      SectionsInBounds p ∧ 1 ≤ (headerAt p).ns.toInt ∧
        (headerAt p).ns.toInt ≤ nameRoom p + 1 := by
  rw [sectionsInBounds_iff]
  constructor
  · rintro ⟨hheader, hnuls, hnamed, hname⟩
    exact ⟨⟨hheader, hnuls⟩, hnamed, by omega⟩
  · rintro ⟨⟨hheader, hnuls⟩, hnamed, hname⟩
    exact ⟨hheader, hnuls, hnamed, by omega⟩

/-- The count of a name that is there is the same as an `int` and as a `size_t`. -/
theorem toNat_sub_one {ns : Word} (h : 1 ≤ ns.toInt) : (ns - 1).toNat = (ns.toInt - 1).toNat := by
  have hsub : (ns - 1).toInt = ns.toInt - 1 := toInt_sub_one (by omega)
  rw [← hsub]
  rw [BitVec.toInt_eq_toNat_cond] at hsub ⊢
  split_ifs at hsub ⊢ <;> omega

/-- What an object is that was parsed. -/
theorem parsed_of_requestFromArray {b : ByteArr} {r : Managed.CustomRequest}
    (h : Managed.CustomRequest.new.fromArray b = .ok r) : Parsed b.bytes r := by
  have hnamed : 1 ≤ (headerAt b.bytes).ns.toInt :=
    ((returns_requestFromArray_iff b).mp ⟨r, h⟩).2.1
  cases hsplit : splitRequest b.bytes with
  | none =>
      obtain ⟨e, he⟩ := Managed.CustomRequest.fromArray_of_not_split .new hsplit
      rw [he] at h
      cases h
  | some q =>
      obtain ⟨hd, ids, types, rest⟩ := q
      rw [Managed.CustomRequest.fromArray_of_split .new hsplit, Managed.CustomRequest.ofSplit] at h
      obtain ⟨-, rfl, hids, htypes⟩ := splitRequest_eq_some hsplit
      obtain ⟨hlen, hnul, hbytes⟩ := takeSegments_eq_some_iff.mp hids
      obtain ⟨hlen', hnul', -⟩ := takeSegments_eq_some_iff.mp htypes
      split_ifs at h
      cases h
      refine ⟨ids, types, rest, hbytes, hnul, hnul', ?_, ?_, ?_, ?_, ?_⟩
      · rw [hlen, loopCount_eq_max]
      · rw [hlen', loopCount_eq_max]
      · simp [Managed.CustomRequest.new]
      · simp [Managed.CustomRequest.new]
      · rw [toNat_sub_one hnamed]

/-- The parser returns on exactly the arrays of its grammar, with the object that
    the grammar says. -/
theorem requestFromArray_grammatical (b : ByteArr) :
    (Returns (Managed.CustomRequest.new.fromArray b) ↔ Grammatical b.bytes) ∧
      ∀ r, Managed.CustomRequest.new.fromArray b = .ok r → Parsed b.bytes r := by
  refine ⟨?_, fun r h => parsed_of_requestFromArray h⟩
  rw [returns_requestFromArray_iff, grammatical_iff]

end IpcWin.Interop
