/-
  IpcWin.Managed.RoundTrip

  A managed request through `toArray` and back through `fromArray`.

  The sizes are counted in UTF-16 units and the offsets advance in bytes; the
  two agree because the encoding makes one byte of every unit.  A list string
  ends at the first zero byte, which is its terminator as long as the string
  holds no U+0000.  The name is cut out by its length and may hold any unit.
-/

import IpcWin.Managed.Codec

namespace IpcWin.Managed

open IpcWin.Lib IpcWin.Wire

/-! ## What the encoding keeps of a string -/

/-- A unit as it comes back: itself below 0x80, `'?'` otherwise. -/
def shownUnit (u : BitVec 16) : BitVec 16 := if u.toNat < 0x80 then u else 0x3F

/-- A string as it comes back. -/
def shown (s : Str) : Str := s.map shownUnit

theorem asciiString_asciiBytes (s : Str) : asciiString (asciiBytes s) = shown s := by
  rw [asciiString, asciiBytes, List.map_map, shown]
  apply List.map_congr_left
  intro u _
  rw [Function.comp_apply, asciiChar_asciiByte, shownUnit]

theorem map_asciiString_asciiBytes (ss : List Str) :
    (ss.map asciiBytes).map asciiString = ss.map shown := by
  rw [List.map_map]
  apply List.map_congr_left
  intro s _
  exact asciiString_asciiBytes s

/-- Every unit is a 7-bit character. -/
def SevenBit (s : Str) : Prop := ∀ u ∈ s, u.toNat < 0x80

theorem shown_of_sevenBit {s : Str} (h : SevenBit s) : shown s = s := by
  rw [shown, List.map_congr_left (g := id), List.map_id]
  intro u hu
  exact if_pos (h u hu)

theorem map_shown_of_sevenBit {ss : List Str} (h : ∀ s ∈ ss, SevenBit s) :
    ss.map shown = ss := by
  rw [List.map_congr_left (g := id), List.map_id]
  intro s hs
  exact shown_of_sevenBit (h s hs)

/-- No id and no type holds U+0000; the name may. -/
def CustomRequest.NulFree (r : CustomRequest) : Prop :=
  (∀ s ∈ r.mIds, 0 ∉ s) ∧ ∀ s ∈ r.mTypes, 0 ∉ s

instance (r : CustomRequest) : Decidable r.NulFree :=
  inferInstanceAs (Decidable (_ ∧ _))

/-- All the text of a request is 7-bit. -/
def CustomRequest.SevenBit (r : CustomRequest) : Prop :=
  (∀ s ∈ r.mIds, Managed.SevenBit s) ∧ (∀ s ∈ r.mTypes, Managed.SevenBit s) ∧
    Managed.SevenBit r.mName

/-! ## The round trip -/

/-- The wire bytes of a request split into its encoded strings. -/
theorem CustomRequest.splitRequest_wireBytes {r : CustomRequest} (hnul : r.NulFree)
    (hfit : r.wireLength < 2 ^ 31) :
    splitRequest r.wireBytes =
      some (requestHeader (r.mIds.map asciiBytes) (r.mTypes.map asciiBytes) (asciiBytes r.mName),
        r.mIds.map asciiBytes, r.mTypes.map asciiBytes, asciiBytes r.mName ++ [nul]) := by
  have hids := length_le_sectionLength (r.mIds.map asciiBytes)
  have htypes := length_le_sectionLength (r.mTypes.map asciiBytes)
  simp only [wireLength, requestLength] at hfit
  have hfree : ∀ ss : List Str, (∀ s ∈ ss, 0 ∉ s) → ∀ b ∈ ss.map asciiBytes, nul ∉ b := by
    intro ss hss b hb
    obtain ⟨s, hs, rfl⟩ := List.mem_map.mp hb
    exact (nul_notMem_asciiBytes_iff s).mpr (hss s hs)
  rw [← List.append_nil r.wireBytes]
  exact splitRequest_requestBytes (hfree _ hnul.1) (hfree _ hnul.2) (by omega) (by omega) []

/-- On the wire bytes of `r` the decoder adds the strings of `r`, as they are shown, to
    those of the object, and replaces its name. -/
theorem CustomRequest.fromArray_wireBytes {r : CustomRequest} (hnul : r.NulFree)
    (hfit : r.wireLength < 2 ^ 31) {b : ByteArr} (hb : b.bytes = r.wireBytes)
    (d : CustomRequest) :
    ∃ d', d.fromArray b = .ok d' ∧ d'.mIds = d.mIds ++ r.mIds.map shown ∧
      d'.mTypes = d.mTypes ++ r.mTypes.map shown ∧ d'.mName = shown r.mName := by
  have hsplit := splitRequest_wireBytes hnul hfit
  rw [← hb] at hsplit
  have hname : (asciiBytes r.mName).length < 2 ^ 31 := by
    simp only [wireLength, requestLength] at hfit
    omega
  -- the name's length goes over the wire with its terminator counted
  have hns : BitVec.ofNat 32 ((asciiBytes r.mName).length + 1) - 1 =
      BitVec.ofNat 32 (asciiBytes r.mName).length := by
    rw [BitVec.ofNat_add]
    exact BitVec.add_sub_cancel _ _
  have htake : (asciiBytes r.mName ++ [nul]).take (asciiBytes r.mName).length =
      asciiBytes r.mName := List.take_left
  rw [fromArray_of_split _ hsplit, ofSplit]
  simp only [requestHeader, hns, toInt_ofNat_of_lt hname, toNat_ofNat_of_lt hname, htake]
  rw [if_neg (by omega), if_neg (by simp)]
  refine ⟨_, rfl, ?_, ?_, asciiString_asciiBytes _⟩
  · simp only [map_asciiString_asciiBytes]
  · simp only [map_asciiString_asciiBytes]

/-- `toArray` after `getSize` throws nothing, and a new request decodes the array
    to the same strings, in order, with `'?'` for every unit from 0x80 on. -/
theorem CustomRequest.fromArray_toArray {r : CustomRequest} (hnul : r.NulFree)
    (hfit : r.wireLength < 2 ^ 31) :
    ∃ b d, r.getSize.2.toArray r.getSize.1 = .ok b ∧ CustomRequest.new.fromArray b = .ok d ∧
      d.mIds = r.mIds.map shown ∧ d.mTypes = r.mTypes.map shown ∧ d.mName = shown r.mName ∧
      (r.SevenBit → d.mIds = r.mIds ∧ d.mTypes = r.mTypes ∧ d.mName = r.mName) := by
  obtain ⟨b, hb, hbytes⟩ := toArray_getSize hfit
  obtain ⟨d, hd, hids, htypes, hname⟩ := fromArray_wireBytes hnul hfit hbytes .new
  simp only [new, List.nil_append] at hids htypes
  refine ⟨b, d, hb, hd, hids, htypes, hname, ?_⟩
  rintro ⟨h₁, h₂, h₃⟩
  rw [hids, htypes, hname]
  exact ⟨map_shown_of_sevenBit h₁, map_shown_of_sevenBit h₂, shown_of_sevenBit h₃⟩

/-- One id with a unit above 0x80, an empty type, and U+0000 in the name. -/
def mixedRequest : CustomRequest :=
  { CustomRequest.new with mIds := [[0x41, 0xE9]], mTypes := [[]], mName := [0x42, 0] }

/-- The id comes back as `"A?"`, the name whole. -/
theorem mixedRequest_fromArray_toArray :
    ∃ b d, mixedRequest.getSize.2.toArray mixedRequest.getSize.1 = .ok b ∧
      CustomRequest.new.fromArray b = .ok d ∧ d.mIds = [[0x41, 0x3F]] ∧ d.mTypes = [[]] ∧
      d.mName = [0x42, 0] ∧
      (mixedRequest.SevenBit → d.mIds = mixedRequest.mIds ∧ d.mTypes = mixedRequest.mTypes ∧
        d.mName = mixedRequest.mName) :=
  CustomRequest.fromArray_toArray (by decide) (by decide)

end IpcWin.Managed
