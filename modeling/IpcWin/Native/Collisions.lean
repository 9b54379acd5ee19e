/-
  IpcWin.Native.Collisions

  Which native requests are sent as the same bytes.

  The header of a request counts the strings of each section and sizes the
  section as a whole; the length of a single string is not sent, and its end is
  its NUL.  So the bytes determine the counts, the sections and the name
  (`encode_eq_iff`), and where the strings of one of the two requests hold no
  NUL, the strings as well.  A NUL inside a string moves the boundary to the next
  one (`splitIds_collide`).
-/

import IpcWin.Native.Codec

namespace IpcWin.Native

open IpcWin.Lib IpcWin.Wire

/-! ## What the bytes determine -/

/-- Two string lists of one length with the same section bytes. -/
def SameSection (ss ss' : List Str) : Prop :=
  ss.length = ss'.length ∧ terminated nul ss = terminated nul ss'

theorem SameSection.eq_of_nulFree {ss ss' : List Str} (h : SameSection ss ss')
    (hss : ∀ s ∈ ss, nul ∉ s) : ss = ss' :=
  terminated_inj hss h.1 h.2

/-- The header words are determined by the header bytes. -/
theorem headerBytes_inj {h h' : RequestHeader} {r r' : List Byte}
    (heq : h.bytes ++ r = h'.bytes ++ r') : h = h' ∧ r = r' := by
  have hsplit := List.append_inj heq (by rw [h.bytes_length, h'.bytes_length])
  have hhead := congrArg headerAt heq
  rw [headerAt_bytes_append, headerAt_bytes_append] at hhead
  exact ⟨hhead, hsplit.2⟩

theorem ofNat_inj_of_lt {m n : Nat} (hm : m < 2 ^ 31) (hn : n < 2 ^ 31)
    (h : BitVec.ofNat 32 m = BitVec.ofNat 32 n) : m = n := by
  have hnat := congrArg BitVec.toNat h
  rwa [toNat_ofNat_of_lt hm, toNat_ofNat_of_lt hn] at hnat

/-- Wire bytes of an `int` length are the same exactly when the counts, the
    sections and the names are. -/
theorem CustomRequest.wireBytes_eq_iff {r r' : CustomRequest} (hfit : r.wireLength < 2 ^ 31)
    (hfit' : r'.wireLength < 2 ^ 31) :
    r.wireBytes = r'.wireBytes ↔
      SameSection r.mIds r'.mIds ∧ SameSection r.mTypes r'.mTypes ∧ r.mName = r'.mName := by
  constructor
  · intro h
    obtain ⟨hcids, hctypes, -⟩ := counts_lt hfit
    obtain ⟨hcids', hctypes', -⟩ := counts_lt hfit'
    simp only [wireLength, requestLength] at hfit hfit'
    obtain ⟨hhead, hbody⟩ := headerBytes_inj h
    simp only [requestHeader, RequestHeader.mk.injEq] at hhead
    obtain ⟨hidss, hids, htypess, htypes, -⟩ := hhead
    -- the section sizes of the header cut the bodies at the same places
    have hidsLen := ofNat_inj_of_lt (by omega) (by omega) hidss
    have htypesLen := ofNat_inj_of_lt (by omega) (by omega) htypess
    simp only [requestBody, List.append_assoc] at hbody
    obtain ⟨hidsEq, hrest⟩ := List.append_inj hbody hidsLen
    obtain ⟨htypesEq, hname⟩ := List.append_inj hrest htypesLen
    refine ⟨⟨ofNat_inj_of_lt hcids hcids' hids, hidsEq⟩,
      ⟨ofNat_inj_of_lt hctypes hctypes' htypes, htypesEq⟩, List.append_cancel_right hname⟩
  · rintro ⟨⟨hids, hidsEq⟩, ⟨htypes, htypesEq⟩, hname⟩
    simp only [wireBytes, requestBytes, requestHeader, requestBody, sectionLength, hids, hidsEq,
      htypes, htypesEq, hname]

/-- Two requests with sizes that are `int`s are encoded to the same bytes exactly
    when they have the same counts, the same sections and the same name; then a
    list of strings without NULs in one of them is the same in the other. -/
theorem CustomRequest.encode_eq_iff (junk junk' : Nat → Byte) {r r' : CustomRequest}
    (hfit : r.wireLength < 2 ^ 31) (hfit' : r'.wireLength < 2 ^ 31) :
    (r.encode junk = r'.encode junk' ↔
      SameSection r.mIds r'.mIds ∧ SameSection r.mTypes r'.mTypes ∧ r.mName = r'.mName) ∧
    (r.encode junk = r'.encode junk' →
      ((∀ s ∈ r.mIds, nul ∉ s) → r.mIds = r'.mIds) ∧
      ((∀ s ∈ r.mTypes, nul ∉ s) → r.mTypes = r'.mTypes)) := by
  have hiff : r.encode junk = r'.encode junk' ↔
      SameSection r.mIds r'.mIds ∧ SameSection r.mTypes r'.mTypes ∧ r.mName = r'.mName := by
    rw [encode_of_lt junk hfit, encode_of_lt junk' hfit', Except.ok.injEq,
      wireBytes_eq_iff hfit hfit']
  refine ⟨hiff, ?_⟩
  intro h
  obtain ⟨hids, htypes, -⟩ := hiff.mp h
  exact ⟨hids.eq_of_nulFree, htypes.eq_of_nulFree⟩

/-! ## Two requests that collide -/

/-- The ids `"A\0"` and `"B"`. -/
def nulBeforeBoundary : CustomRequest :=
  { mIds := [[0x41, nul], [0x42]], mTypes := [], mName := [], idss := 0, typess := 0 }

/-- The ids `"A"` and `"\0B"`. -/
def nulBehindBoundary : CustomRequest :=
  { mIds := [[0x41], [nul, 0x42]], mTypes := [], mName := [], idss := 0, typess := 0 }

/-- Both are sent as `A\0\0B\0` behind the same header. -/
theorem splitIds_collide :
    nulBeforeBoundary.wireLength < 2 ^ 31 ∧ nulBehindBoundary.wireLength < 2 ^ 31 ∧
      (∃ b, nulBeforeBoundary.encode (fun _ => 0) = .ok b ∧
        nulBehindBoundary.encode (fun _ => 0) = .ok b) ∧
      nulBeforeBoundary.mIds ≠ nulBehindBoundary.mIds := by
  refine ⟨by decide, by decide, ⟨nulBeforeBoundary.wireBytes, ?_, ?_⟩, by decide⟩
  · exact nulBeforeBoundary.encode_of_lt _ (by decide)
  · exact nulBehindBoundary.encode_of_lt _ (by decide)

theorem namelessRequests_encode_eq_iff :
    nulBeforeBoundary.wireLength < 2 ^ 31 ∧ nulBehindBoundary.wireLength < 2 ^ 31 ∧
      (nulBeforeBoundary.encode (fun _ => 0) = nulBehindBoundary.encode (fun _ => 1) ↔
        SameSection nulBeforeBoundary.mIds nulBehindBoundary.mIds ∧
          SameSection nulBeforeBoundary.mTypes nulBehindBoundary.mTypes ∧
          nulBeforeBoundary.mName = nulBehindBoundary.mName) :=
  ⟨by decide, by decide,
    (CustomRequest.encode_eq_iff (fun _ => 0) (fun _ => 1) (by decide) (by decide)).1⟩

end IpcWin.Native
