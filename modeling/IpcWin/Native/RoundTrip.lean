/-
  IpcWin.Native.RoundTrip

  What becomes of a native request that is encoded and decoded again.

  The two lists and the reported size survive; the name does not.  `fromArray`
  allocates a block for it, copies it there and drops the block, so a decoded
  request has the empty name of a new object, and the round trip restores
  exactly the requests whose name is empty.
-/

import IpcWin.Native.Codec

namespace IpcWin.Native

open IpcWin.Lib IpcWin.Wire

/-- `n = r.getSize(); r.toArray(buf, n); custom_request d; d.fromArray(buf, &s);`
    for a buffer `buf` and a new object whose sizes hold `i` and `t`. -/
def CustomRequest.roundTrip (r : CustomRequest) (buf : List Byte) (i t : Word) :
    Except Fault (CustomRequest × Word) := do
  let (n, r') := r.getSize
  let o ← r'.toArray buf n
  (CustomRequest.new i t).fromArray o.mem

/-- The decoded object equals the encoded one and `s` is the size. -/
def CustomRequest.RoundTrips (r : CustomRequest) (buf : List Byte) (i t : Word) : Prop :=
  ∃ d s, r.roundTrip buf i t = .ok (d, s) ∧
    d.mIds = r.mIds ∧ d.mTypes = r.mTypes ∧ d.mName = r.mName ∧ s = r.getSize.1

/-- What the round trip really yields: everything but the name. -/
theorem CustomRequest.roundTrip_eq {r : CustomRequest} (hnul : r.NulFree)
    (hfit : r.wireLength < 2 ^ 31) {buf : List Byte} (hbuf : buf.length = r.wireLength)
    (i t : Word) :
    r.roundTrip buf i t = .ok ((CustomRequest.new i t).absorb r, r.getSize.1) := by
  obtain ⟨o, ho, hmem, -⟩ := r.toArray_getSize buf r.getSize.1 hbuf
  have hdec := fromArray_wireBytes_append hnul hfit (CustomRequest.new i t) []
  rw [List.append_nil] at hdec
  unfold roundTrip
  rw [← Prod.eta r.getSize]
  simp only [bind, Except.bind, ho, hmem, hdec]
  rw [getSize_fst]

/-- The round trip restores exactly the requests whose name is empty. -/
theorem CustomRequest.roundTrips_iff_name_empty {r : CustomRequest} (hnul : r.NulFree)
    (hfit : r.wireLength < 2 ^ 31) {buf : List Byte} (hbuf : buf.length = r.getSize.1.toNat)
    (i t : Word) : r.RoundTrips buf i t ↔ r.mName = [] := by
  rw [getSize_fst, toNat_ofNat_of_lt hfit] at hbuf
  have hrun := roundTrip_eq hnul hfit hbuf i t
  constructor
  · rintro ⟨d, s, hd, -, -, hname, -⟩
    rw [hrun, Except.ok.injEq, Prod.mk.injEq] at hd
    rw [← hname, ← hd.1]
    rfl
  · intro hname
    exact ⟨_, _, hrun, rfl, rfl, hname.symm, rfl⟩

/-- A request with two ids, a type and no name. -/
def namelessRequest : CustomRequest :=
  { mIds := [[0x31], [0x32, 0x33]], mTypes := [[0x34]], mName := [], idss := 7, typess := 9 }

theorem namelessRequest_roundTrips :
    namelessRequest.RoundTrips (List.replicate 28 0xCD) 1 2 ↔ namelessRequest.mName = [] :=
  CustomRequest.roundTrips_iff_name_empty (by decide) (by decide) (by decide) 1 2

/-- A request with the same lists and the name "1". -/
def namedRequest : CustomRequest := { namelessRequest with mName := [0x31] }

/-- The name of a request that meets every premise is lost. -/
theorem namedRequest_not_roundTrips :
    namedRequest.NulFree ∧ nul ∉ namedRequest.mName ∧ namedRequest.wireLength < 2 ^ 31 ∧
      (List.replicate 29 0xCD : List Byte).length = namedRequest.getSize.1.toNat ∧
      ¬ namedRequest.RoundTrips (List.replicate 29 0xCD) 1 2 := by
  refine ⟨by decide, by decide, by decide, by decide, ?_⟩
  -- the decoded name is that of the new object, which is empty
  rintro ⟨d, s, hd, -, -, hname, -⟩
  have hrun : namedRequest.roundTrip (List.replicate 29 0xCD) 1 2 =
      .ok ({ namelessRequest with idss := 5, typess := 2 }, 29) := by decide
  rw [hrun, Except.ok.injEq, Prod.mk.injEq] at hd
  rw [← hd.1] at hname
  exact absurd hname (by decide)

end IpcWin.Native
