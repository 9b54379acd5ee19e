/-
  IpcWin.Interop.Redecoding

  Decoding into an object that has been used before.

  All four `fromArray` add the strings that they read to the lists of the object.
  The two request decoders assign the cached sizes, and of these the managed one
  assigns the name as well and the native one does not.  So what an object holds
  after a decoding depends on what it held before, and a second decoding of the same
  buffer doubles every string (`decoders_afresh_iff`).
-/

import IpcWin.Interop.Histories
import IpcWin.Managed.RoundTrip

namespace IpcWin.Interop

open IpcWin.Lib IpcWin.Wire
open IpcWin.Managed (ByteArr asciiString)

/-- A decoder of objects `R`, and the fields `F` that it decodes. -/
structure Decoder (R F : Type) where
  fields : R → F
  fromArray : R → List Byte → Option R

namespace Decoder

def nativeRequest :
    Decoder Native.CustomRequest (List Native.Str × List Native.Str × Native.Str) where
  fields r := (r.mIds, r.mTypes, r.mName)
  fromArray := nativeDecoding Native.CustomRequest.fromArray

def nativeResponse : Decoder Native.CustomResponse (List Native.Str) where
  fields r := r.mData
  fromArray := nativeDecoding Native.CustomResponse.fromArray

def managedRequest :
    Decoder Managed.CustomRequest (List Managed.Str × List Managed.Str × Managed.Str) where
  fields r := (r.mIds, r.mTypes, r.mName)
  fromArray := managedDecoding Managed.CustomRequest.fromArray

def managedResponse : Decoder Managed.CustomResponse (List Managed.Str) where
  fields r := r.mData
  fromArray := managedDecoding Managed.CustomResponse.fromArray

variable {R F : Type} {D : Decoder R F} {b : List Byte}

/-- From the two objects the buffer is decoded to the same fields. -/
def Afresh (D : Decoder R F) (b : List Byte) (r₁ r₂ : R) : Prop :=
  ∃ r₁' r₂', D.fromArray r₁ b = some r₁' ∧ D.fromArray r₂ b = some r₂' ∧
    D.fields r₁' = D.fields r₂'

/-- Decoding the buffer twice leaves the fields that decoding it once does. -/
def Twice (D : Decoder R F) (b : List Byte) (r : R) : Prop :=
  ∃ r' r'', D.fromArray r b = some r' ∧ D.fromArray r' b = some r'' ∧ D.fields r'' = D.fields r'

/-- Of a buffer that is decoded into every object. -/
theorem afresh_iff {next : R → R} (hnext : ∀ r, D.fromArray r b = some (next r)) (r₁ r₂ : R) :
    D.Afresh b r₁ r₂ ↔ D.fields (next r₁) = D.fields (next r₂) := by
  constructor
  · rintro ⟨r₁', r₂', h₁, h₂, heq⟩
    rw [hnext] at h₁ h₂
    cases h₁
    cases h₂
    exact heq
  · intro heq
    exact ⟨_, _, hnext r₁, hnext r₂, heq⟩

theorem twice_iff {next : R → R} (hnext : ∀ r, D.fromArray r b = some (next r)) (r : R) :
    D.Twice b r ↔ D.fields (next (next r)) = D.fields (next r) := by
  constructor
  · rintro ⟨r', r'', h', h'', heq⟩
    rw [hnext] at h'
    cases h'
    rw [hnext] at h''
    cases h''
    exact heq
  · intro heq
    exact ⟨_, _, hnext r, hnext _, heq⟩

end Decoder

/-! ## The four decoders -/

/-- The native request decoder adds to both lists and leaves the name alone. -/
theorem nativeRequest_afresh {junk : Nat → Byte} {r : Native.CustomRequest} {b : List Byte}
    (hnul : r.NulFree) (henc : r.encode junk = .ok b) :
    (∀ d₁ d₂, Decoder.nativeRequest.Afresh b d₁ d₂ ↔
      d₁.mIds = d₂.mIds ∧ d₁.mTypes = d₂.mTypes ∧ d₁.mName = d₂.mName) ∧
    ∀ d, Decoder.nativeRequest.Twice b d ↔ r.mIds = [] ∧ r.mTypes = [] := by
  obtain ⟨hfit, rfl⟩ := Native.CustomRequest.encode_eq_ok_iff.mp henc
  have hnext : ∀ d, Decoder.nativeRequest.fromArray d r.wireBytes = some (d.absorb r) := by
    intro d
    have hdec := Native.CustomRequest.fromArray_wireBytes_append hnul hfit d []
    rw [List.append_nil] at hdec
    simp only [Decoder.nativeRequest, nativeDecoding, hdec]
    rfl
  refine ⟨?_, ?_⟩
  · intro d₁ d₂
    rw [Decoder.afresh_iff hnext]
    simp [Decoder.nativeRequest, Native.CustomRequest.absorb]
  · intro d
    rw [Decoder.twice_iff hnext]
    simp [Decoder.nativeRequest, Native.CustomRequest.absorb]

/-- The managed one adds to both lists and replaces the name. -/
theorem managedRequest_afresh {r : Managed.CustomRequest} {b : ByteArr} (hnul : r.NulFree)
    (henc : r.getSize.2.toArray r.getSize.1 = .ok b) :
    (∀ d₁ d₂, Decoder.managedRequest.Afresh b.bytes d₁ d₂ ↔
      d₁.mIds = d₂.mIds ∧ d₁.mTypes = d₂.mTypes) ∧
    ∀ d, Decoder.managedRequest.Twice b.bytes d ↔ r.mIds = [] ∧ r.mTypes = [] := by
  obtain ⟨hfit, hbytes⟩ := Managed.CustomRequest.toArray_eq_ok henc
  have hdec := Managed.CustomRequest.fromArray_wireBytes hnul hfit hbytes
  choose next hnext hids htypes hname using hdec
  have hnext : ∀ d, Decoder.managedRequest.fromArray d b.bytes = some (next d) := by
    intro d
    simp only [Decoder.managedRequest, managedDecoding, dif_pos b.length_lt, hnext]
    rfl
  refine ⟨?_, ?_⟩
  · intro d₁ d₂
    rw [Decoder.afresh_iff hnext]
    simp [Decoder.managedRequest, hids, htypes, hname]
  · intro d
    rw [Decoder.twice_iff hnext]
    simp [Decoder.managedRequest, hids, htypes, hname]

/-- The response decoders add to their list. -/
theorem responses_afresh {junk : Nat → Byte} {r : Native.CustomResponse} {b : List Byte}
    (hnul : r.NulFree) (henc : r.encode junk = .ok b) :
    ((∀ d₁ d₂, Decoder.nativeResponse.Afresh b d₁ d₂ ↔ d₁.mData = d₂.mData) ∧
      ∀ d, Decoder.nativeResponse.Twice b d ↔ r.mData = []) ∧
    (∀ d₁ d₂, Decoder.managedResponse.Afresh b d₁ d₂ ↔ d₁.mData = d₂.mData) ∧
      ∀ d, Decoder.managedResponse.Twice b d ↔ r.mData = [] := by
  obtain ⟨hfit, rfl⟩ := Native.CustomResponse.encode_eq_ok_iff.mp henc
  have hnative : ∀ d, Decoder.nativeResponse.fromArray d r.wireBytes = some (d.absorb r) := by
    intro d
    have hdec := Native.CustomResponse.fromArray_wireBytes_append hnul hfit d []
    rw [List.append_nil] at hdec
    simp only [Decoder.nativeResponse, nativeDecoding, hdec]
    rfl
  have hlen : r.wireBytes.length < 2 ^ 31 := by
    rw [Native.CustomResponse.wireBytes_length]
    exact hfit
  have hsplit : splitResponse r.wireBytes = some (r.mData, []) := by
    rw [← List.append_nil r.wireBytes]
    exact splitResponse_responseBytes hnul (Native.CustomResponse.count_lt hfit) []
  have hmanaged : ∀ d, Decoder.managedResponse.fromArray d r.wireBytes =
      some { mData := d.mData ++ r.mData.map asciiString } := by
    intro d
    have hdec := Managed.CustomResponse.fromArray_of_split d (b := ⟨r.wireBytes, hlen⟩) hsplit
    simp only [Decoder.managedResponse, managedDecoding, dif_pos hlen, hdec]
    rfl
  refine ⟨⟨?_, ?_⟩, ?_, ?_⟩
  · intro d₁ d₂
    rw [Decoder.afresh_iff hnative]
    simp [Decoder.nativeResponse, Native.CustomResponse.absorb]
  · intro d
    rw [Decoder.twice_iff hnative]
    simp [Decoder.nativeResponse, Native.CustomResponse.absorb]
  · intro d₁ d₂
    rw [Decoder.afresh_iff hmanaged]
    simp [Decoder.managedResponse]
  · intro d
    rw [Decoder.twice_iff hmanaged]
    simp [Decoder.managedResponse]

/-- Of a request of either class and of a response: what a decoding leaves is the same
    from two objects exactly if they held the same lists (and, in the native class, the
    same name), and a second decoding changes nothing exactly if there are no strings
    to add. -/
theorem decoders_afresh_iff {junk : Nat → Byte}
    {rn : Native.CustomRequest} {bn : List Byte} (hrn : rn.NulFree) (hbn : rn.encode junk = .ok bn)
    {rm : Managed.CustomRequest} {bm : ByteArr} (hrm : rm.NulFree)
    (hbm : rm.getSize.2.toArray rm.getSize.1 = .ok bm)
    {resp : Native.CustomResponse} {b : List Byte} (hresp : resp.NulFree)
    (hb : resp.encode junk = .ok b) :
    ((∀ d₁ d₂, Decoder.nativeRequest.Afresh bn d₁ d₂ ↔
        d₁.mIds = d₂.mIds ∧ d₁.mTypes = d₂.mTypes ∧ d₁.mName = d₂.mName) ∧
      ∀ d, Decoder.nativeRequest.Twice bn d ↔ rn.mIds = [] ∧ rn.mTypes = []) ∧
    ((∀ d₁ d₂, Decoder.managedRequest.Afresh bm.bytes d₁ d₂ ↔
        d₁.mIds = d₂.mIds ∧ d₁.mTypes = d₂.mTypes) ∧
      ∀ d, Decoder.managedRequest.Twice bm.bytes d ↔ rm.mIds = [] ∧ rm.mTypes = []) ∧
    ((∀ d₁ d₂, Decoder.nativeResponse.Afresh b d₁ d₂ ↔ d₁.mData = d₂.mData) ∧
      ∀ d, Decoder.nativeResponse.Twice b d ↔ resp.mData = []) ∧
    (∀ d₁ d₂, Decoder.managedResponse.Afresh b d₁ d₂ ↔ d₁.mData = d₂.mData) ∧
      ∀ d, Decoder.managedResponse.Twice b d ↔ resp.mData = [] :=
  ⟨nativeRequest_afresh hrn hbn, managedRequest_afresh hrm hbm, responses_afresh hresp hb⟩

/-- A request of one id, and its 24 bytes. -/
def oneIdNative : Native.CustomRequest :=
  { mIds := [[0x41]], mTypes := [], mName := [0x4E], idss := 0, typess := 0 }

def oneIdManaged : Managed.CustomRequest :=
  { mIds := [[0x41]], mTypes := [], mName := [0x4E], idss := 0, typess := 0 }

def oneIdBytes : ByteArr :=
  { bytes := requestBytes [[0x41]] [] [0x4E], length_lt := by decide }

/-- A response of one item, and its six bytes. -/
def oneItem : Native.CustomResponse := { mData := [[0x42]] }

def oneItemBytes : List Byte := [1, 0, 0, 0, 0x42, 0]

theorem oneIdManaged_toArray :
    oneIdManaged.getSize.2.toArray oneIdManaged.getSize.1 = .ok oneIdBytes := by
  decide +kernel

/-- Objects that hold the same lists decode it alike, whatever sizes they have cached
    and, in the managed class, whatever name they have. -/
theorem oneId_afresh :
    Decoder.nativeRequest.Afresh oneIdBytes.bytes (.new 0 0) (.new 7 9) ∧
    Decoder.managedRequest.Afresh oneIdBytes.bytes .new
      { Managed.CustomRequest.new with mName := [0x42] } ∧
    Decoder.nativeResponse.Afresh oneItemBytes .new .new ∧
    Decoder.managedResponse.Afresh oneItemBytes .new .new := by
  have hnative : oneIdNative.encode (fun _ => 0xCD) = .ok oneIdBytes.bytes := rfl
  have hresponse : oneItem.encode (fun _ => 0xCD) = .ok oneItemBytes := rfl
  obtain ⟨hn, hm, hr, hr'⟩ := decoders_afresh_iff (by decide) hnative (by decide)
    oneIdManaged_toArray (by decide) hresponse
  exact ⟨(hn.1 _ _).mpr ⟨rfl, rfl, rfl⟩, (hm.1 _ _).mpr ⟨rfl, rfl⟩, (hr.1 _ _).mpr rfl,
    (hr'.1 _ _).mpr rfl⟩

/-- Into an object that holds an id already, or a second time into one that did not,
    the strings are added to what is there. -/
theorem oneId_not_afresh :
    (¬ Decoder.nativeRequest.Afresh oneIdBytes.bytes (.new 0 0) oneIdNative ∧
      ¬ Decoder.nativeRequest.Twice oneIdBytes.bytes (.new 0 0)) ∧
    (¬ Decoder.managedRequest.Afresh oneIdBytes.bytes .new oneIdManaged ∧
      ¬ Decoder.managedRequest.Twice oneIdBytes.bytes .new) ∧
    (¬ Decoder.nativeResponse.Afresh oneItemBytes .new oneItem ∧
      ¬ Decoder.nativeResponse.Twice oneItemBytes .new) ∧
    ¬ Decoder.managedResponse.Afresh oneItemBytes .new { mData := [[0x42]] } ∧
      ¬ Decoder.managedResponse.Twice oneItemBytes .new := by
  have hnative := nativeRequest_afresh (r := oneIdNative) (b := oneIdBytes.bytes)
    (by decide) (Native.CustomRequest.encode_of_lt (fun _ => 0xCD) (by decide))
  have hmanaged := managedRequest_afresh (r := oneIdManaged) (by decide) oneIdManaged_toArray
  have hresponses := responses_afresh (r := oneItem) (b := oneItemBytes) (by decide)
    (Native.CustomResponse.encode_of_lt (fun _ => 0xCD) (by decide))
  refine ⟨⟨?_, ?_⟩, ⟨?_, ?_⟩, ⟨?_, ?_⟩, ?_, ?_⟩
  · rw [hnative.1]
    decide
  · rw [hnative.2]
    decide
  · rw [hmanaged.1]
    decide
  · rw [hmanaged.2]
    decide
  · rw [hresponses.1.1]
    decide
  · rw [hresponses.1.2]
    decide
  · rw [hresponses.2.1]
    decide
  · rw [hresponses.2.2]
    decide

end IpcWin.Interop
