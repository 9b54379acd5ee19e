/-
  IpcWin.Interop.Histories

  What can happen to one `custom_request`, and what its encodings look like.

  The two sizes in the header are cached in the object: `getSize` computes them,
  `fromArray` overwrites them with those of another buffer, and adding strings
  leaves them as they are.  All callers call `toArray` right after `getSize`, and
  that is enough: over every history of either class, the header of every buffer
  put out describes its sections (`emitted_describes`).
-/

import IpcWin.Lib.Transition
import IpcWin.Native.Codec
import IpcWin.Managed.Codec

namespace IpcWin.Interop

open IpcWin.Lib IpcWin.Wire
open IpcWin.Native (malloc)
open IpcWin.Managed (ByteArr asciiBytes)

/-! ## A class of requests -/

/-- What a native decoding leaves of an object, if it does not leave the buffer. -/
def nativeDecoding {R : Type} (fromArray : R → List Byte → Except Native.Fault (R × Word)) (r : R)
    (buffer : List Byte) : Option R :=
  (fromArray r buffer).toOption.map Prod.fst

/-- What a managed decoding leaves, if it throws nothing; it reads an array, whose length is
    an `int`. -/
def managedDecoding {R : Type} (fromArray : R → ByteArr → Except Managed.Exn R) (r : R)
    (buffer : List Byte) : Option R :=
  if h : buffer.length < 2 ^ 31 then (fromArray r ⟨buffer, h⟩).toOption else none

/-- What can be done with an object `R` that holds strings `S`; `wire` is what a
    string is on the wire. -/
structure RequestClass (R S : Type) where
  ids : R → List S
  types : R → List S
  name : R → S
  wire : S → List Byte
  addId : R → S → R
  addType : R → S → R
  setName : R → S → R
  getSize : R → Word × R
  fromArray : R → List Byte → Option R
  toArray : R → Word → Option (List Byte)

/-- The native class; `toArray` is handed a new block with whatever it holds. -/
def nativeRequest (junk : Nat → Byte) : RequestClass Native.CustomRequest Native.Str where
  ids r := r.mIds
  types r := r.mTypes
  name r := r.mName
  wire s := s
  addId r s := { r with mIds := r.mIds ++ [s] }
  addType r s := { r with mTypes := r.mTypes ++ [s] }
  setName r s := { r with mName := s }
  getSize r := r.getSize
  fromArray := nativeDecoding Native.CustomRequest.fromArray
  toArray r size :=
    (malloc junk size).bind fun data => ((r.toArray data size).map Native.OutBuf.mem).toOption

/-- The managed class. -/
def managedRequest : RequestClass Managed.CustomRequest Managed.Str where
  ids r := r.mIds
  types r := r.mTypes
  name r := r.mName
  wire s := asciiBytes s
  addId r s := { r with mIds := r.mIds ++ [s] }
  addType r s := { r with mTypes := r.mTypes ++ [s] }
  setName r s := { r with mName := s }
  getSize r := r.getSize
  fromArray := managedDecoding Managed.CustomRequest.fromArray
  toArray r size := (r.toArray size).toOption.map ByteArr.bytes

/-! ## Histories -/

/-- One operation on the object. -/
inductive Operation (S : Type) where
  | addId (s : S)
  | addType (s : S)
  | setName (s : S)
  | getSize
  | fromArray (buffer : List Byte)
  | toArray

/-- A buffer that was put out, and the object it was made of. -/
structure Emission (R : Type) where
  object : R
  buffer : List Byte

/-- The object, the size that the last operation returned if it was `getSize`, and
    all buffers put out so far. -/
structure History (R : Type) where
  object : R
  size : Option Word
  emitted : List (Emission R)

/-- Any operations on one object, but `toArray` only right after `getSize` and with the
    size it returned; a decoding or an encoding that fails has no step. -/
def histories {R S : Type} (C : RequestClass R S) (r : R) : System (History R) (Operation S) where
  init := { object := r, size := none, emitted := [] }
  step
    | .addId s, h => some { h with object := C.addId h.object s, size := none }
    | .addType s, h => some { h with object := C.addType h.object s, size := none }
    | .setName s, h => some { h with object := C.setName h.object s, size := none }
    | .getSize, h =>
        let (size, object) := C.getSize h.object
        some { h with object := object, size := some size }
    | .fromArray buffer, h =>
        (C.fromArray h.object buffer).map fun object => { h with object := object, size := none }
    | .toArray, h =>
        h.size.bind fun size =>
          (C.toArray h.object size).map fun buffer =>
            { h with size := none, emitted := h.emitted ++ [⟨h.object, buffer⟩] }

/-! ## What the header says -/

/-- Behind the header stand the ids, the types and the name, in as many bytes as it
    says, and nothing else; and it counts the ids and the types. -/
structure Describes (ids types : List (List Byte)) (name : List Byte) (b : List Byte) : Prop where
  header : 20 ≤ b.length
  sections : b.drop 20 = terminated nul ids ++ terminated nul types ++ (name ++ [nul])
  idss : (headerAt b).idss.toInt = (terminated nul ids).length
  typess : (headerAt b).typess.toInt = (terminated nul types).length
  ns : (headerAt b).ns.toInt = (name ++ [nul]).length
  cids : (headerAt b).cids.toInt = ids.length
  ctypes : (headerAt b).ctypes.toInt = types.length

/-- The wire bytes of a request that is not too long. -/
theorem describes_requestBytes {ids types : List (List Byte)} {name : List Byte}
    (hfit : requestLength ids types name < 2 ^ 31) :
    Describes ids types name (requestBytes ids types name) := by
  have hids := length_le_sectionLength ids
  have htypes := length_le_sectionLength types
  simp only [requestLength] at hfit
  have hheader : headerAt (requestBytes ids types name) = requestHeader ids types name :=
    headerAt_bytes_append _ _
  have hbody : (requestBytes ids types name).drop 20 = requestBody ids types name :=
    List.drop_left' (RequestHeader.bytes_length _)
  refine ⟨?_, ?_, ?_, ?_, ?_, ?_, ?_⟩
  · rw [requestBytes_length, requestLength]
    omega
  · rw [hbody, requestBody]
  · rw [hheader, length_terminated]
    exact toInt_ofNat_of_lt (by omega)
  · rw [hheader, length_terminated]
    exact toInt_ofNat_of_lt (by omega)
  · rw [hheader, List.length_append, List.length_singleton]
    exact toInt_ofNat_of_lt (by omega)
  · rw [hheader]
    exact toInt_ofNat_of_lt (by omega)
  · rw [hheader]
    exact toInt_ofNat_of_lt (by omega)

/-- What is put out describes the strings of the object it was made of. -/
def RequestClass.Describes {R S : Type} (C : RequestClass R S) (e : Emission R) : Prop :=
  Interop.Describes ((C.ids e.object).map C.wire) ((C.types e.object).map C.wire)
    (C.wire (C.name e.object)) e.buffer

/-! ## The two classes -/

/-- The two calls of every caller put out a buffer that describes the object. -/
def RequestClass.Lawful {R S : Type} (C : RequestClass R S) : Prop :=
  ∀ r b, C.toArray (C.getSize r).2 (C.getSize r).1 = some b → C.Describes ⟨(C.getSize r).2, b⟩

theorem nativeRequest_lawful (junk : Nat → Byte) : (nativeRequest junk).Lawful := by
  intro r b h
  obtain ⟨data, hdata, hmap⟩ := Option.bind_eq_some_iff.mp h
  have hdata : malloc junk r.getSize.1 = some data := hdata
  have hmap : (r.getSize.2.toArray data r.getSize.1).map Native.OutBuf.mem = .ok b :=
    toOption_eq_some.mp hmap
  have henc : r.encode junk = .ok b := by
    unfold Native.CustomRequest.encode
    rw [← Prod.eta r.getSize]
    simp only [hdata, hmap]
  obtain ⟨hfit, rfl⟩ := Native.CustomRequest.encode_eq_ok_iff.mp henc
  have hdescribes := describes_requestBytes hfit
  simp only [RequestClass.Describes, Native.CustomRequest.getSize_snd, nativeRequest,
    List.map_id']
  exact hdescribes

theorem managedRequest_lawful : managedRequest.Lawful := by
  intro r b h
  obtain ⟨b, hb, rfl⟩ := Option.map_eq_some_iff.mp h
  have hb : r.getSize.2.toArray r.getSize.1 = .ok b := toOption_eq_some.mp hb
  obtain ⟨hfit, hbytes⟩ := Managed.CustomRequest.toArray_eq_ok hb
  have hdescribes := describes_requestBytes hfit
  simp only [RequestClass.Describes, Managed.CustomRequest.getSize_snd, managedRequest,
    hbytes]
  exact hdescribes

/-! ## Every history -/

/-- The size at hand and the sizes cached in the object are those that `getSize`
    computed last, and every buffer put out describes its object. -/
structure Fresh {R S : Type} (C : RequestClass R S) (h : History R) : Prop where
  sized : ∀ size, h.size = some size → ∃ r, C.getSize r = (size, h.object)
  described : ∀ e ∈ h.emitted, C.Describes e

/-- An operation that returns no size keeps what has been put out. -/
theorem Fresh.keep {R S : Type} {C : RequestClass R S} {h : History R} (hf : Fresh C h)
    (object : R) : Fresh C { h with object := object, size := none } :=
  ⟨fun _ hsize => (by cases hsize), hf.described⟩

theorem Fresh.step {R S : Type} {C : RequestClass R S} (hC : C.Lawful) {r : R}
    {h h' : History R} {a : Operation S} (hf : Fresh C h)
    (hs : (histories C r).step a h = some h') : Fresh C h' := by
  cases a with
  | addId s | addType s | setName s =>
      cases hs
      exact hf.keep _
  | fromArray buffer =>
      obtain ⟨object, -, rfl⟩ := Option.map_eq_some_iff.mp hs
      exact hf.keep object
  | getSize =>
      cases hs
      refine ⟨?_, hf.described⟩
      intro size hsize
      cases hsize
      exact ⟨h.object, rfl⟩
  | toArray =>
      obtain ⟨size, hsize, hmap⟩ := Option.bind_eq_some_iff.mp hs
      obtain ⟨buffer, hbuffer, rfl⟩ := Option.map_eq_some_iff.mp hmap
      obtain ⟨r', hr'⟩ := hf.sized size hsize
      refine ⟨fun _ hnone => (by cases hnone), ?_⟩
      intro e he
      rcases List.mem_append.mp he with he | he
      · exact hf.described e he
      · -- the operation before this one was the `getSize` of the object
        obtain rfl := List.mem_singleton.mp he
        have hlaw := hC r' buffer
        rw [hr'] at hlaw
        exact hlaw hbuffer

theorem Fresh.of_reachable {R S : Type} {C : RequestClass R S} (hC : C.Lawful) {r : R}
    {h : History R} (hr : Reachable (histories C r) h) : Fresh C h := by
  apply hr.invariant
  · exact ⟨fun _ hnone => (by cases hnone), fun _ he => (by cases he)⟩
  · intro _ _ _ hf hs
    exact hf.step hC hs

/-- From any object of either class, every buffer that any history puts out has a
    header that describes it. -/
theorem emitted_describes :
    (∀ junk r h, Reachable (histories (nativeRequest junk) r) h →
      ∀ e ∈ h.emitted, (nativeRequest junk).Describes e) ∧
    ∀ r h, Reachable (histories managedRequest r) h →
      ∀ e ∈ h.emitted, managedRequest.Describes e := by
  refine ⟨?_, ?_⟩
  · intro junk r h hr
    exact (Fresh.of_reachable (nativeRequest_lawful junk) hr).described
  · intro r h hr
    exact (Fresh.of_reachable managedRequest_lawful hr).described

/-- A request is put out, another one is decoded into it, and it is put out again. -/
def decodeBetween {S : Type} (s : S) : List (Operation S) :=
  [.addId s, .getSize, .toArray,
    .fromArray (requestBytes [[0x41, 0x42]] [[0x43]] [0x4E]), .addType s, .getSize, .toArray]

theorem decodeBetween_describes :
    (∃ h, Reachable (histories (nativeRequest fun _ => 0xCD) (.new 7 9)) h ∧
      h.emitted.length = 2 ∧ ∀ e ∈ h.emitted, (nativeRequest fun _ => 0xCD).Describes e) ∧
    ∃ h, Reachable (histories managedRequest .new) h ∧
      h.emitted.length = 2 ∧ ∀ e ∈ h.emitted, managedRequest.Describes e := by
  have hnative : ((histories (nativeRequest fun _ => 0xCD) (.new 7 9)).run
      (decodeBetween [0x41])).map (fun h => h.emitted.length) = some 2 := by
    decide +kernel
  have hmanaged : ((histories managedRequest .new).run (decodeBetween [0x41])).map
      (fun h => h.emitted.length) = some 2 := by
    decide +kernel
  obtain ⟨h, hrun, htwo⟩ := Option.map_eq_some_iff.mp hnative
  obtain ⟨h', hrun', htwo'⟩ := Option.map_eq_some_iff.mp hmanaged
  have hr : Reachable (histories (nativeRequest fun _ => 0xCD) (.new 7 9)) h := Exec.of_run hrun
  have hr' : Reachable (histories managedRequest .new) h' := Exec.of_run hrun'
  exact ⟨⟨h, hr, htwo, emitted_describes.1 _ _ h hr⟩, h', hr', htwo', emitted_describes.2 _ h' hr'⟩

end IpcWin.Interop
