/-
  IpcWin.Protobuf.CodedStream

  What the generated message code uses of the protobuf runtime
  (`lib/protobuf-2.4.1`): the reads of a `CodedInputStream` over an array, the
  skipping of unknown fields, the loop that every generated
  `MergePartialFromCodedStream` is an instance of, and the writer of a string
  field.

  The `ExpectTag` and `ExpectAtEnd` calls of the generated loops are shortcuts
  of the next `ReadTag`, and unknown fields are kept in a set that neither
  program reads; both are left out.
-/

import IpcWin.Lib.Varint
import IpcWin.Wire.Format

namespace IpcWin.Protobuf

open IpcWin.Lib IpcWin.Wire

/-! ## Reading -/

/-- `ReadVarint32`: up to ten bytes, of whose number the low 32 bits count. -/
def readVarint32 (bs : List Byte) : Option (Word × List Byte) :=
  (readBase128 10 bs).map fun q => (BitVec.ofNat 32 q.1, q.2)

/-- `ReadTag`: zero at the end, and where no number can be read. -/
def readTag (bs : List Byte) : Word × List Byte := (readVarint32 bs).getD (0, bs)

/-- `GetTagFieldNumber`. -/
def fieldNumber (tag : Word) : Nat := tag.toNat / 8

/-- `GetTagWireType`. -/
def wireType (tag : Word) : Nat := tag.toNat % 8

/-- `MakeTag`. -/
def makeTag (number wire : Nat) : Word := BitVec.ofNat 32 (number * 8 + wire)

/-- `ReadString(value, size)`: what is in `value` afterwards, and what stands behind
    it if all of it was there.  At a negative size the source leaves `value` as it was; here
    it is empty, as a new string is. -/
def readBytes (size : Word) (bs : List Byte) : List Byte × Option (List Byte) :=
  if size.toInt < 0 then ([], none)
  else if size.toNat ≤ bs.length then (bs.take size.toNat, some (bs.drop size.toNat))
  else (bs, none)

/-- `WireFormatLite::ReadString`: the length and the string.  Where no length can be read
    the source leaves the string as it was; here it is empty. -/
def readString (bs : List Byte) : List Byte × Option (List Byte) :=
  match readVarint32 bs with
  | none => ([], none)
  | some (size, bs) => readBytes size bs

mutual

/-- `WireFormat::SkipField`; `depth` counts the groups around it. -/
def skipField : Nat → Nat → Word → List Byte → Option (List Byte)
  | 0, _, _, _ => none
  | fuel + 1, depth, tag, bs =>
      match wireType tag with
      | 0 => (readBase128 10 bs).map Prod.snd
      | 1 => if 8 ≤ bs.length then some (bs.drop 8) else none
      | 2 => (readString bs).2
      | 3 =>
          -- the tag that ends the group has to have its number
          if depth < 64 then
            (skipMessage fuel (depth + 1) bs).bind fun q =>
              if q.1 = makeTag (fieldNumber tag) 4 then some q.2 else none
          else none
      | 5 => if 4 ≤ bs.length then some (bs.drop 4) else none
      | _ => none

/-- `WireFormat::SkipMessage`: the tag it ended at, and what stands behind it. -/
def skipMessage : Nat → Nat → List Byte → Option (Word × List Byte)
  | 0, _, _ => none
  | fuel + 1, depth, bs =>
      let q := readTag bs
      if q.1 = 0 then some q
      else if wireType q.1 = 4 then some q
      else (skipField fuel depth q.1 q.2).bind fun bs => skipMessage fuel depth bs

end

/-! ## The loop of a generated message -/

/-- How a `MergePartialFromCodedStream` ended: its result, whether the input was at
    its end, and the message. -/
structure Merged (M : Type) where
  ok : Bool
  atEnd : Bool
  msg : M

/-- `MergePartialFromCodedStream` of a message whose known fields are strings: `set`
    says what a string does to the message that is read for a field number.  Every
    round takes a byte, so `bs.length + 1` rounds are enough. -/
def mergeLoop {M : Type} (set : Nat → Option (M → List Byte → M)) :
    Nat → M → List Byte → Merged M
  | 0, m, _ => { ok := false, atEnd := false, msg := m }
  | fuel + 1, m, bs =>
      let q := readTag bs
      if q.1 = 0 then { ok := true, atEnd := bs.isEmpty, msg := m }
      else
        match set (fieldNumber q.1), wireType q.1 with
        | some put, 2 =>
            match readString q.2 with
            | (s, some rest) => mergeLoop set fuel (put m s) rest
            | (s, none) => { ok := false, atEnd := false, msg := put m s }
        | _, 4 => { ok := true, atEnd := false, msg := m }
        | _, _ =>
            match skipField (2 * bs.length + 2) 0 q.1 q.2 with
            | some rest => mergeLoop set fuel m rest
            | none => { ok := false, atEnd := false, msg := m }

/-! ## Writing -/

/-- `WireFormatLite::WriteString`: the tag, the length and the string. -/
def writeString (number : Nat) (s : List Byte) : List Byte :=
  base128 5 (makeTag number 2).toNat ++ (base128 5 (BitVec.ofNat 32 s.length).toNat ++ s)

/-- `CodedOutputStream::VarintSize32`. -/
def varintSize32 (value : Word) : Word :=
  if value.toNat < 2 ^ 7 then 1
  else if value.toNat < 2 ^ 14 then 2
  else if value.toNat < 2 ^ 21 then 3
  else if value.toNat < 2 ^ 28 then 4
  else 5

/-- `WireFormatLite::StringSize`. -/
def stringSize (s : List Byte) : Word :=
  varintSize32 (BitVec.ofNat 32 s.length) + BitVec.ofNat 32 s.length

theorem varintSize32_eq (value : Word) :
    varintSize32 value = BitVec.ofNat 32 (base128 5 value.toNat).length := by
  have hlt : value.toNat < 2 ^ 32 := value.isLt
  rw [length_base128]
  unfold varintSize32
  simp only [base128Length]
  split_ifs <;> first | rfl | omega

/-- A field of a number of one digit, as all are here, has a tag of one byte. -/
theorem length_writeString {number : Nat} (h : number < 16) (s : List Byte) :
    BitVec.ofNat 32 (writeString number s).length = 1 + stringSize s := by
  have htag : (makeTag number 2).toNat = number * 8 + 2 := by
    rw [makeTag, BitVec.toNat_ofNat]
    omega
  rw [writeString, htag, base128_of_lt 4 (by omega), List.length_append, List.length_append,
    stringSize, varintSize32_eq, ← BitVec.ofNat_add, List.length_singleton, BitVec.ofNat_add]
  rfl

/-! ## Reading what was written -/

theorem readVarint32_base128 (x : Word) (r : List Byte) :
    readVarint32 (base128 5 x.toNat ++ r) = some (x, r) := by
  have hlt : x.toNat < 128 ^ 5 := by
    have h := x.isLt
    omega
  rw [readVarint32, readBase128_base128 (by omega) hlt (by omega), Option.map_some,
    BitVec.ofNat_toNat, BitVec.setWidth_eq]

theorem readString_written {s : List Byte} (h : s.length < 2 ^ 31) (r : List Byte) :
    readString (base128 5 (BitVec.ofNat 32 s.length).toNat ++ (s ++ r)) = (s, some r) := by
  have hlen : s.length ≤ (s ++ r).length := by
    rw [List.length_append]
    omega
  have hneg : ¬ ((s.length : Int) < 0) := by omega
  rw [readString, readVarint32_base128]
  show readBytes (BitVec.ofNat 32 s.length) (s ++ r) = _
  rw [readBytes, toInt_ofNat_of_lt h, toNat_ofNat_of_lt h, if_neg hneg, if_pos hlen,
    List.take_left, List.drop_left]

/-- The fields of a message, written one after the other. -/
def writeFields (fields : List (Nat × List Byte)) : List Byte :=
  fields.flatMap fun f => writeString f.1 f.2

@[simp] theorem writeFields_nil : writeFields [] = [] := rfl

@[simp] theorem writeFields_cons (f : Nat × List Byte) (fields : List (Nat × List Byte)) :
    writeFields (f :: fields) = writeString f.1 f.2 ++ writeFields fields := by
  simp [writeFields]

/-- A message that takes in the fields in turn. -/
def setFields {M : Type} (set : Nat → Option (M → List Byte → M)) (m : M)
    (fields : List (Nat × List Byte)) : M :=
  fields.foldl (fun m f => ((set f.1).getD fun m _ => m) m f.2) m

/-- A string field that was written is read back, and the loop goes on behind it. -/
theorem mergeLoop_writeString {M : Type} {set : Nat → Option (M → List Byte → M)}
    {put : M → List Byte → M} {number : Nat} (hset : set number = some put)
    (hpos : 0 < number) (hnum : number < 16) {s : List Byte} (hs : s.length < 2 ^ 31)
    (fuel : Nat) (m : M) (r : List Byte) :
    mergeLoop set (fuel + 1) m (writeString number s ++ r) = mergeLoop set fuel (put m s) r := by
  have htag : readTag (writeString number s ++ r) =
      (makeTag number 2, base128 5 (BitVec.ofNat 32 s.length).toNat ++ (s ++ r)) := by
    rw [readTag, writeString, List.append_assoc, List.append_assoc, readVarint32_base128]
    rfl
  have hnat : (makeTag number 2).toNat = number * 8 + 2 := by
    rw [makeTag, BitVec.toNat_ofNat]
    omega
  have hne : makeTag number 2 ≠ 0 := by
    intro hzero
    have hnil : (0 : Word).toNat = 0 := rfl
    rw [hzero, hnil] at hnat
    omega
  have hfield : fieldNumber (makeTag number 2) = number := by
    rw [fieldNumber, hnat]
    omega
  have hwire : wireType (makeTag number 2) = 2 := by
    rw [wireType, hnat]
    omega
  rw [mergeLoop, htag]
  simp only [hne, if_false, hfield, hset, hwire, readString_written hs]

/-- The loop takes in all the fields that were written, in turn, and ends at the end. -/
theorem mergeLoop_writeFields {M : Type} {set : Nat → Option (M → List Byte → M)}
    {fields : List (Nat × List Byte)}
    (hset : ∀ f ∈ fields, (set f.1).isSome = true ∧ 0 < f.1 ∧ f.1 < 16 ∧ f.2.length < 2 ^ 31)
    {fuel : Nat} (hfuel : fields.length < fuel) (m : M) :
    mergeLoop set fuel m (writeFields fields) =
      { ok := true, atEnd := true, msg := setFields set m fields } := by
  induction fields generalizing fuel m with
  | nil =>
      obtain ⟨fuel, rfl⟩ : ∃ n, fuel = n + 1 := ⟨fuel - 1, by simp at hfuel; omega⟩
      rfl
  | cons f fields ih =>
      obtain ⟨fuel, rfl⟩ : ∃ n, fuel = n + 1 := ⟨fuel - 1, by simp at hfuel; omega⟩
      obtain ⟨hsome, hpos, hnum, hlen⟩ := hset f (by simp)
      obtain ⟨put, hput⟩ := Option.isSome_iff_exists.mp hsome
      rw [writeFields_cons, mergeLoop_writeString hput hpos hnum hlen,
        ih (fun g hg => hset g (List.mem_cons_of_mem f hg)) (by simpa using hfuel)]
      simp only [setFields, List.foldl_cons, hput, Option.getD_some]

end IpcWin.Protobuf
