/-
  IpcWin.Protobuf.Messages

  The generated messages `request` and `response` (`entities/Messages.pb.h`,
  `entities/Messages.pb.cc`), and what their users rely on.

  `Codec` is what `NativeClient.cpp` and `NativeServer.cpp` call of a message
  class, and `Codec.Restores` the one thing they rely on: a message that was
  serialised is parsed back.  `requestCodec` and `responseCodec` are the generated
  code, which does that (`requestCodec_restores`, `responseCodec_restores`).  The limit
  of the runtime on the length of an array, above which it returns `false`, is not
  part of them; `Accepts` states it where the Boolean matters.
-/

import IpcWin.Protobuf.CodedStream

namespace IpcWin.Protobuf

open IpcWin.Lib IpcWin.Wire

/-! ## The messages -/

/-- `reqresp::request`; `name` is `none` until it is set. -/
structure Request where
  name : Option (List Byte)
  ids : List (List Byte)
  types : List (List Byte)
deriving DecidableEq, Repr

/-- A newly constructed request. -/
def Request.new : Request := { name := none, ids := [], types := [] }

def Request.setName (r : Request) (s : List Byte) : Request := { r with name := some s }

def Request.addIds (r : Request) (s : List Byte) : Request := { r with ids := r.ids ++ [s] }

def Request.addTypes (r : Request) (s : List Byte) : Request := { r with types := r.types ++ [s] }

/-- `reqresp::response`. -/
structure Response where
  data : List (List Byte)
deriving DecidableEq, Repr

/-- A newly constructed response. -/
def Response.new : Response := { data := [] }

def Response.addData (r : Response) (s : List Byte) : Response := { r with data := r.data ++ [s] }

/-! ## What their users call -/

/-- The calls of a message class: `ByteSize`, `SerializeToArray` with that size, and
    `ParseFromArray` into a new message. -/
structure Codec (M : Type) where
  byteSize : M → Word
  serialize : M → List Byte
  parseFromArray : List Byte → Bool × M

/-- A bound for what strings take on the wire: a tag of a byte and a length of up to
    five beside their bytes.  A `std::string` in memory takes more. -/
def stringsWeight : List (List Byte) → Nat
  | [] => 0
  | s :: ss => s.length + 6 + stringsWeight ss

def Request.weight (r : Request) : Nat :=
  stringsWeight r.name.toList + stringsWeight r.ids + stringsWeight r.types

def Response.weight (r : Response) : Nat := stringsWeight r.data

/-- A complete message that is in memory, where nothing is longer than an `int`, is
    serialised to as many bytes as `ByteSize` says, and is parsed back. -/
structure Codec.Restores {M : Type} (pb : Codec M) (isInitialized : M → Bool)
    (weight : M → Nat) : Prop where
  fits : ∀ m, isInitialized m = true → weight m < 2 ^ 31 → (pb.serialize m).length < 2 ^ 31
  byteSize : ∀ m, isInitialized m = true → weight m < 2 ^ 31 →
    pb.byteSize m = BitVec.ofNat 32 (pb.serialize m).length
  parse : ∀ m, isInitialized m = true → weight m < 2 ^ 31 →
    pb.parseFromArray (pb.serialize m) = (true, m)

/-! ## The generated code -/

/-- `ParseFromArray`: the message is parsed, is complete, and is all there was.  From an
    array above `kDefaultTotalBytesLimit` (64 MB) the runtime parses the same message, but
    returns `false`.  That limit is left out here: no caller in the two programs looks at
    what is returned. -/
def parseFromArray {M : Type} (set : Nat → Option (M → List Byte → M)) (new : M)
    (isInitialized : M → Bool) (bs : List Byte) : Bool × M :=
  let q := mergeLoop set (bs.length + 1) new bs
  (q.ok && isInitialized q.msg && q.atEnd, q.msg)

/-- The size loop of a repeated string field, its tags included. -/
def repeatedSize (ss : List (List Byte)) (total : Word) : Word :=
  ss.foldl (fun total s => total + stringSize s) (total + BitVec.ofNat 32 ss.length)

namespace Request

/-- The fields of `request::MergePartialFromCodedStream`. -/
def set : Nat → Option (Request → List Byte → Request)
  | 1 => some setName
  | 2 => some addIds
  | 3 => some addTypes
  | _ => none

/-- `request::IsInitialized`: the name has been set. -/
def isInitialized (r : Request) : Bool := r.name.isSome

/-- `request::ByteSize`. -/
def byteSize (r : Request) : Word :=
  let total := match r.name with
    | some name => 0 + (1 + stringSize name)
    | none => 0
  repeatedSize r.types (repeatedSize r.ids total)

/-- The fields in the order in which they are serialised. -/
def fields (r : Request) : List (Nat × List Byte) :=
  (r.name.map fun name => (1, name)).toList ++ r.ids.map (fun s => (2, s)) ++
    r.types.map fun s => (3, s)

end Request

namespace Response

/-- The field of `response::MergePartialFromCodedStream`. -/
def set : Nat → Option (Response → List Byte → Response)
  | 1 => some addData
  | _ => none

/-- `response::IsInitialized`. -/
def isInitialized (_ : Response) : Bool := true

/-- `response::ByteSize`. -/
def byteSize (r : Response) : Word := repeatedSize r.data 0

/-- The fields in the order in which they are serialised. -/
def fields (r : Response) : List (Nat × List Byte) := r.data.map fun s => (1, s)

end Response

/-- The generated `request`. -/
def requestCodec : Codec Request where
  byteSize := Request.byteSize
  serialize r := writeFields r.fields
  parseFromArray := parseFromArray Request.set .new Request.isInitialized

/-- The generated `response`. -/
def responseCodec : Codec Response where
  byteSize := Response.byteSize
  serialize r := writeFields r.fields
  parseFromArray := parseFromArray Response.set .new Response.isInitialized

/-! ## What was serialised is parsed back -/

/-- Each field takes more bytes than its string. -/
theorem length_lt_writeFields {fields : List (Nat × List Byte)} {f : Nat × List Byte}
    (h : f ∈ fields) : f.2.length < (writeFields fields).length := by
  induction fields with
  | nil => cases h
  | cons g fields ih =>
      rw [writeFields_cons, List.length_append]
      rcases List.mem_cons.mp h with rfl | hmem
      · have htag := length_base128 5 (makeTag f.1 2).toNat
        have hpos : 0 < (base128 5 (makeTag f.1 2).toNat).length := by
          rw [htag, base128Length]
          split_ifs <;> omega
        rw [writeString, List.length_append, List.length_append]
        omega
      · have hlt := ih hmem
        omega

theorem length_le_writeFields (fields : List (Nat × List Byte)) :
    fields.length ≤ (writeFields fields).length := by
  induction fields with
  | nil => exact Nat.le_refl 0
  | cons f fields ih =>
      have hlt : f.2.length < (writeString f.1 f.2).length := by
        have h := length_lt_writeFields (List.mem_singleton_self f)
        simpa using h
      rw [writeFields_cons, List.length_append, List.length_cons]
      omega

/-- A message is parsed back if taking in its fields makes it out of a new one. -/
theorem parseFromArray_writeFields {M : Type} {set : Nat → Option (M → List Byte → M)} {new m : M}
    {isInitialized : M → Bool} {fields : List (Nat × List Byte)}
    (hset : ∀ f ∈ fields, (set f.1).isSome = true ∧ 0 < f.1 ∧ f.1 < 16)
    (hmsg : setFields set new fields = m) (hinit : isInitialized m = true)
    (hlen : (writeFields fields).length < 2 ^ 31) :
    parseFromArray set new isInitialized (writeFields fields) = (true, m) := by
  have hfields : ∀ f ∈ fields,
      (set f.1).isSome = true ∧ 0 < f.1 ∧ f.1 < 16 ∧ f.2.length < 2 ^ 31 := by
    intro f hf
    obtain ⟨hsome, hpos, hnum⟩ := hset f hf
    exact ⟨hsome, hpos, hnum, (length_lt_writeFields hf).trans hlen⟩
  have hfuel : fields.length < (writeFields fields).length + 1 :=
    Nat.lt_succ_of_le (length_le_writeFields fields)
  rw [parseFromArray, mergeLoop_writeFields hfields hfuel, hmsg]
  simp only [hinit, Bool.and_true]

theorem setFields_append {M : Type} (set : Nat → Option (M → List Byte → M)) (m : M)
    (fs gs : List (Nat × List Byte)) :
    setFields set m (fs ++ gs) = setFields set (setFields set m fs) gs :=
  List.foldl_append

/-- A repeated field is appended to, string by string. -/
theorem Request.setFields_ids (r : Request) (ss : List (List Byte)) :
    setFields Request.set r (ss.map fun s => (2, s)) = { r with ids := r.ids ++ ss } := by
  induction ss generalizing r with
  | nil => simp [setFields]
  | cons s ss ih =>
      show setFields Request.set (r.addIds s) (ss.map fun s => (2, s)) = _
      rw [ih]
      simp [addIds]

theorem Request.setFields_types (r : Request) (ss : List (List Byte)) :
    setFields Request.set r (ss.map fun s => (3, s)) = { r with types := r.types ++ ss } := by
  induction ss generalizing r with
  | nil => simp [setFields]
  | cons s ss ih =>
      show setFields Request.set (r.addTypes s) (ss.map fun s => (3, s)) = _
      rw [ih]
      simp [addTypes]

theorem Response.setFields_data (r : Response) (ss : List (List Byte)) :
    setFields Response.set r (ss.map fun s => (1, s)) = { r with data := r.data ++ ss } := by
  induction ss generalizing r with
  | nil => simp [setFields]
  | cons s ss ih =>
      show setFields Response.set (r.addData s) (ss.map fun s => (1, s)) = _
      rw [ih]
      simp [addData]

theorem Request.setFields_fields (r : Request) : setFields Request.set .new r.fields = r := by
  rw [fields, setFields_append, setFields_append, setFields_types, setFields_ids]
  cases r with
  | mk name ids types => cases name <;> simp [setFields, Request.set, setName, new]

theorem Response.setFields_fields (r : Response) : setFields Response.set .new r.fields = r := by
  rw [fields, setFields_data]
  rfl

/-! ## The size is the number of bytes -/

/-- One tag byte and the string, for each string of a repeated field. -/
theorem repeatedSize_eq (number : Nat) (h : number < 16) (ss : List (List Byte)) (total : Word) :
    repeatedSize ss total =
      total + BitVec.ofNat 32 (writeFields (ss.map fun s => (number, s))).length := by
  induction ss generalizing total with
  | nil => simp [repeatedSize]
  | cons s ss ih =>
      have hstep : repeatedSize (s :: ss) total = repeatedSize ss (total + (1 + stringSize s)) := by
        simp only [repeatedSize, List.foldl_cons, List.length_cons]
        congr 1
        rw [BitVec.ofNat_add]
        show total + (BitVec.ofNat 32 ss.length + 1#32) + stringSize s =
          total + (1#32 + stringSize s) + BitVec.ofNat 32 ss.length
        ac_rfl
      rw [hstep, ih, List.map_cons, writeFields_cons, List.length_append, BitVec.ofNat_add,
        length_writeString h, BitVec.add_assoc]

theorem writeFields_append (fs gs : List (Nat × List Byte)) :
    writeFields (fs ++ gs) = writeFields fs ++ writeFields gs := by
  simp [writeFields]

theorem Request.byteSize_eq (r : Request) :
    r.byteSize = BitVec.ofNat 32 (writeFields r.fields).length := by
  have hname : (match r.name with
      | some name => 0 + (1 + stringSize name)
      | none => 0 : Word) =
      BitVec.ofNat 32 (writeFields (r.name.map fun name => (1, name)).toList).length := by
    cases r.name with
    | none => rfl
    | some name =>
        rw [Option.map_some, Option.toList_some, writeFields_cons, writeFields_nil,
          List.append_nil, length_writeString (by omega)]
        exact BitVec.zero_add _
  rw [byteSize, repeatedSize_eq 3 (by omega), repeatedSize_eq 2 (by omega), hname, fields,
    writeFields_append, writeFields_append, List.length_append, List.length_append,
    BitVec.ofNat_add, BitVec.ofNat_add]

theorem Response.byteSize_eq (r : Response) :
    r.byteSize = BitVec.ofNat 32 (writeFields r.fields).length := by
  rw [byteSize, repeatedSize_eq 1 (by omega), fields]
  exact BitVec.zero_add _

/-! ## The generated code does what is relied on -/

theorem Request.mem_fields {r : Request} {f : Nat × List Byte} (h : f ∈ r.fields) :
    (set f.1).isSome = true ∧ 0 < f.1 ∧ f.1 < 16 := by
  simp only [fields, List.mem_append, Option.mem_toList, Option.map_eq_some_iff, List.mem_map] at h
  rcases h with (⟨s, -, rfl⟩ | ⟨s, -, rfl⟩) | ⟨s, -, rfl⟩
  · exact ⟨rfl, by simp, by simp⟩
  · exact ⟨rfl, by simp, by simp⟩
  · exact ⟨rfl, by simp, by simp⟩

theorem Response.mem_fields {r : Response} {f : Nat × List Byte} (h : f ∈ r.fields) :
    (set f.1).isSome = true ∧ 0 < f.1 ∧ f.1 < 16 := by
  simp only [fields, List.mem_map] at h
  obtain ⟨s, -, rfl⟩ := h
  exact ⟨rfl, by simp, by simp⟩

theorem base128Length_le (w n : Nat) : base128Length w n ≤ w := by
  induction w generalizing n with
  | zero => exact Nat.le_refl 0
  | succ w ih =>
      rw [base128Length]
      have hle := ih (n / 128)
      split_ifs <;> omega

theorem length_writeFields_le {number : Nat} (h : number < 16) (ss : List (List Byte)) :
    (writeFields (ss.map fun s => (number, s))).length ≤ stringsWeight ss := by
  have htag : (makeTag number 2).toNat = number * 8 + 2 := by
    rw [makeTag, BitVec.toNat_ofNat]
    omega
  induction ss with
  | nil => exact Nat.le_refl 0
  | cons s ss ih =>
      have hlen := base128Length_le 5 (BitVec.ofNat 32 s.length).toNat
      rw [List.map_cons, writeFields_cons, List.length_append, stringsWeight, writeString, htag,
        base128_of_lt 4 (by omega), List.length_append, List.length_append, length_base128,
        List.length_singleton]
      dsimp only
      omega

theorem Request.length_writeFields_le (r : Request) :
    (writeFields r.fields).length ≤ r.weight := by
  have hname : r.name.toList.map (fun s => (1, s)) =
      (r.name.map fun name => (1, name)).toList := by
    cases r.name <;> rfl
  have h₁ := Protobuf.length_writeFields_le (show 1 < 16 by omega) r.name.toList
  have h₂ := Protobuf.length_writeFields_le (show 2 < 16 by omega) r.ids
  have h₃ := Protobuf.length_writeFields_le (show 3 < 16 by omega) r.types
  rw [hname] at h₁
  rw [fields, writeFields_append, writeFields_append, List.length_append, List.length_append,
    weight]
  omega

theorem Response.length_writeFields_le (r : Response) :
    (writeFields r.fields).length ≤ r.weight :=
  Protobuf.length_writeFields_le (show 1 < 16 by omega) r.data

/-- The generated request is parsed back.  Above 64 MB that holds of the message alone: the
    runtime returns `false` there. -/
theorem requestCodec_restores : requestCodec.Restores Request.isInitialized Request.weight where
  fits m _ hlt := (m.length_writeFields_le).trans_lt hlt
  byteSize m _ _ := m.byteSize_eq
  parse m hinit hlt :=
    parseFromArray_writeFields (fun _ => Request.mem_fields) m.setFields_fields hinit
      ((m.length_writeFields_le).trans_lt hlt)

/-- The generated response is parsed back.  Above 64 MB that holds of the message alone: the
    runtime returns `false` there. -/
theorem responseCodec_restores : responseCodec.Restores Response.isInitialized Response.weight where
  fits m _ hlt := (m.length_writeFields_le).trans_lt hlt
  byteSize m _ _ := m.byteSize_eq
  parse m hinit hlt :=
    parseFromArray_writeFields (fun _ => Response.mem_fields) m.setFields_fields hinit
      ((m.length_writeFields_le).trans_lt hlt)

end IpcWin.Protobuf
