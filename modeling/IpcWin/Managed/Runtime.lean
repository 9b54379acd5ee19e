/-
  IpcWin.Managed.Runtime

  The library calls that the managed translation functions are made of, with
  the exceptions they throw: `BitConverter.ToInt32`, `Encoding.ASCII`,
  `new byte[n]`, `Array.Copy`, and the scan of a byte array for a NUL.

  A byte array carries the bound on its length that `Array.Length` imposes.
-/

import IpcWin.Lib.Outcome
import IpcWin.Wire.Format

namespace IpcWin.Managed

open IpcWin.Lib IpcWin.Wire

/-- A C# `string`: a sequence of UTF-16 units. -/
abbrev Str := List (BitVec 16)

/-- The exceptions that the library calls throw. -/
inductive Exn where
  | argument
  | argumentOutOfRange
  | indexOutOfRange
  | overflow
deriving DecidableEq, Repr

/-- A C# `byte[]`: its length is an `int`. -/
structure ByteArr where
  bytes : List Byte
  length_lt : bytes.length < 2 ^ 31
deriving DecidableEq, Repr

/-! ## Encoding.ASCII -/

/-- The byte of a UTF-16 unit: itself below 0x80, `'?'` otherwise. -/
def asciiByte (u : BitVec 16) : Byte := if u.toNat < 0x80 then u.truncate 8 else 0x3F

/-- The character of a byte: itself below 0x80, `'?'` otherwise. -/
def asciiChar (b : Byte) : BitVec 16 := if b.toNat < 0x80 then b.zeroExtend 16 else 0x3F

/-- `Encoding.ASCII.GetBytes(s)`. -/
def asciiBytes (s : Str) : List Byte := s.map asciiByte

/-- The characters that `Encoding.ASCII` decodes the bytes to. -/
def asciiString (bs : List Byte) : Str := bs.map asciiChar

@[simp] theorem asciiBytes_length (s : Str) : (asciiBytes s).length = s.length := by
  simp [asciiBytes]

/-- Encoding and decoding a unit keeps it below 0x80 and shows `'?'` otherwise. -/
theorem asciiChar_asciiByte (u : BitVec 16) :
    asciiChar (asciiByte u) = if u.toNat < 0x80 then u else 0x3F := by
  unfold asciiByte
  split
  · rename_i h
    -- below 0x80 truncation and extension undo each other
    have hlow : (u.truncate 8 : Byte).toNat = u.toNat := by
      simp only [BitVec.truncate_eq_setWidth, BitVec.toNat_setWidth]
      omega
    rw [asciiChar, if_pos (by omega)]
    apply BitVec.eq_of_toNat_eq
    rw [BitVec.zeroExtend_eq_setWidth, BitVec.toNat_setWidth, hlow]
    omega
  · decide

/-- Only the unit U+0000 is encoded to a NUL byte. -/
theorem asciiByte_eq_nul_iff (u : BitVec 16) : asciiByte u = nul ↔ u = 0 := by
  unfold asciiByte
  split
  · rename_i h
    constructor
    · intro hu
      have hzero := congrArg BitVec.toNat hu
      simp only [BitVec.truncate_eq_setWidth, BitVec.toNat_setWidth, nul] at hzero
      apply BitVec.eq_of_toNat_eq
      simp only [BitVec.ofNat_eq_ofNat, BitVec.toNat_ofNat] at hzero ⊢
      omega
    · rintro rfl
      rfl
  · rename_i h
    constructor
    · intro hu
      exact absurd hu (by decide)
    · rintro rfl
      exact absurd h (by decide)

theorem nul_notMem_asciiBytes_iff (s : Str) : nul ∉ asciiBytes s ↔ 0 ∉ s := by
  simp [asciiBytes, asciiByte_eq_nul_iff]

/-! ## Reading a byte array -/

/-- `BitConverter.ToInt32(buffer, startIndex)`. -/
def toInt32 (buffer : ByteArr) (startIndex : Nat) : Except Exn Word :=
  if buffer.bytes.length ≤ startIndex then .error .argumentOutOfRange
  else if buffer.bytes.length < startIndex + 4 then .error .argument
  else .ok (bytesInt ((buffer.bytes.drop startIndex).take 4))

/-- `Encoding.ASCII.GetString(buffer, index, count)`. -/
def getString (buffer : ByteArr) (index : Nat) (count : Word) : Except Exn Str :=
  if count.toInt < 0 then .error .argumentOutOfRange
  else if (buffer.bytes.length : Int) - index < count.toInt then .error .argumentOutOfRange
  else .ok (asciiString ((buffer.bytes.drop index).take count.toNat))

/-- `while (true) { if (buffer[next_null] == 0) break; next_null++; }`, run on
    the elements from `nextNull` on. -/
def scanNull : List Byte → Nat → Except Exn Nat
  | [], _ => .error .indexOutOfRange
  | b :: bs, nextNull => if b = 0 then .ok nextNull else scanNull bs (nextNull + 1)

/-- The decoding loop of a string list, run `n` times. -/
def readStrings (buffer : ByteArr) : Nat → List Str → Nat → Except Exn (List Str × Nat)
  | 0, acc, pointer => .ok (acc, pointer)
  | n + 1, acc, pointer => do
      let nextNull ← scanNull (buffer.bytes.drop pointer) pointer
      let s ← getString buffer pointer (BitVec.ofNat 32 (nextNull - pointer))
      readStrings buffer n (acc ++ [s]) (pointer + (nextNull - pointer + 1))

theorem toInt32_of_le {buffer : ByteArr} {startIndex : Nat}
    (h : startIndex + 4 ≤ buffer.bytes.length) :
    toInt32 buffer startIndex = .ok (bytesInt ((buffer.bytes.drop startIndex).take 4)) := by
  rw [toInt32, if_neg (by omega), if_neg (by omega)]

/-- A read that returned stayed within the array. -/
theorem le_of_toInt32 {buffer : ByteArr} {startIndex : Nat} {x : Word}
    (h : toInt32 buffer startIndex = .ok x) : startIndex + 4 ≤ buffer.bytes.length := by
  unfold toInt32 at h
  split_ifs at h
  omega

theorem scanNull_eq (bs : List Byte) (nextNull : Nat) :
    scanNull bs nextNull =
      match takeSegment nul bs with
      | some s => .ok (nextNull + s.length)
      | none => .error .indexOutOfRange := by
  induction bs generalizing nextNull with
  | nil => rfl
  | cons b bs ih =>
      by_cases hb : b = nul
      · subst hb
        simp [scanNull, takeSegment, nul]
      · have hb0 : ¬ b = 0 := hb
        -- not a NUL: the scan goes on one position further
        rw [scanNull, if_neg hb0, ih, takeSegment, if_neg hb]
        cases takeSegment nul bs with
        | none => rfl
        | some s =>
            simp only [Option.map_some, List.length_cons]
            congr 1
            omega

/-- A range that lies in the array is decoded. -/
theorem getString_of_le {buffer : ByteArr} {index n : Nat}
    (h : index + n ≤ buffer.bytes.length) :
    getString buffer index (BitVec.ofNat 32 n) =
      .ok (asciiString ((buffer.bytes.drop index).take n)) := by
  have hn : n < 2 ^ 31 := by
    have := buffer.length_lt
    omega
  rw [getString, toInt_ofNat_of_lt hn, if_neg (by omega), if_neg (by omega), toNat_ofNat_of_lt hn]

/-- The loop decodes the segments that the bytes from the pointer on split into,
    and leaves the pointer behind them. -/
theorem readStrings_eq (buffer : ByteArr) (n : Nat) (acc : List Str) (pointer : Nat)
    (hp : pointer ≤ buffer.bytes.length) :
    readStrings buffer n acc pointer =
      match takeSegments nul n (buffer.bytes.drop pointer) with
      | some (ss, _) => .ok (acc ++ ss.map asciiString, pointer + sectionLength ss)
      | none => .error .indexOutOfRange := by
  induction n generalizing acc pointer with
  | zero => simp [readStrings]
  | succ n ih =>
      rw [readStrings, scanNull_eq, takeSegments]
      cases hs : takeSegment nul (buffer.bytes.drop pointer) with
      | none => rfl
      | some s =>
          obtain ⟨-, hsplit⟩ := takeSegment_eq_some_iff.mp hs
          have hlen := congrArg List.length hsplit
          simp only [List.length_append, List.length_cons, List.length_drop] at hlen
          have hle : pointer + (s.length + 1) ≤ buffer.bytes.length := by omega
          -- `GetString` is asked for exactly the bytes before the NUL
          have htake : (buffer.bytes.drop pointer).take s.length = s := by
            rw [hsplit, List.take_left]
          have hsub : pointer + s.length - pointer = s.length := by omega
          simp only [Option.bind_some, bind, Except.bind, hsub]
          rw [getString_of_le (by omega), htake]
          simp only
          -- the pointer is behind the NUL, where the induction goes on
          rw [ih (acc ++ [asciiString s]) (pointer + (s.length + 1)) hle, List.drop_drop]
          cases takeSegments nul n (buffer.bytes.drop (pointer + (s.length + 1))) with
          | none => rfl
          | some q =>
              simp only [Option.map_some, List.append_assoc, List.singleton_append,
                List.map_cons, sectionLength_cons]
              congr 2
              omega

/-! ## Writing a byte array -/

/-- `new byte[size]`, filled with zeros. -/
def newBytes (size : Word) : Except Exn ByteArr :=
  if h : size.toInt < 0 then .error .overflow
  else .ok {
    bytes := List.replicate size.toNat 0
    length_lt := by
      rw [BitVec.toInt_eq_toNat_cond] at h
      rw [List.length_replicate]
      split at h <;> omega }

/-- `Array.Copy(src, 0, buffer, pointer, src.Length)`. -/
def arrayCopy (src : List Byte) (buffer : ByteArr) (pointer : Nat) : Except Exn ByteArr :=
  if h : pointer + src.length ≤ buffer.bytes.length then
    .ok {
      bytes := buffer.bytes.take pointer ++ src ++ buffer.bytes.drop (pointer + src.length)
      length_lt := by
        have := buffer.length_lt
        simp only [List.length_append, List.length_take, List.length_drop]
        omega }
  else .error .argument

/-- The encoding loop of a string list: the terminator is stepped over, not written. -/
def putStrings : List Str → ByteArr → Nat → Except Exn (ByteArr × Nat)
  | [], buffer, pointer => .ok (buffer, pointer)
  | it :: ss, buffer, pointer => do
      let s := asciiBytes it
      let buffer ← arrayCopy s buffer pointer
      putStrings ss buffer (pointer + (s.length + 1))

/-- An array of `size` bytes: `out` in front and zeros behind it. -/
structure ZeroFilled (buffer : ByteArr) (out : List Byte) (size : Nat) : Prop where
  le : out.length ≤ size
  bytes : buffer.bytes = out ++ List.replicate (size - out.length) nul

theorem newBytes_of_lt {n : Nat} (h : n < 2 ^ 31) :
    ∃ buffer, newBytes (BitVec.ofNat 32 n) = .ok buffer ∧ ZeroFilled buffer [] n := by
  have hneg : ¬ (BitVec.ofNat 32 n).toInt < 0 := by
    rw [toInt_ofNat_of_lt h]
    omega
  refine ⟨_, dif_neg hneg, by simp, ?_⟩
  simp [toNat_ofNat_of_lt h, nul]

/-- A copy behind what has been written extends it. -/
theorem ZeroFilled.arrayCopy {buffer : ByteArr} {out : List Byte} {size : Nat}
    (h : ZeroFilled buffer out size) (src : List Byte) (pointer : Nat)
    (hp : out.length = pointer) (hfit : pointer + src.length ≤ size) :
    ∃ buffer', arrayCopy src buffer pointer = .ok buffer' ∧
      ZeroFilled buffer' (out ++ src) size := by
  subst hp
  have hlen : buffer.bytes.length = size := by
    rw [h.bytes, List.length_append, List.length_replicate]
    have := h.le
    omega
  have hfit' : out.length + src.length ≤ buffer.bytes.length := by omega
  refine ⟨_, dif_pos hfit', by rw [List.length_append]; exact hfit, ?_⟩
  simp only [h.bytes, List.take_left, List.length_append]
  rw [← List.drop_drop, List.drop_left, List.drop_replicate, Nat.sub_sub]

/-- Stepping over a byte that is still zero writes a NUL. -/
theorem ZeroFilled.skip {buffer : ByteArr} {out : List Byte} {size : Nat}
    (h : ZeroFilled buffer out size) (hfit : out.length + 1 ≤ size) :
    ZeroFilled buffer (out ++ [nul]) size := by
  -- at least one of the zeros is left, and it becomes the terminator
  obtain ⟨k, hk⟩ : ∃ k, size - out.length = k + 1 := ⟨size - out.length - 1, by omega⟩
  have hk' : size - (out.length + 1) = k := by omega
  refine ⟨by simpa using hfit, ?_⟩
  rw [h.bytes, hk, List.replicate_succ, List.length_append, List.length_singleton, hk',
    List.append_assoc, List.singleton_append]

/-- The encoding loop lays out the terminated ASCII encodings. -/
theorem ZeroFilled.putStrings {buffer : ByteArr} {out : List Byte} {size : Nat}
    (h : ZeroFilled buffer out size) (ss : List Str) (pointer : Nat)
    (hp : out.length = pointer)
    (hfit : pointer + sectionLength (ss.map asciiBytes) ≤ size) :
    ∃ buffer', putStrings ss buffer pointer =
        .ok (buffer', pointer + sectionLength (ss.map asciiBytes)) ∧
      ZeroFilled buffer' (out ++ terminated nul (ss.map asciiBytes)) size := by
  induction ss generalizing buffer out pointer with
  | nil => exact ⟨buffer, by simp [Managed.putStrings], by simpa using h⟩
  | cons s ss ih =>
      simp only [List.map_cons, sectionLength_cons] at hfit
      obtain ⟨b₁, hb₁, h₁⟩ := h.arrayCopy (asciiBytes s) pointer hp (by omega)
      have h₁' := h₁.skip (by rw [List.length_append]; omega)
      have hlen : (out ++ asciiBytes s ++ [nul]).length =
          pointer + ((asciiBytes s).length + 1) := by
        simp only [List.length_append, List.length_singleton]
        omega
      obtain ⟨b₂, hb₂, h₂⟩ := ih h₁' _ hlen (by omega)
      refine ⟨b₂, ?_, ?_⟩
      · simp only [Managed.putStrings, hb₁, bind, Except.bind, hb₂, List.map_cons,
          sectionLength_cons, Nat.add_assoc]
      · simpa using h₂

end IpcWin.Managed
