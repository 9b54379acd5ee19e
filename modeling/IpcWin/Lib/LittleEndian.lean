/-
  IpcWin.Lib.LittleEndian

  Little-endian byte strings: the encoder of a natural into a fixed number of
  bytes, its decoder, and the fixed-width words both are used at.

  * `leBytes w n` / `leNat` are inverse up to `256 ^ w`.
  * `wordBytes` / `bytesWord` are the same maps at a `BitVec` of `8 * w` bits.

  Nothing here depends on what the words mean; the records of a wire format
  instantiate the width.
-/

import Mathlib.Data.List.Basic
import Mathlib.Tactic.Ring

namespace IpcWin.Lib

/-- One octet of memory or of a byte stream. -/
abbrev Byte := BitVec 8

/-! ## Naturals -/

/-- The `w` little-endian bytes of `n`; what lies above `256 ^ w` is dropped. -/
def leBytes : Nat → Nat → List Byte
  | 0, _ => []
  | w + 1, n => BitVec.ofNat 8 n :: leBytes w (n / 256)

/-- Little-endian interpretation: the first byte is least significant. -/
def leNat : List Byte → Nat
  | [] => 0
  | b :: bs => b.toNat + 256 * leNat bs

@[simp] theorem leBytes_zero (n : Nat) : leBytes 0 n = [] := rfl

@[simp] theorem leNat_nil : leNat [] = 0 := rfl

@[simp] theorem leNat_cons (b : Byte) (bs : List Byte) :
    leNat (b :: bs) = b.toNat + 256 * leNat bs := rfl

@[simp] theorem leBytes_length (w n : Nat) : (leBytes w n).length = w := by
  induction w generalizing n with
  | zero => rfl
  | succ w ih => simp only [leBytes, List.length_cons, ih]

theorem leNat_leBytes (w n : Nat) : leNat (leBytes w n) = n % 256 ^ w := by
  induction w generalizing n with
  | zero => simp [Nat.mod_one]
  | succ w ih =>
      simp only [leBytes, leNat_cons, ih, BitVec.toNat_ofNat]
      -- the low byte, and 256 times what the rest of the digits say
      change n % 256 + 256 * (n / 256 % 256 ^ w) = n % 256 ^ (w + 1)
      rw [Nat.pow_succ, Nat.mul_comm (256 ^ w) 256, Nat.mod_mul]

theorem leNat_lt (bs : List Byte) : leNat bs < 256 ^ bs.length := by
  induction bs with
  | nil => simp
  | cons b bs ih =>
      have hb : b.toNat < 256 := b.isLt
      simp only [leNat_cons, List.length_cons, Nat.pow_succ]
      omega

theorem leBytes_leNat (bs : List Byte) : leBytes bs.length (leNat bs) = bs := by
  induction bs with
  | nil => rfl
  | cons b bs ih =>
      have hb : b.toNat < 256 := b.isLt
      have hdiv : (b.toNat + 256 * leNat bs) / 256 = leNat bs := by omega
      have hmod : BitVec.ofNat 8 (b.toNat + 256 * leNat bs) = b := by
        apply BitVec.eq_of_toNat_eq
        simp only [BitVec.toNat_ofNat]
        omega
      simp only [List.length_cons, leNat_cons, leBytes, hdiv, hmod, ih]

/-! ## Words -/

variable {w : Nat}

/-- The bytes of a machine word as they lie in little-endian memory. -/
def wordBytes (w : Nat) (x : BitVec (8 * w)) : List Byte := leBytes w x.toNat

/-- The machine word that the bytes of a little-endian memory hold. -/
def bytesWord (w : Nat) (bs : List Byte) : BitVec (8 * w) := BitVec.ofNat (8 * w) (leNat bs)

@[simp] theorem wordBytes_length (x : BitVec (8 * w)) : (wordBytes w x).length = w :=
  leBytes_length w x.toNat

@[simp] theorem bytesWord_wordBytes (x : BitVec (8 * w)) :
    bytesWord w (wordBytes w x) = x := by
  apply BitVec.eq_of_toNat_eq
  have hx : x.toNat < 256 ^ w := by
    have h := x.isLt
    rwa [Nat.pow_mul] at h
  rw [bytesWord, wordBytes, leNat_leBytes, Nat.mod_eq_of_lt hx, BitVec.ofNat_toNat,
    BitVec.setWidth_eq]

theorem wordBytes_bytesWord {bs : List Byte} (h : bs.length = w) :
    wordBytes w (bytesWord w bs) = bs := by
  subst h
  have hlt : leNat bs < 2 ^ (8 * bs.length) := by
    have h := leNat_lt bs
    rwa [Nat.pow_mul]
  rw [wordBytes, bytesWord, BitVec.toNat_ofNat, Nat.mod_eq_of_lt hlt, leBytes_leNat]

theorem wordBytes_injective : Function.Injective (wordBytes w) := by
  intro x y h
  rw [← bytesWord_wordBytes x, h, bytesWord_wordBytes]

end IpcWin.Lib
