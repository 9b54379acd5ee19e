/-
  IpcWin.Lib.Varint

  Base-128 numbers: seven bits a byte, least significant first, the high bit set
  on every byte but the last.

  * `base128 w n` writes `n` in at most `w` bytes, as few as it takes.
  * `readBase128 w` reads a number of at most `w` bytes off the front of a list and
    returns what is left; it fails at the end of the list, and when the `w`-th
    byte still has its high bit set.

  The reader takes back what the writer wrote, whatever follows it
  (`readBase128_base128`).
-/

import IpcWin.Lib.LittleEndian

namespace IpcWin.Lib

/-! ## Writing -/

/-- The base-128 digits of `n`, at most `w` of them. -/
def base128 : Nat → Nat → List Byte
  | 0, _ => []
  | w + 1, n =>
      if n < 128 then [BitVec.ofNat 8 n]
      else BitVec.ofNat 8 (n % 128 + 128) :: base128 w (n / 128)

theorem base128_of_lt {n : Nat} (w : Nat) (h : n < 128) :
    base128 (w + 1) n = [BitVec.ofNat 8 n] := by
  rw [base128, if_pos h]

theorem base128_of_ge {n : Nat} (w : Nat) (h : 128 ≤ n) :
    base128 (w + 1) n = BitVec.ofNat 8 (n % 128 + 128) :: base128 w (n / 128) := by
  rw [base128, if_neg (Nat.not_lt.mpr h)]

/-- The number of digits of `n`, if it has at most `w` of them. -/
def base128Length : Nat → Nat → Nat
  | 0, _ => 0
  | w + 1, n => if n < 128 then 1 else 1 + base128Length w (n / 128)

theorem length_base128 (w n : Nat) : (base128 w n).length = base128Length w n := by
  induction w generalizing n with
  | zero => rfl
  | succ w ih =>
      rw [base128Length]
      split_ifs with h
      · rw [base128_of_lt w h]
        rfl
      · rw [base128_of_ge w (Nat.not_lt.mp h), List.length_cons, ih]
        omega

/-! ## Reading -/

/-- A number of at most `w` bytes, and what stands behind it. -/
def readBase128 : Nat → List Byte → Option (Nat × List Byte)
  | 0, _ => none
  | _ + 1, [] => none
  | w + 1, b :: bs =>
      if b.toNat < 128 then some (b.toNat, bs)
      else (readBase128 w bs).map fun q => (b.toNat % 128 + 128 * q.1, q.2)

/-- What was written is read back, by a reader that allows at least as many bytes. -/
theorem readBase128_base128 {w v n : Nat} (hw : w ≤ v) (hn : n < 128 ^ w) (hpos : 0 < w)
    (r : List Byte) : readBase128 v (base128 w n ++ r) = some (n, r) := by
  induction w generalizing v n with
  | zero => exact absurd hpos (Nat.lt_irrefl 0)
  | succ w ih =>
      obtain ⟨v, rfl⟩ : ∃ v', v = v' + 1 := ⟨v - 1, by omega⟩
      by_cases h : n < 128
      · have hbyte : (BitVec.ofNat 8 n).toNat = n := by
          rw [BitVec.toNat_ofNat]
          omega
        rw [base128_of_lt w h, List.singleton_append, readBase128, hbyte, if_pos h]
      · have hbyte : (BitVec.ofNat 8 (n % 128 + 128)).toNat = n % 128 + 128 := by
          rw [BitVec.toNat_ofNat]
          omega
        have hdiv : n / 128 < 128 ^ w := by
          rw [Nat.div_lt_iff_lt_mul (by omega), ← Nat.pow_succ]
          exact hn
        -- a number of one digit would be below 128
        have hpos' : 0 < w := by
          rcases Nat.eq_zero_or_pos w with rfl | hw'
          · simp at hn
            omega
          · exact hw'
        rw [base128_of_ge w (Nat.not_lt.mp h), List.cons_append, readBase128, hbyte,
          if_neg (by omega), ih (by omega) hdiv hpos', Option.map_some]
        have hvalue : (n % 128 + 128) % 128 + 128 * (n / 128) = n := by omega
        rw [hvalue]

end IpcWin.Lib
