/-
  IpcWin.Lib.Tables

  Tables that are read by lookups which add what they do not find, as the subscript
  of a C++ map does.

  Such a lookup changes the table, but no entry of it: what is added for a key is
  what would have been added for it later (`entry_lookup`).  So a table can be read
  any number of times, and every reading finds what the first would have found
  (`lookup_fst`, `entry_lookups`).
-/

import Mathlib.Logic.Function.Basic

namespace IpcWin.Lib

variable {κ τ : Type*} [DecidableEq κ]

/-- What is stored under some of the keys. -/
abbrev Table (κ τ : Type*) := κ → Option τ

namespace Table

/-- What is stored under a key stays. -/
def insert (t : Table κ τ) (k : κ) (v : τ) : Table κ τ :=
  match t k with
  | some _ => t
  | none => Function.update t k (some v)

/-- What is stored under `k`, or else `new k`, which is stored then. -/
def lookup (new : κ → τ) (t : Table κ τ) (k : κ) : τ × Table κ τ :=
  match t k with
  | some v => (v, t)
  | none => (new k, Function.update t k (some (new k)))

/-- What a lookup finds. -/
def entry (new : κ → τ) (t : Table κ τ) (k : κ) : τ := (t k).getD (new k)

/-- The table after lookups of some keys. -/
def lookups (new : κ → τ) : Table κ τ → List κ → Table κ τ
  | t, [] => t
  | t, k :: ks => lookups new (t.lookup new k).2 ks

section Lookup

variable {new : κ → τ} {t : Table κ τ}

theorem insert_apply (k : κ) (v : τ) (k' : κ) :
    t.insert k v k' = (t k').or (if k' = k then some v else none) := by
  rw [insert]
  cases hk : t k with
  | some w =>
      by_cases heq : k' = k
      · rw [heq, hk, Option.some_or]
        exact hk
      · rw [if_neg heq, Option.or_none]
  | none =>
      by_cases heq : k' = k
      · rw [heq, hk, if_pos rfl]
        exact Function.update_self _ _ _
      · rw [if_neg heq, Option.or_none]
        exact Function.update_of_ne heq _ _

theorem lookup_fst (k : κ) : (t.lookup new k).1 = t.entry new k := by
  rw [lookup, entry]
  cases t k with
  | none => rfl
  | some v => rfl

/-- A lookup leaves every entry as it was. -/
theorem entry_lookup (k : κ) : (t.lookup new k).2.entry new = t.entry new := by
  funext k'
  simp only [entry, lookup]
  cases hk : t k with
  | some v => rfl
  | none =>
      by_cases heq : k' = k
      · simp only [heq, Function.update_self, hk, Option.getD_some, Option.getD_none]
      · simp only [Function.update_of_ne heq]

theorem entry_lookups (ks : List κ) : (t.lookups new ks).entry new = t.entry new := by
  induction ks generalizing t with
  | nil => rfl
  | cons k ks ih => rw [lookups, ih, entry_lookup]

end Lookup

end Table

end IpcWin.Lib
