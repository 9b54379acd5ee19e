/-
  IpcWin.Lib.Arguments

  Programs that go through their arguments once, from the first to the last, and
  look at each of them together with the one behind it.

  * `scan visit s as` is the loop; `visit` may fail.
  * `values x as` lists what stands behind the occurrences of `x`.

  What a scan does to one part of its state is what `visit` does to it: a part that
  every `x` sets to what stands behind it ends up with the last of these values
  (`scan_value`), one that every `x` switches on is on if there was one
  (`scan_flag`).  A visit that fails for want of an argument behind can only do so
  at the last one (`scan_isSome`).
-/

import Mathlib.Data.List.Basic

namespace IpcWin.Lib

variable {σ α τ : Type*}

/-- Every argument is visited in turn, together with the one behind it. -/
def scan (visit : σ → α → Option α → Option σ) : σ → List α → Option σ
  | s, [] => some s
  | s, a :: as => (visit s a as.head?).bind fun s => scan visit s as

/-- What stands behind the occurrences of `x`. -/
def values [DecidableEq α] (x : α) : List α → List α
  | [] => []
  | a :: as => if a = x then as.head?.toList ++ values x as else values x as

section Scan

variable {visit : σ → α → Option α → Option σ} {s s' : σ} {as : List α}

theorem scan_cons {a : α} (h : scan visit s (a :: as) = some s') :
    ∃ t, visit s a as.head? = some t ∧ scan visit t as = some s' :=
  Option.bind_eq_some_iff.mp h

/-- A part of the state that every `x` sets to a function of what stands behind it. -/
theorem scan_value [DecidableEq α] {x : α} {f : σ → τ} {g : α → τ}
    (hvisit : ∀ s a next s', visit s a next = some s' →
      f s' = if a = x then (next.map g).getD (f s) else f s)
    (h : scan visit s as = some s') : f s' = ((values x as).getLast?.map g).getD (f s) := by
  induction as generalizing s with
  | nil =>
      cases h
      rfl
  | cons a as ih =>
      obtain ⟨t, ht, hrest⟩ := scan_cons h
      rw [ih hrest, hvisit s a as.head? t ht, values]
      split_ifs with hx
      · -- a later value counts, and this one if there is none
        cases as.head? with
        | none => rfl
        | some b =>
            rw [Option.toList_some, List.singleton_append, List.getLast?_cons]
            cases (values x as).getLast? with
            | none => rfl
            | some v => rfl
      · rfl

/-- A part of the state that every `x` switches on. -/
theorem scan_flag {x : α} {f : σ → Bool}
    (hvisit : ∀ s a next s', visit s a next = some s' → (f s' = true ↔ f s = true ∨ a = x))
    (h : scan visit s as = some s') : f s' = true ↔ f s = true ∨ x ∈ as := by
  induction as generalizing s with
  | nil =>
      cases h
      simp
  | cons a as ih =>
      obtain ⟨t, ht, hrest⟩ := scan_cons h
      rw [ih hrest, hvisit s a as.head? t ht, List.mem_cons, eq_comm (a := a), or_assoc]

/-- A scan whose visits fail only for want of an argument behind. -/
theorem scan_isSome {needs : α → Prop}
    (hvisit : ∀ s a next, (visit s a next).isSome = true ↔ needs a → next ≠ none) (s : σ)
    (as : List α) :
    (scan visit s as).isSome = true ↔ ∀ a, as.getLast? = some a → ¬ needs a := by
  induction as generalizing s with
  | nil => simp [scan]
  | cons a as ih =>
      rw [scan, Option.isSome_bind]
      cases hv : visit s a as.head? with
      | none =>
          -- the visit has failed, so nothing stands behind
          have hnot := hvisit s a as.head?
          rw [hv] at hnot
          simp only [Option.isSome_none, Bool.false_eq_true, false_iff, Classical.not_imp,
            ne_eq, not_not, List.head?_eq_none_iff] at hnot
          obtain ⟨hneeds, rfl⟩ := hnot
          simp [hneeds]
      | some t =>
          have hyes := (hvisit s a as.head?).mp (by rw [hv]; rfl)
          simp only [Option.any_some, ih t]
          cases as with
          | nil => simpa using hyes
          | cons b as => simp only [List.getLast?_cons_cons]

end Scan

end IpcWin.Lib
