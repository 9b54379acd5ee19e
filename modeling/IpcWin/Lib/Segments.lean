/-
  IpcWin.Lib.Segments

  Lists of terminated segments: strings over an alphabet `α`, each followed by
  a terminator `z` that does not occur in it, laid end to end.

  * `terminated z ss` lays the segments `ss` end to end.
  * `takeSegment z l` cuts the first segment off a list; `takeSegments z n l`
    cuts off `n` of them and returns what is left.
  * `dropSegments z n l` is what stands after the `n`-th terminator, whatever
    stands before it.

  The cut is the inverse of the layout (`takeSegments_eq_some_iff`), it succeeds
  exactly when the list holds enough terminators (`takeSegments_isSome_iff`),
  and it never looks past the last terminator it needs (`takeSegments_append`).
-/

import Mathlib.Data.List.Basic
import Mathlib.Data.List.Count

namespace IpcWin.Lib

variable {α β : Type*} [DecidableEq α] {z : α}

/-! ## Layout -/

/-- The segments `ss` laid end to end, each followed by the terminator. -/
def terminated (z : α) (ss : List (List α)) : List α := ss.flatMap (· ++ [z])

omit [DecidableEq α] in
@[simp] theorem terminated_nil : terminated z [] = [] := rfl

omit [DecidableEq α] in
@[simp] theorem terminated_cons (s : List α) (ss : List (List α)) :
    terminated z (s :: ss) = s ++ z :: terminated z ss := by
  simp [terminated]

omit [DecidableEq α] in
theorem terminated_append (ss ss' : List (List α)) :
    terminated z (ss ++ ss') = terminated z ss ++ terminated z ss' := by
  simp [terminated]

/-- The terminators of a layout are those it puts and those inside the segments. -/
theorem count_terminated (ss : List (List α)) :
    (terminated z ss).count z = ss.length + ss.flatten.count z := by
  induction ss with
  | nil => rfl
  | cons s ss ih =>
      simp only [terminated_cons, List.count_append, List.count_cons_self, ih, List.length_cons,
        List.flatten_cons]
      omega

/-! ## One segment -/

/-- What stands before the first terminator; `none` when there is none. -/
def takeSegment (z : α) : List α → Option (List α)
  | [] => none
  | a :: l => if a = z then some [] else (takeSegment z l).map (a :: ·)

@[simp] theorem takeSegment_nil : takeSegment z [] = none := rfl

theorem takeSegment_eq_some_iff {l s : List α} :
    takeSegment z l = some s ↔ z ∉ s ∧ l = s ++ z :: l.drop (s.length + 1) := by
  induction l generalizing s with
  | nil => simp
  | cons a l ih =>
      by_cases h : a = z
      · subst h
        -- the terminator is the first element: only the empty segment stands before it
        cases s with
        | nil => simp [takeSegment]
        | cons b s => simp +contextual [takeSegment, eq_comm]
      · cases s with
        | nil => simp [takeSegment, h]
        | cons b s =>
            simp only [takeSegment, if_neg h, Option.map_eq_some_iff, List.cons.injEq]
            constructor
            · rintro ⟨s', hs', rfl, rfl⟩
              obtain ⟨hz, hl⟩ := ih.mp hs'
              refine ⟨by simp [hz, Ne.symm h], ?_⟩
              simpa using hl
            · rintro ⟨hz, hl⟩
              simp only [List.mem_cons, not_or] at hz
              simp only [List.cons_append, List.length_cons, List.drop_succ_cons,
                List.cons.injEq] at hl
              exact ⟨s, ih.mpr ⟨hz.2, hl.2⟩, hl.1, rfl⟩

theorem takeSegment_eq_none_iff {l : List α} : takeSegment z l = none ↔ z ∉ l := by
  induction l with
  | nil => simp
  | cons a l ih =>
      by_cases h : a = z
      · simp [takeSegment, h]
      · simp [takeSegment, h, ih, Ne.symm h]

/-- A segment is cut off the same whatever follows its terminator. -/
theorem takeSegment_append {s : List α} (hs : z ∉ s) (r : List α) :
    takeSegment z (s ++ z :: r) = some s := by
  rw [takeSegment_eq_some_iff]
  exact ⟨hs, by simp⟩

/-! ## A counted run of segments -/

/-- Cut `n` segments off the front; the second component is what is left. -/
def takeSegments (z : α) : Nat → List α → Option (List (List α) × List α)
  | 0, l => some ([], l)
  | n + 1, l =>
      (takeSegment z l).bind fun s =>
        (takeSegments z n (l.drop (s.length + 1))).map fun q => (s :: q.1, q.2)

@[simp] theorem takeSegments_zero (l : List α) : takeSegments z 0 l = some ([], l) := rfl

/-- The cut inverts the layout of terminator-free segments. -/
theorem takeSegments_eq_some_iff {n : Nat} {l r : List α} {ss : List (List α)} :
    takeSegments z n l = some (ss, r) ↔
      ss.length = n ∧ (∀ s ∈ ss, z ∉ s) ∧ l = terminated z ss ++ r := by
  induction n generalizing l ss with
  | zero =>
      constructor
      · intro h
        simp only [takeSegments_zero, Option.some.injEq, Prod.mk.injEq] at h
        obtain ⟨rfl, rfl⟩ := h
        simp
      · rintro ⟨hlen, -, rfl⟩
        obtain rfl := List.length_eq_zero_iff.mp hlen
        simp
  | succ n ih =>
      simp only [takeSegments, Option.bind_eq_some_iff, Option.map_eq_some_iff, Prod.mk.injEq,
        Prod.exists]
      constructor
      · rintro ⟨s, hs, ss', r', hss, rfl, rfl⟩
        obtain ⟨hz, hl⟩ := takeSegment_eq_some_iff.mp hs
        -- what is left behind the first segment is the layout of the others
        obtain ⟨hlen, hzs, hdrop⟩ := ih.mp hss
        refine ⟨by simp [hlen], by simpa [hz] using hzs, ?_⟩
        rw [terminated_cons, List.append_assoc, List.cons_append, ← hdrop]
        exact hl
      · rintro ⟨hlen, hzs, rfl⟩
        cases ss with
        | nil => simp at hlen
        | cons s ss' =>
            simp only [List.length_cons, Nat.add_right_cancel_iff] at hlen
            simp only [List.mem_cons, forall_eq_or_imp] at hzs
            refine ⟨s, ?_, ss', r, ?_, rfl, rfl⟩
            · rw [terminated_cons, List.append_assoc, List.cons_append]
              exact takeSegment_append hzs.1 _
            · rw [ih]
              exact ⟨hlen, hzs.2, by simp⟩

/-- A run of terminator-free segments is cut off the same whatever follows it. -/
theorem takeSegments_append {ss : List (List α)} (hss : ∀ s ∈ ss, z ∉ s) (r : List α) :
    takeSegments z ss.length (terminated z ss ++ r) = some (ss, r) :=
  takeSegments_eq_some_iff.mpr ⟨rfl, hss, rfl⟩

/-- `n` segments can be cut off exactly when there are `n` terminators. -/
theorem takeSegments_isSome_iff {n : Nat} {l : List α} :
    (takeSegments z n l).isSome ↔ n ≤ l.count z := by
  induction n generalizing l with
  | zero => simp
  | succ n ih =>
      cases h : takeSegment z l with
      | none =>
          have hz := takeSegment_eq_none_iff.mp h
          simp [takeSegments, h, List.count_eq_zero_of_not_mem hz]
      | some s =>
          obtain ⟨hz, hl⟩ := takeSegment_eq_some_iff.mp h
          -- the first segment takes exactly one terminator with it
          have hcount : l.count z = (l.drop (s.length + 1)).count z + 1 := by
            conv_lhs => rw [hl]
            simp [List.count_append, List.count_eq_zero_of_not_mem hz]
          simp only [takeSegments, h, Option.bind_some, Option.isSome_map, ih, hcount]
          omega

/-- Equally many segments with the same layout are the same segments when those
    on one side hold no terminator. -/
theorem terminated_inj {ss ss' : List (List α)} (hss : ∀ s ∈ ss, z ∉ s)
    (hlen : ss.length = ss'.length) (h : terminated z ss = terminated z ss') : ss = ss' := by
  have hzero : ss.flatten.count z = 0 := by
    rw [List.count_eq_zero, List.mem_flatten]
    rintro ⟨s, hs, hz⟩
    exact hss s hs hz
  -- both layouts have as many terminators as segments, so the other side holds none either
  have hcount := congrArg (List.count z) h
  rw [count_terminated, count_terminated, hzero, hlen] at hcount
  have hss' : ∀ s ∈ ss', z ∉ s := by
    have hzero' : ss'.flatten.count z = 0 := by omega
    rw [List.count_eq_zero] at hzero'
    exact fun s hs hz => hzero' (List.mem_flatten.mpr ⟨s, hs, hz⟩)
  have hcut := takeSegments_append hss []
  rw [h, hlen, takeSegments_append hss' []] at hcut
  simpa using hcut.symm

/-- What stands after the `n`-th terminator; nothing when there are fewer. -/
def dropSegments (z : α) : Nat → List α → List α
  | 0, l => l
  | _ + 1, [] => []
  | n + 1, a :: l => if a = z then dropSegments z n l else dropSegments z (n + 1) l

@[simp] theorem dropSegments_zero (l : List α) : dropSegments z 0 l = l := by
  cases l <;> rfl

theorem dropSegments_succ_append {s : List α} (hs : z ∉ s) (n : Nat) (r : List α) :
    dropSegments z (n + 1) (s ++ z :: r) = dropSegments z n r := by
  induction s with
  | nil => simp [dropSegments]
  | cons a s ih =>
      simp only [List.mem_cons, not_or] at hs
      rw [List.cons_append, dropSegments, if_neg (Ne.symm hs.1), ih hs.2]

theorem dropSegments_of_takeSegments {n : Nat} {l r : List α} {ss : List (List α)}
    (h : takeSegments z n l = some (ss, r)) : dropSegments z n l = r := by
  obtain ⟨hlen, hss, rfl⟩ := takeSegments_eq_some_iff.mp h
  -- `l` is the layout now, so the induction is on the segments
  clear h
  induction ss generalizing n with
  | nil =>
      obtain rfl : n = 0 := by simpa using hlen.symm
      simp
  | cons s ss ih =>
      obtain rfl : n = ss.length + 1 := by simpa using hlen.symm
      simp only [List.mem_cons, forall_eq_or_imp] at hss
      rw [terminated_cons, List.append_assoc, List.cons_append,
        dropSegments_succ_append hss.1]
      exact ih rfl hss.2

theorem dropSegments_length_le (z : α) (n : Nat) (l : List α) :
    (dropSegments z n l).length ≤ l.length := by
  induction l generalizing n with
  | nil => cases n <;> simp [dropSegments]
  | cons a l ih =>
      cases n with
      | zero => simp
      | succ n =>
          rw [dropSegments, List.length_cons]
          -- behind this element one terminator fewer is wanted, or as many
          have hlast := ih n
          have hmore := ih (n + 1)
          split_ifs <;> omega

/-- A first segment that is cut off in front of a terminator leaves what stands behind
    that terminator. -/
theorem takeSegment_append_suffix (p r : List α) :
    ∃ s, takeSegment z (p ++ z :: r) = some s ∧ r <:+ (p ++ z :: r).drop (s.length + 1) := by
  induction p with
  | nil => exact ⟨[], by simp [takeSegment], by simp⟩
  | cons a p ih =>
      by_cases h : a = z
      · refine ⟨[], by simp [takeSegment, h], ?_⟩
        rw [List.length_nil, Nat.zero_add, List.cons_append, List.drop_succ_cons, List.drop_zero]
        exact ⟨p ++ [z], by simp⟩
      · obtain ⟨s, hs, hsuffix⟩ := ih
        refine ⟨a :: s, by simp [takeSegment, h, hs], ?_⟩
        rw [List.cons_append, List.length_cons, List.drop_succ_cons]
        exact hsuffix

/-- As many segments as were laid out can be cut off whatever their elements are, and
    no more than the layout is used up. -/
theorem takeSegments_terminated_suffix (ss : List (List α)) (p r : List α) :
    ∃ q r', takeSegments z ss.length (p ++ (terminated z ss ++ r)) = some (q, r') ∧
      r <:+ r' := by
  induction ss generalizing p with
  | nil => exact ⟨[], _, rfl, List.suffix_append p r⟩
  | cons s ss ih =>
      have hsplit : p ++ (terminated z (s :: ss) ++ r) =
          (p ++ s) ++ z :: (terminated z ss ++ r) := by
        simp
      obtain ⟨s₀, hs₀, hsuffix⟩ :=
        takeSegment_append_suffix (z := z) (p ++ s) (terminated z ss ++ r)
      -- what is left is the layout of the others behind some piece of the first
      obtain ⟨p', hp'⟩ := hsuffix
      obtain ⟨q, r', hq, hr'⟩ := ih p'
      refine ⟨s₀ :: q, r', ?_, hr'⟩
      rw [hsplit, List.length_cons]
      simp only [takeSegments, hs₀, Option.bind_some, ← hp', hq, Option.map_some]

/-- Two counted runs one after the other are one run of both counts. -/
theorem takeSegments_add (m n : Nat) (l : List α) :
    takeSegments z (m + n) l =
      (takeSegments z m l).bind fun q =>
        (takeSegments z n q.2).map fun q' => (q.1 ++ q'.1, q'.2) := by
  induction m generalizing l with
  | zero => simp
  | succ m ih =>
      rw [Nat.succ_add]
      simp only [takeSegments, ih]
      cases takeSegment z l with
      | none => rfl
      | some s =>
          simp only [Option.bind_some]
          cases takeSegments z m (l.drop (s.length + 1)) with
          | none => rfl
          | some q => simp [Option.map_map, Function.comp_def]

end IpcWin.Lib
