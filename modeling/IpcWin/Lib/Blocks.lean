/-
  IpcWin.Lib.Blocks

  A heap as a ledger of live blocks.

  `malloc` adds a block with a number of its own, `free` removes one, and a `free`
  of a block that is not live is recorded (`faulty`).  What the blocks hold is
  left out.

  `Owns base held h` says that the live blocks are those of `base` and those of
  `held`, each listed once.  It is kept by `malloc`, which adds a block to
  `held`, and by a `free` of what is held (`Owns.malloc`, `Owns.free`).
-/

import Mathlib.Data.Finset.Card
import Mathlib.Data.Finset.Dedup

namespace IpcWin.Lib

/-- The live blocks, the number of the next one, and whether a block that was not
    live has been freed. -/
structure Blocks where
  live : Finset Nat
  next : Nat
  faulty : Bool
  fresh : ∀ b ∈ live, b < next

namespace Blocks

def empty : Blocks := { live := ∅, next := 0, faulty := false, fresh := by simp }

/-- `malloc`: the new block is `h.next`. -/
def malloc (h : Blocks) : Blocks :=
  { live := insert h.next h.live
    next := h.next + 1
    faulty := h.faulty
    fresh := by
      intro b hb
      rcases Finset.mem_insert.mp hb with rfl | hb
      · exact Nat.lt_succ_self _
      · exact (h.fresh b hb).trans (Nat.lt_succ_self _) }

/-- `free` of a pointer, which does nothing with `NULL`. -/
def free (h : Blocks) : Option Nat → Blocks
  | none => h
  | some b =>
      { live := h.live.erase b
        next := h.next
        faulty := h.faulty || !decide (b ∈ h.live)
        fresh := fun c hc => h.fresh c (Finset.mem_of_mem_erase hc) }

@[simp] theorem malloc_live (h : Blocks) : h.malloc.live = insert h.next h.live := rfl

@[simp] theorem malloc_next (h : Blocks) : h.malloc.next = h.next + 1 := rfl

@[simp] theorem malloc_faulty (h : Blocks) : h.malloc.faulty = h.faulty := rfl

@[simp] theorem free_none (h : Blocks) : h.free none = h := rfl

@[simp] theorem free_live (h : Blocks) (b : Nat) : (h.free (some b)).live = h.live.erase b := rfl

/-- A new block is none of the live ones. -/
theorem next_not_mem (h : Blocks) : h.next ∉ h.live := fun hmem => Nat.lt_irrefl _ (h.fresh _ hmem)

theorem card_malloc (h : Blocks) : h.malloc.live.card = h.live.card + 1 :=
  Finset.card_insert_of_notMem h.next_not_mem

end Blocks

/-! ## Blocks that are held -/

/-- The live blocks are those of `base`, and those of `held` beside them, and none
    was ever freed that was not live. -/
structure Owns (base : Finset Nat) (held : List Nat) (h : Blocks) : Prop where
  sound : h.faulty = false
  nodup : held.Nodup
  apart : ∀ b ∈ held, b ∉ base
  live : h.live = base ∪ held.toFinset

namespace Owns

variable {base : Finset Nat} {held : List Nat} {h : Blocks}

theorem mem_live (ho : Owns base held h) {b : Nat} : b ∈ h.live ↔ b ∈ base ∨ b ∈ held := by
  rw [ho.live, Finset.mem_union, List.mem_toFinset]

/-- A new block belongs to no one yet. -/
theorem next_not_mem (ho : Owns base held h) : h.next ∉ base ∧ h.next ∉ held := by
  have hnext := h.next_not_mem
  rw [ho.mem_live] at hnext
  exact not_or.mp hnext

theorem malloc (ho : Owns base held h) : Owns base (h.next :: held) h.malloc := by
  obtain ⟨hbase, hheld⟩ := ho.next_not_mem
  refine ⟨ho.sound, List.nodup_cons.mpr ⟨hheld, ho.nodup⟩, ?_, ?_⟩
  · intro b hb
    rcases List.mem_cons.mp hb with rfl | hb
    · exact hbase
    · exact ho.apart b hb
  · rw [Blocks.malloc_live, ho.live, List.toFinset_cons, Finset.union_insert]

/-- A pointer that is `NULL` or held can be freed. -/
theorem free {p : Option Nat} (ho : Owns base (p.toList ++ held) h) : Owns base held (h.free p) := by
  cases p with
  | none => exact ho
  | some b =>
      have hmem : b ∈ h.live := ho.mem_live.mpr (.inr (by simp))
      obtain ⟨hb, hnodup⟩ := List.nodup_cons.mp ho.nodup
      have hbase : b ∉ base := ho.apart b (by simp)
      refine ⟨?_, hnodup, fun c hc => ho.apart c (List.mem_cons_of_mem b hc), ?_⟩
      · simp [Blocks.free, ho.sound, hmem]
      · ext c
        rw [Blocks.free_live, Finset.mem_erase, ho.mem_live, Finset.mem_union, List.mem_toFinset]
        simp only [Option.toList_some, List.singleton_append, List.mem_cons]
        constructor
        · rintro ⟨hne, hc | hc | hc⟩
          · exact .inl hc
          · exact absurd hc hne
          · exact .inr hc
        · rintro (hc | hc)
          · exact ⟨fun heq => hbase (heq ▸ hc), .inl hc⟩
          · exact ⟨fun heq => hb (heq ▸ hc), .inr (.inr hc)⟩

/-- There are as many live blocks as the two hold. -/
theorem card (ho : Owns base held h) : h.live.card = base.card + held.length := by
  rw [ho.live, Finset.card_union_of_disjoint, List.toFinset_card_of_nodup ho.nodup]
  rw [Finset.disjoint_right]
  intro b hb
  exact ho.apart b (List.mem_toFinset.mp hb)

end Owns

end IpcWin.Lib
