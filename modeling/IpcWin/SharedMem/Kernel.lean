/-
  IpcWin.SharedMem.Kernel

  The named kernel objects of shared memory mode: four events and four sections.

  The programs never close a handle, so an object lives on once it is created,
  and a handle is no more than the knowledge that the object exists.  Nor do they
  unmap a view, so each view takes address space for good, and `mapViewOfFile` fails
  in a program that has no room for one more.
-/

import IpcWin.Wire.Packet

namespace IpcWin.SharedMem

open IpcWin.Lib IpcWin.Wire

/-! ## Events -/

structure Event where
  manualReset : Bool
  signalled : Bool
deriving DecidableEq, Repr

/-- `CreateEvent(NULL, manualReset, false, name)`: the event of that name as it
    is, or a new one that is not signalled. -/
def createEvent (manualReset : Bool) (e : Option Event) : Option Event :=
  some (e.getD { manualReset := manualReset, signalled := false })

/-- `SetEvent`. -/
def setEvent (e : Option Event) : Option Event := e.map fun v => { v with signalled := true }

/-- `WaitForSingleObject` is released. -/
def signalled (e : Option Event) : Bool := e.any Event.signalled

@[simp] theorem signalled_none : signalled none = false := rfl

/-- The event after the wait it released: an auto-reset event is cleared. -/
def waitEvent (e : Option Event) : Option Event :=
  e.map fun v => { v with signalled := v.signalled && v.manualReset }

/-- The event, if it exists, is an auto-reset event. -/
def AutoReset (e : Option Event) : Prop := ∀ v, e = some v → v.manualReset = false

/-- Creating an event signals nothing. -/
@[simp] theorem signalled_createEvent (manualReset : Bool) (e : Option Event) :
    signalled (createEvent manualReset e) = signalled e := by
  cases e <;> rfl

theorem isSome_createEvent (manualReset : Bool) (e : Option Event) :
    (createEvent manualReset e).isSome = true := rfl

theorem signalled_setEvent {e : Option Event} (h : e.isSome = true) :
    signalled (setEvent e) = true := by
  cases e with
  | none => cases h
  | some v => rfl

/-- A wait takes the signal of an auto-reset event with it. -/
theorem signalled_waitEvent {e : Option Event} (h : AutoReset e) :
    signalled (waitEvent e) = false := by
  cases e with
  | none => rfl
  | some v => simp [waitEvent, signalled, h v rfl]

theorem AutoReset.createEvent {e : Option Event} (h : AutoReset e) :
    AutoReset (createEvent false e) := by
  rintro v hv
  cases e with
  | none =>
      cases hv
      rfl
  | some w => exact h v hv

theorem AutoReset.setEvent {e : Option Event} (h : AutoReset e) : AutoReset (setEvent e) := by
  rintro v hv
  obtain ⟨w, hw, rfl⟩ := Option.map_eq_some_iff.mp hv
  exact h w hw

theorem AutoReset.waitEvent {e : Option Event} (h : AutoReset e) : AutoReset (waitEvent e) := by
  rintro v hv
  obtain ⟨w, hw, rfl⟩ := Option.map_eq_some_iff.mp hv
  exact h w hw

/-! ## Sections -/

/-- A section: the size it was created with, and the bytes written to its front;
    the bytes behind them are still zero. -/
structure Section where
  size : Nat
  mem : List Byte
deriving DecidableEq, Repr

/-- The size in whole pages, which is what can be mapped. -/
def Section.capacity (sec : Section) : Nat := (sec.size + 4095) / 4096 * 4096

/-- `CreateFileMapping` of `size` bytes: the section of that name with the size it
    has, or a new one, which cannot be empty. -/
def createFileMapping (size : Nat) (sec : Option Section) : Option Section :=
  match sec with
  | some sec => some sec
  | none => if size = 0 then none else some { size := size, mem := [] }

/-- Whether the address space of a process has room for a view of so many bytes beside
    those that it has mapped. -/
abbrev Space := List Nat → Nat → Bool

/-- Address space without an end. -/
def Space.endless : Space := fun _ _ => true

/-- The bytes of a view that is asked for `n` bytes: for none it is the whole section. -/
def Section.viewBytes (sec : Section) (n : Nat) : Nat := if n = 0 then sec.capacity else n

/-- `MapViewOfFile` of `n` bytes through a handle, `NULL` or not: the bytes of the view
    that is returned, or `none` for `NULL`. -/
def mapViewOfFile (space : Space) (mapped : List Nat) (handle : Bool) (sec : Option Section)
    (n : Nat) : Option Nat :=
  match sec with
  | some sec =>
      if handle && decide (n ≤ sec.capacity) && space mapped (sec.viewBytes n) then
        some (sec.viewBytes n)
      else none
  | none => none

/-- The first `n` bytes of a section. -/
def contents (sec : Option Section) (n : Nat) : List Byte :=
  let mem := (sec.map Section.mem).getD []
  mem.take n ++ List.replicate (n - mem.length) nul

/-- `memcpy` into a view; `none` when the view is `NULL` and there is a byte to copy. -/
def copyTo (view : Bool) (sec : Option Section) (bytes : List Byte) : Option (Option Section) :=
  if bytes = [] then some sec
  else if view then
    sec.map fun sec => some { sec with mem := bytes ++ sec.mem.drop bytes.length }
  else none

/-- `memcpy` of `n` bytes out of a view. -/
def copyFrom (view : Bool) (sec : Option Section) (n : Nat) : Option (List Byte) :=
  if n = 0 then some []
  else if view && sec.isSome then some (contents sec n) else none

/-- Creating a section changes no byte that can be read. -/
@[simp] theorem contents_createFileMapping (size : Nat) (sec : Option Section) (n : Nat) :
    contents (createFileMapping size sec) n = contents sec n := by
  cases sec with
  | some sec => rfl
  | none =>
      unfold createFileMapping
      split_ifs <;> rfl

/-- What has been copied into a section is its first bytes. -/
theorem contents_of_copyTo {view : Bool} {sec sec' : Option Section} {bytes : List Byte}
    (h : copyTo view sec bytes = some sec') : contents sec' bytes.length = bytes := by
  unfold copyTo at h
  split_ifs at h with hnil hview
  · simp [contents, hnil]
  · obtain ⟨sec, -, rfl⟩ := Option.map_eq_some_iff.mp h
    simp [contents]

theorem copyFrom_eq_some {view : Bool} {sec : Option Section} {n : Nat} {bs : List Byte}
    (h : copyFrom view sec n = some bs) : bs = contents sec n := by
  unfold copyFrom at h
  split_ifs at h with hn hview
  · cases h
    simp [contents, hn]
  · exact (Option.some.inj h).symm

/-- A copy into a view of a section succeeds, and so does a copy of nothing into any. -/
theorem copyTo_of_view_or_nil {view : Bool} {sec : Option Section} {bytes : List Byte}
    (h : bytes = [] ∨ view = true ∧ sec.isSome = true) :
    ∃ sec', copyTo view sec bytes = some sec' := by
  by_cases hnil : bytes = []
  · exact ⟨sec, if_pos hnil⟩
  · obtain ⟨rfl, hsec⟩ := h.resolve_left hnil
    obtain ⟨v, rfl⟩ := Option.isSome_iff_exists.mp hsec
    refine ⟨some { v with mem := bytes ++ v.mem.drop bytes.length }, ?_⟩
    rw [copyTo, if_neg hnil, if_pos rfl]
    rfl

/-- A copy out of a view of a section succeeds, and so does a copy of nothing out of any. -/
theorem copyFrom_of_view_or_zero {view : Bool} {sec : Option Section} {n : Nat}
    (h : n = 0 ∨ view = true ∧ sec.isSome = true) : ∃ bs, copyFrom view sec n = some bs := by
  unfold copyFrom
  rcases h with rfl | ⟨rfl, hsec⟩
  · exact ⟨_, rfl⟩
  · rw [hsec, Bool.and_self, if_pos rfl]
    split_ifs
    · exact ⟨_, rfl⟩
    · exact ⟨_, rfl⟩

/-- Without a view no byte is copied into a section. -/
theorem copyTo_of_no_view {sec : Option Section} {bytes : List Byte} (h : bytes ≠ []) :
    copyTo false sec bytes = none := by
  simp [copyTo, h]

/-- A view that is returned is one of a section that is there and holds as much, and
    there was room for it. -/
theorem mapViewOfFile_eq_some {space : Space} {mapped : List Nat} {handle : Bool}
    {sec : Option Section} {n bytes : Nat} :
    mapViewOfFile space mapped handle sec n = some bytes ↔
      ∃ v, sec = some v ∧ handle = true ∧ n ≤ v.capacity ∧ space mapped bytes = true ∧
        bytes = v.viewBytes n := by
  cases sec with
  | none => simp [mapViewOfFile]
  | some v =>
      simp only [mapViewOfFile, Option.ite_none_right_eq_some, Option.some.injEq,
        Bool.and_eq_true, decide_eq_true_eq]
      constructor
      · rintro ⟨⟨⟨hhandle, hle⟩, hroom⟩, rfl⟩
        exact ⟨v, rfl, hhandle, hle, hroom, rfl⟩
      · rintro ⟨w, rfl, hhandle, hle, hroom, rfl⟩
        exact ⟨⟨⟨hhandle, hle⟩, hroom⟩, rfl⟩

/-! ## All named objects -/

/-- The events and sections by their names. -/
structure Kernel where
  clientMadeRequestEvent : Option Event
  serverReadRequestEvent : Option Event
  serverMadeResponse : Option Event
  clientReadResponseEvent : Option Event
  sizeOfDataRequest : Option Section
  clientMessageData : Option Section
  sizeOfData : Option Section
  serverMessageData : Option Section
deriving DecidableEq, Repr

/-- No object has been created. -/
def Kernel.start : Kernel :=
  { clientMadeRequestEvent := none, serverReadRequestEvent := none, serverMadeResponse := none
    clientReadResponseEvent := none, sizeOfDataRequest := none, clientMessageData := none
    sizeOfData := none, serverMessageData := none }

end IpcWin.SharedMem
