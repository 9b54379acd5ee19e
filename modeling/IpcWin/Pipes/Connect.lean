/-
  IpcWin.Pipes.Connect

  How the two clients of pipe mode open the pipe.

  The top of `makePipeRequest`, in `NativeClient/NativeClient.cpp` and in
  `ManagedClient/Program.cs`: wait for the pipe, then call `CreateFile` in a loop
  until it returns a valid handle.  Inside the loop the native client breaks when
  the handle is valid, and the managed one when it is not.  So the first
  `CreateFile` that fails, because another client has taken the instance, ends the
  managed loop with an invalid handle (`bothConnect_iff_firstTry`).
-/

import Mathlib.Data.List.Basic

namespace IpcWin.Pipes

/-! ## What the system answers -/

/-- What the system answers during one request: `WaitNamedPipe` and `CreateFile`
    each succeed in the end. -/
structure Answers where
  waits : List Bool
  creates : List Bool
  waits_some : true ∈ waits
  creates_some : true ∈ creates

/-- What `CreateFile` returns. -/
inductive Handle where
  | invalid
  | opened
deriving DecidableEq, Repr

def createFile (ok : Bool) : Handle := if ok then .opened else .invalid

/-- `while (!WaitNamedPipe(pipe_name, 1));`: the number of calls. -/
def waitNamedPipe : List Bool → Option Nat
  | [] => none
  | ok :: rest => if ok then some 1 else (waitNamedPipe rest).map (· + 1)

/-- The handle at the `WriteFile` of a request, and how it came about. -/
structure Opening (H : Type*) where
  hPipe : H
  waits : Nat
  attempts : Nat
deriving DecidableEq, Repr

/-- One request after the other: each finds the handle of the one before it. -/
def openings {H : Type*} (connect : H → Answers → Option (Opening H)) :
    H → List Answers → Option (List (Opening H))
  | _, [] => some []
  | hPipe, a :: rest =>
      (connect hPipe a).bind fun o => (openings connect o.hPipe rest).map (o :: ·)

/-! ## The native client -/

namespace Native

/-- The loop around `CreateFile`: the handle it ends with, and the attempts. -/
def openLoop : List Bool → Handle → Option (Handle × Nat)
  | _, .opened => some (.opened, 0)
  | [], .invalid => none
  | ok :: rest, .invalid =>
      let hPipe := createFile ok
      if hPipe ≠ .invalid then some (hPipe, 1)
      else (openLoop rest hPipe).map fun r => (r.1, r.2 + 1)

/-- The top of `makePipeRequest`. -/
def connect (reuse : Bool) (hPipe : Handle) (a : Answers) : Option (Opening Handle) :=
  let hPipe := if !reuse then .invalid else hPipe
  let waits := if hPipe = .invalid then waitNamedPipe a.waits else some 0
  waits.bind fun w => (openLoop a.creates hPipe).map fun r => ⟨r.1, w, r.2⟩

end Native

/-! ## The managed client -/

namespace Managed

/-- `hPipe == null || hPipe.IsInvalid`. -/
def isNullOrInvalid : Option Handle → Bool
  | none | some .invalid => true
  | some .opened => false

/-- The loop around `CreateFile`. -/
def openLoop : List Bool → Option Handle → Option (Option Handle × Nat)
  | outcomes, hPipe =>
      if !isNullOrInvalid hPipe then some (hPipe, 0)
      else
        match outcomes with
        | [] => none
        | ok :: rest =>
            let hPipe := createFile ok
            -- the break that the native client makes on a valid handle
            if hPipe = .invalid then some (some hPipe, 1)
            else (openLoop rest (some hPipe)).map fun r => (r.1, r.2 + 1)

/-- The top of `makePipeRequest`. -/
def connect (reuse : Bool) (hPipe : Option Handle) (a : Answers) : Option (Opening (Option Handle)) :=
  let hPipe := if !reuse then none else hPipe
  let waits := if isNullOrInvalid hPipe then waitNamedPipe a.waits else some 0
  waits.bind fun w => (openLoop a.creates hPipe).map fun r => ⟨r.1, w, r.2⟩

end Managed

/-! ## What the two should do, and when they do it -/

/-- From the handles that they have, both clients get through the requests, write
    each of them to a valid handle, and call `CreateFile` equally often for each. -/
def ConnectFrom (reuse : Bool) (hNative : Handle) (hManaged : Option Handle)
    (requests : List Answers) : Prop :=
  ∃ native managed,
    openings (Native.connect reuse) hNative requests = some native ∧
    openings (Managed.connect reuse) hManaged requests = some managed ∧
    (∀ o ∈ native, o.hPipe = .opened) ∧ (∀ o ∈ managed, o.hPipe = some .opened) ∧
    native.map Opening.attempts = managed.map Opening.attempts

/-- Both clients get through the requests from the start, where neither has opened the
    pipe. -/
def BothConnect (reuse : Bool) (requests : List Answers) : Prop :=
  ConnectFrom reuse .invalid none requests

/-- The first `CreateFile` for the request succeeds. -/
def Answers.firstTry (a : Answers) : Prop := a.creates.head? = some true

/-- Every request that opens the pipe does so at the first try: all of them without
    `-r`, and the first one with it. -/
def FirstTry (reuse : Bool) (requests : List Answers) : Prop :=
  if reuse then ∀ a ∈ requests.head?, a.firstTry else ∀ a ∈ requests, a.firstTry

/-! ## The loops -/

theorem waitNamedPipe_of_mem {waits : List Bool} (h : true ∈ waits) :
    ∃ w, waitNamedPipe waits = some w := by
  induction waits with
  | nil => cases h
  | cons ok rest ih =>
      cases ok with
      | true => exact ⟨1, rfl⟩
      | false =>
          obtain ⟨w, hw⟩ := ih (by simpa using h)
          exact ⟨w + 1, by simp [waitNamedPipe, hw]⟩

/-- The native loop ends with a valid handle, at the first success. -/
theorem Native.openLoop_of_mem {creates : List Bool} (h : true ∈ creates) :
    Native.openLoop creates .invalid = some (.opened, creates.idxOf true + 1) := by
  induction creates with
  | nil => cases h
  | cons ok rest ih =>
      cases ok with
      | true => rfl
      | false =>
          have hrest : true ∈ rest := by simpa using h
          simp [Native.openLoop, createFile, ih hrest]

/-- The managed loop ends after one attempt, whatever it returned. -/
theorem Managed.openLoop_of_mem {creates : List Bool} (h : true ∈ creates) {hPipe : Option Handle}
    (hnull : isNullOrInvalid hPipe = true) :
    Managed.openLoop creates hPipe = some (some (createFile (creates.head? = some true)), 1) := by
  cases creates with
  | nil => cases h
  | cons ok rest =>
      cases ok with
      | true =>
          rw [Managed.openLoop]
          simp only [hnull]
          cases rest <;> rfl
      | false =>
          rw [Managed.openLoop]
          simp only [hnull]
          rfl

/-! ## One request -/

/-- The native client opens the pipe at the first success. -/
theorem Native.connect_open {reuse : Bool} {hPipe : Handle} {a : Answers} {w : Nat}
    (hopen : reuse = false ∨ hPipe = .invalid) (hw : waitNamedPipe a.waits = some w) :
    Native.connect reuse hPipe a = some ⟨.opened, w, a.creates.idxOf true + 1⟩ := by
  have hinvalid : (if !reuse then .invalid else hPipe) = Handle.invalid := by
    rcases hopen with rfl | rfl
    · rfl
    · exact ite_self _
  simp only [Native.connect, hinvalid, if_pos, hw, Option.bind_some,
    Native.openLoop_of_mem a.creates_some, Option.map_some]

/-- The managed client goes on with the handle of its first attempt. -/
theorem Managed.connect_open {reuse : Bool} {hPipe : Option Handle} {a : Answers} {w : Nat}
    (hopen : reuse = false ∨ isNullOrInvalid hPipe = true)
    (hw : waitNamedPipe a.waits = some w) :
    Managed.connect reuse hPipe a =
      some ⟨some (createFile (a.creates.head? = some true)), w, 1⟩ := by
  have hnull : isNullOrInvalid (if !reuse then none else hPipe) = true := by
    rcases hopen with rfl | h
    · rfl
    · cases reuse with
      | true => exact h
      | false => rfl
  simp only [Managed.connect, hnull, if_pos, hw, Option.bind_some,
    Managed.openLoop_of_mem a.creates_some hnull, Option.map_some]

/-- Where both have to open the pipe, both do as they should if the first attempt
    succeeds, and the managed client does not if it fails. -/
theorem connectFrom_cons {reuse : Bool} {hNative : Handle} {hManaged : Option Handle}
    {a : Answers} {rest : List Answers} (hnative : reuse = false ∨ hNative = .invalid)
    (hmanaged : reuse = false ∨ Managed.isNullOrInvalid hManaged = true) :
    ConnectFrom reuse hNative hManaged (a :: rest) ↔
      a.firstTry ∧ ConnectFrom reuse .opened (some .opened) rest := by
  obtain ⟨w, hw⟩ := waitNamedPipe_of_mem a.waits_some
  have hn := Native.connect_open hnative hw
  have hm := Managed.connect_open hmanaged hw
  constructor
  · rintro ⟨ns, ms, hns, hms, hvalid, hvalid', hattempts⟩
    simp only [openings, hn, Option.bind_some, Option.map_eq_some_iff] at hns
    simp only [openings, hm, Option.bind_some, Option.map_eq_some_iff] at hms
    obtain ⟨ns, hns, rfl⟩ := hns
    obtain ⟨ms, hms, rfl⟩ := hms
    rw [List.forall_mem_cons] at hvalid hvalid'
    -- the handle of the managed client is valid only if its one attempt succeeded
    have hfirst : a.firstTry := by
      by_contra hfail
      simp [Answers.firstTry] at hfail
      simp [createFile, hfail] at hvalid'
    have hhead : createFile (decide (a.creates.head? = some true)) = .opened := by
      rw [show a.creates.head? = some true from hfirst]
      rfl
    rw [hhead] at hms
    exact ⟨hfirst, ns, ms, hns, hms, hvalid.2, hvalid'.2, (List.cons.inj hattempts).2⟩
  · rintro ⟨hfirst, ns, ms, hns, hms, hvalid, hvalid', hattempts⟩
    have hhead : a.creates.head? = some true := hfirst
    obtain ⟨rest', hcreates⟩ := List.head?_eq_some_iff.mp hhead
    have hidx : a.creates.idxOf true = 0 := by
      rw [hcreates, List.idxOf_cons_self]
    rw [hidx] at hn
    rw [hhead] at hm
    refine ⟨⟨.opened, w, 1⟩ :: ns, ⟨some .opened, w, 1⟩ :: ms, ?_, ?_, ?_, ?_, ?_⟩
    · simp [openings, hn, hns]
    · simp [openings, hm, createFile, hms]
    · exact List.forall_mem_cons.mpr ⟨rfl, hvalid⟩
    · exact List.forall_mem_cons.mpr ⟨rfl, hvalid'⟩
    · rw [List.map_cons, List.map_cons, hattempts]

/-! ## Any number of requests -/

/-- With `-r` a valid handle is kept, and `CreateFile` is not called any more. -/
theorem connectFrom_of_opened (requests : List Answers) :
    ConnectFrom true .opened (some .opened) requests := by
  induction requests with
  | nil => exact ⟨[], [], rfl, rfl, by simp, by simp, rfl⟩
  | cons a rest ih =>
      obtain ⟨ns, ms, hns, hms, hvalid, hvalid', hattempts⟩ := ih
      have hn : Native.connect true .opened a = some ⟨.opened, 0, 0⟩ := by
        cases hc : a.creates <;> simp [Native.connect, Native.openLoop, hc]
      have hm : Managed.connect true (some .opened) a = some ⟨some .opened, 0, 0⟩ := by
        have hloop : Managed.openLoop a.creates (some .opened) = some (some .opened, 0) := by
          unfold Managed.openLoop
          rfl
        simp [Managed.connect, Managed.isNullOrInvalid, hloop]
      refine ⟨⟨.opened, 0, 0⟩ :: ns, ⟨some .opened, 0, 0⟩ :: ms, ?_, ?_, ?_, ?_, ?_⟩
      · simp [openings, hn, hns]
      · simp [openings, hm, hms]
      · exact List.forall_mem_cons.mpr ⟨rfl, hvalid⟩
      · exact List.forall_mem_cons.mpr ⟨rfl, hvalid'⟩
      · rw [List.map_cons, List.map_cons, hattempts]

/-- Without `-r` every request is on its own. -/
theorem connectFrom_iff_of_not_reuse (requests : List Answers) (hNative : Handle)
    (hManaged : Option Handle) :
    ConnectFrom false hNative hManaged requests ↔ ∀ a ∈ requests, a.firstTry := by
  induction requests generalizing hNative hManaged with
  | nil => exact ⟨fun _ => by simp, fun _ => ⟨[], [], rfl, rfl, by simp, by simp, rfl⟩⟩
  | cons a rest ih =>
      rw [connectFrom_cons (.inl rfl) (.inl rfl), ih, List.forall_mem_cons]

/-- Both clients write to open pipes only, after equally many attempts, exactly if
    every opening succeeds at the first of them. -/
theorem bothConnect_iff_firstTry (reuse : Bool) (requests : List Answers) :
    BothConnect reuse requests ↔ FirstTry reuse requests := by
  cases reuse with
  | false => exact connectFrom_iff_of_not_reuse requests .invalid none
  | true =>
      cases requests with
      | nil =>
          have hnil : BothConnect true [] := ⟨[], [], rfl, rfl, by simp, by simp, rfl⟩
          simp [hnil, FirstTry]
      | cons a rest =>
          have hrest := connectFrom_of_opened rest
          rw [BothConnect, connectFrom_cons (.inr rfl) (.inr rfl)]
          simp [hrest, FirstTry]

/-- The pipe is there, another client takes it, and then it can be opened. -/
def takenOnce : Answers :=
  { waits := [true], creates := [false, true], waits_some := by decide, creates_some := by decide }

/-- The managed client writes its request to the invalid handle of its first attempt. -/
theorem takenOnce_not_bothConnect :
    ¬ BothConnect false [takenOnce] ∧ ¬ BothConnect true [takenOnce] := by
  have hmanaged : ∀ reuse,
      openings (Managed.connect reuse) none [takenOnce] = some [⟨some .invalid, 1, 1⟩] := by
    intro reuse
    cases reuse <;> rfl
  have hnot : ∀ reuse, ¬ BothConnect reuse [takenOnce] := by
    rintro reuse ⟨ns, ms, -, hms, -, hvalid, -⟩
    rw [hmanaged reuse] at hms
    cases hms
    exact absurd (hvalid _ (List.mem_singleton_self _)) (by decide)
  exact ⟨hnot false, hnot true⟩

end IpcWin.Pipes
