/-
  IpcWin.Lib.Transition

  Labelled transition systems, their runs, and the two rules every safety
  argument over runs is an instance of.

  * `System` has one initial state and a partial step function: an action that
    is not enabled in a state has no step there.
  * `Exec M tr s` is a run of `M` that ends in `s`; its trace `tr` lists every
    step as the pair of the state before it and the action taken.
  * `Meets ok tr` says that every step of a trace satisfies a condition on the
    state before the step and the action.

  `Exec.invariant` is the invariant rule relative to such a condition, and
  `Refinement.exec` carries a run of one system to a run of a more abstract one,
  whose invariants then hold of the first (`Refinement.invariant_visited`); a
  `Simulation` does the same where the abstract state is not a function of the
  concrete one.
  `System.runIf` executes a list of actions, so that a run on given inputs can
  be computed (`Exec.of_runIf`).  `observed f tr` is what the steps of a trace
  show, and a list that the state keeps of it is all of it (`Exec.observed_eq`).
  `System.beside` keeps a value beside the state that every step updates and none
  reads: its runs are those of the system (`Exec.forget`, `Reachable.beside`).
  `Inevitable M P s` says that every way on from `s` comes to a state with `P`;
  it is shown with a measure that every step decreases
  (`Inevitable.of_wellFounded`) and refuted with states that no step leaves
  (`not_inevitable`).  `Possible M P s` says that some way on does; there a measure
  that some step decreases is enough (`Possible.of_measure`).
-/

import Mathlib.Data.List.Basic

namespace IpcWin.Lib

/-- A transition system with labelled, deterministic, partial steps. -/
structure System (σ α : Type*) where
  init : σ
  step : α → σ → Option σ

variable {σ α τ β : Type*}

/-! ## Runs -/

/-- `Exec M tr s`: a run of `M` from its initial state to `s`. -/
inductive Exec (M : System σ α) : List (σ × α) → σ → Prop
  | init : Exec M [] M.init
  | step {tr : List (σ × α)} {s s' : σ} {a : α} :
      Exec M tr s → M.step a s = some s' → Exec M (tr ++ [(s, a)]) s'

/-- Some run ends in the state. -/
def Reachable (M : System σ α) (s : σ) : Prop := ∃ tr, Exec M tr s

theorem Reachable.step {M : System σ α} {s s' : σ} {a : α} (h : Reachable M s)
    (hs : M.step a s = some s') : Reachable M s' := by
  obtain ⟨tr, htr⟩ := h
  exact ⟨_, htr.step hs⟩

/-- Every step of the trace satisfies `ok`. -/
def Meets (ok : σ → α → Prop) (tr : List (σ × α)) : Prop := ∀ e ∈ tr, ok e.1 e.2

@[simp] theorem meets_nil (ok : σ → α → Prop) : Meets ok [] := by simp [Meets]

@[simp] theorem meets_snoc {ok : σ → α → Prop} {tr : List (σ × α)} {s : σ} {a : α} :
    Meets ok (tr ++ [(s, a)]) ↔ Meets ok tr ∧ ok s a := by
  simp [Meets, or_imp, forall_and]

/-- The states a run passes through, the last one included. -/
def visited (tr : List (σ × α)) (s : σ) : List σ := tr.map Prod.fst ++ [s]

@[simp] theorem mem_visited {tr : List (σ × α)} {s t : σ} :
    t ∈ visited tr s ↔ (∃ a, (t, a) ∈ tr) ∨ t = s := by
  simp [visited]

theorem visited_snoc (tr : List (σ × α)) (s s' : σ) (a : α) :
    visited (tr ++ [(s, a)]) s' = visited tr s ++ [s'] := by
  simp [visited]

/-- An invariant of the steps that satisfy `ok` holds wherever a run of such
    steps ends. -/
theorem Exec.invariant {M : System σ α} {ok : σ → α → Prop} {I : σ → Prop}
    (hinit : I M.init)
    (hstep : ∀ s a s', I s → ok s a → M.step a s = some s' → I s')
    {tr : List (σ × α)} {s : σ} (h : Exec M tr s) (hok : Meets ok tr) : I s := by
  induction h with
  | init => exact hinit
  | step _ hs ih =>
      obtain ⟨htr, ha⟩ := meets_snoc.mp hok
      exact hstep _ _ _ (ih htr) ha hs

/-- An invariant of every step holds wherever a run ends. -/
theorem Exec.invariant_all {M : System σ α} {I : σ → Prop}
    (hinit : I M.init) (hstep : ∀ s a s', I s → M.step a s = some s' → I s')
    {tr : List (σ × α)} {s : σ} (h : Exec M tr s) : I s := by
  have hall : Meets (fun _ _ => True) tr := fun _ _ => trivial
  exact h.invariant hinit (fun s a s' hI _ => hstep s a s' hI) hall

/-- Where every step raises a measure, a run is no longer than the measure at its end;
    `I` is what the last state has and no step can bring back. -/
theorem Exec.length_le {M : System σ α} {I : σ → Prop} {μ : σ → Nat}
    (hstep : ∀ s a s', M.step a s = some s' → I s' → I s ∧ μ s < μ s')
    {tr : List (σ × α)} {s : σ} (h : Exec M tr s) (hI : I s) : tr.length ≤ μ s := by
  induction h with
  | init => exact Nat.zero_le _
  | step _ hs ih =>
      obtain ⟨hI', hlt⟩ := hstep _ _ _ hs hI
      have hle := ih hI'
      rw [List.length_append, List.length_singleton]
      omega

/-- Every state a run passes through is the end of a run that is a prefix of it. -/
theorem Exec.prefix {M : System σ α} {tr : List (σ × α)} {s t : σ}
    (h : Exec M tr s) (ht : t ∈ visited tr s) : ∃ tr', tr' <+: tr ∧ Exec M tr' t := by
  induction h with
  | init =>
      obtain rfl : t = M.init := by simpa using ht
      exact ⟨[], List.prefix_rfl, .init⟩
  | @step tr u u' a hu hs ih =>
      -- the last state has the whole run; every other one a run that stops earlier
      by_cases hlast : t = u'
      · subst hlast
        exact ⟨_, List.prefix_rfl, .step hu hs⟩
      · have ht' : t ∈ visited tr u := by
          simp only [mem_visited, List.mem_append, List.mem_singleton, Prod.mk.injEq, hlast,
            or_false] at ht ⊢
          obtain ⟨b, hb | ⟨rfl, -⟩⟩ := ht
          · exact .inl ⟨b, hb⟩
          · exact .inr rfl
        obtain ⟨tr', hpre, hexec⟩ := ih ht'
        exact ⟨tr', hpre.trans (List.prefix_append _ _), hexec⟩

/-- A run passes through the state that a step of it leads to. -/
theorem Exec.step_of_mem {M : System σ α} {tr : List (σ × α)} {s t : σ} {a : α}
    (h : Exec M tr s) (ht : (t, a) ∈ tr) : ∃ t' ∈ visited tr s, M.step a t = some t' := by
  induction h with
  | init => simp at ht
  | @step tr u u' b hu hs ih =>
      simp only [List.mem_append, List.mem_singleton, Prod.mk.injEq] at ht
      -- the step is an earlier one, or the one the run ends with
      rcases ht with ht | ⟨rfl, rfl⟩
      · obtain ⟨t', ht', hstep⟩ := ih ht
        refine ⟨t', ?_, hstep⟩
        simp only [mem_visited, List.mem_append, List.mem_singleton, Prod.mk.injEq] at ht' ⊢
        rcases ht' with ⟨c, hc⟩ | rfl
        · exact .inl ⟨c, .inl hc⟩
        · exact .inl ⟨b, .inr ⟨rfl, rfl⟩⟩
      · exact ⟨u', by simp, hs⟩

/-- A condition on the steps of a run is one on the steps of its prefixes. -/
theorem Meets.mono {ok : σ → α → Prop} {tr tr' : List (σ × α)}
    (h : Meets ok tr) (hpre : tr' <+: tr) : Meets ok tr' :=
  fun e he => h e (hpre.subset he)

/-- An invariant of the steps that satisfy `ok` holds in every state a run of
    such steps passes through. -/
theorem Exec.invariant_visited {M : System σ α} {ok : σ → α → Prop} {I : σ → Prop}
    (hinit : I M.init)
    (hstep : ∀ s a s', I s → ok s a → M.step a s = some s' → I s')
    {tr : List (σ × α)} {s : σ} (h : Exec M tr s) (hok : Meets ok tr) :
    ∀ t ∈ visited tr s, I t := by
  intro t ht
  obtain ⟨tr', hpre, hexec⟩ := h.prefix ht
  exact hexec.invariant hinit hstep (hok.mono hpre)

/-! ## What a run shows -/

/-- What the steps of a trace show of themselves, in order. -/
def observed (f : σ → α → Option β) (tr : List (σ × α)) : List β :=
  tr.filterMap fun e => f e.1 e.2

@[simp] theorem observed_nil (f : σ → α → Option β) : observed f [] = [] := rfl

@[simp] theorem observed_snoc (f : σ → α → Option β) (tr : List (σ × α)) (s : σ) (a : α) :
    observed f (tr ++ [(s, a)]) = observed f tr ++ (f s a).toList := by
  rw [observed, List.filterMap_append, List.filterMap_cons, List.filterMap_nil]
  cases f s a with
  | none => rfl
  | some b => rfl

/-- A list kept in the state that every step extends by what it shows is all that
    the run has shown. -/
theorem Exec.observed_eq {M : System σ α} {I : σ → Prop} {f : σ → α → Option β}
    {out : σ → List β} (hnil : out M.init = [])
    (hstep : ∀ s a s', I s → M.step a s = some s' → out s' = out s ++ (f s a).toList)
    {tr : List (σ × α)} {s : σ} (h : Exec M tr s) (hinv : ∀ t ∈ visited tr s, I t) :
    observed f tr = out s := by
  induction h with
  | init => exact hnil.symm
  | @step tr u u' a _ hs ih =>
      rw [visited_snoc] at hinv
      have hpre : ∀ t ∈ visited tr u, I t := by
        intro t ht
        exact hinv t (List.mem_append_left _ ht)
      rw [observed_snoc, ih hpre]
      exact (hstep u a u' (hpre u (by simp)) hs).symm

/-! ## A value beside the state -/

/-- `M` with a value beside its state, which a step between two states updates. -/
def System.beside (M : System σ α) (start : τ) (update : σ → α → σ → τ → τ) : System (σ × τ) α where
  init := (M.init, start)
  step a s := (M.step a s.1).map fun s' => (s', update s.1 a s' s.2)

section Beside

variable {M : System σ α} {start : τ} {update : σ → α → σ → τ → τ}

/-- A step of both is one of the system, and the update of the value. -/
theorem beside_step {s s' : σ × τ} {a : α} (h : (M.beside start update).step a s = some s') :
    ∃ t, M.step a s.1 = some t ∧ s' = (t, update s.1 a t s.2) := by
  obtain ⟨t, ht, rfl⟩ := Option.map_eq_some_iff.mp h
  exact ⟨t, ht, rfl⟩

/-- Every state of the system is reached with some value beside it. -/
theorem Reachable.beside {s : σ} (h : Reachable M s) :
    ∃ t, Reachable (M.beside start update) (s, t) := by
  obtain ⟨tr, htr⟩ := h
  induction htr with
  | init => exact ⟨start, [], .init⟩
  | @step tr s s' a _ hs ih =>
      obtain ⟨t, ht⟩ := ih
      refine ⟨update s a s' t, ht.step (a := a) ?_⟩
      show (M.step a s).map _ = _
      rw [hs]
      rfl

end Beside

/-- What holds at the start and is kept by every step holds in every state reached. -/
theorem Reachable.invariant {M : System σ α} {I : σ → Prop} (hinit : I M.init)
    (hstep : ∀ s a s', I s → M.step a s = some s' → I s') {s : σ} (h : Reachable M s) : I s := by
  obtain ⟨tr, htr⟩ := h
  exact htr.invariant_all hinit hstep

/-! ## Executing a list of actions -/

/-- Take the listed actions in order, as long as each is enabled and `ok`. -/
def System.runIf (M : System σ α) (ok : σ → α → Bool) : List α → σ → Option σ
  | [], s => some s
  | a :: as, s => if ok s a then (M.step a s).bind (M.runIf ok as) else none

/-- Take the listed actions in order, as long as each is enabled. -/
def System.run (M : System σ α) (as : List α) : Option σ := M.runIf (fun _ _ => true) as M.init

theorem Exec.append_runIf {M : System σ α} {ok : σ → α → Bool} {as : List α}
    {tr : List (σ × α)} {s s' : σ} (h : Exec M tr s) (hok : Meets (fun s a => ok s a = true) tr)
    (hrun : M.runIf ok as s = some s') :
    ∃ tr', Exec M tr' s' ∧ Meets (fun s a => ok s a = true) tr' := by
  induction as generalizing tr s with
  | nil =>
      simp only [System.runIf, Option.some.injEq] at hrun
      exact ⟨tr, hrun ▸ h, hok⟩
  | cons a as ih =>
      simp only [System.runIf] at hrun
      split at hrun
      · rename_i ha
        obtain ⟨t, ht, hrest⟩ := Option.bind_eq_some_iff.mp hrun
        exact ih (h.step ht) (meets_snoc.mpr ⟨hok, ha⟩) hrest
      · cases hrun

/-- A computed run is a run, and its steps satisfy what was checked on the way. -/
theorem Exec.of_runIf {M : System σ α} {ok : σ → α → Bool} {as : List α} {s : σ}
    (h : M.runIf ok as M.init = some s) :
    ∃ tr, Exec M tr s ∧ Meets (fun s a => ok s a = true) tr :=
  Exec.append_runIf .init (by simp) h

/-- A computed run goes on from a state that was reached to another one. -/
theorem Reachable.runIf {M : System σ α} {ok : σ → α → Bool} {as : List α} {s s' : σ}
    (h : Reachable M s) (hrun : M.runIf ok as s = some s') : Reachable M s' := by
  induction as generalizing s with
  | nil =>
      simp only [System.runIf, Option.some.injEq] at hrun
      exact hrun ▸ h
  | cons a as ih =>
      simp only [System.runIf] at hrun
      split at hrun
      · obtain ⟨t, ht, hrest⟩ := Option.bind_eq_some_iff.mp hrun
        exact ih (h.step ht) hrest
      · cases hrun

theorem Exec.of_run {M : System σ α} {as : List α} {s : σ} (h : M.run as = some s) :
    ∃ tr, Exec M tr s := by
  obtain ⟨tr, htr, -⟩ := Exec.of_runIf h
  exact ⟨tr, htr⟩

/-! ## What is bound to come -/

/-- From the state, every run that goes on as long as it can comes to a state with
    `P`. -/
inductive Inevitable (M : System σ α) (P : σ → Prop) : σ → Prop
  | now {s : σ} (h : P s) : Inevitable M P s
  | later {s : σ} (hstep : ∃ a s', M.step a s = some s')
      (hall : ∀ a s', M.step a s = some s' → Inevitable M P s') : Inevitable M P s

/-- Where there is always a step before `P`, and every step decreases a measure, `P`
    is bound to come. -/
theorem Inevitable.of_wellFounded {M : System σ α} {P I : σ → Prop} {r : β → β → Prop}
    (hwf : WellFounded r) (μ : σ → β) (hprogress : ∀ s, I s → P s ∨ ∃ a s', M.step a s = some s')
    (hstep : ∀ s a s', I s → ¬ P s → M.step a s = some s' → I s' ∧ r (μ s') (μ s)) {s : σ}
    (h : I s) : Inevitable M P s := by
  induction hm : μ s using hwf.induction generalizing s with
  | _ m ih =>
      by_cases hP : P s
      · exact .now hP
      · refine .later ((hprogress s h).resolve_left hP) ?_
        intro a s' hs
        obtain ⟨hI, hlt⟩ := hstep s a s' h hP hs
        exact ih (μ s') (hm ▸ hlt) hI rfl

/-- What is bound to come and has not come yet is bound to come after any step. -/
theorem Inevitable.step {M : System σ α} {P : σ → Prop} {s s' : σ} {a : α}
    (h : Inevitable M P s) (hnot : ¬ P s) (hs : M.step a s = some s') : Inevitable M P s' := by
  cases h with
  | now hP => exact absurd hP hnot
  | later _ hall => exact hall a s' hs

/-- What is bound to come comes in some run. -/
theorem Inevitable.exec {M : System σ α} {P : σ → Prop} {s : σ} (h : Inevitable M P s)
    {tr : List (σ × α)} (hexec : Exec M tr s) : ∃ tr' t, Exec M tr' t ∧ P t := by
  induction h generalizing tr with
  | now hP => exact ⟨tr, _, hexec, hP⟩
  | later hstep _ ih =>
      obtain ⟨a, s', hs⟩ := hstep
      exact ih a s' hs (hexec.step hs)

/-- What every run that comes to `P` has there is bound to come with it. -/
theorem Inevitable.mono {M : System σ α} {P Q : σ → Prop} {s : σ} (h : Inevitable M P s)
    (himp : ∀ t, Reachable M t → P t → Q t) (hreach : Reachable M s) : Inevitable M Q s := by
  induction h with
  | now hP => exact .now (himp _ hreach hP)
  | later hstep _ ih => exact .later hstep fun a s' hs => ih a s' hs (hreach.step hs)

/-- In states without `P` that no step leaves, `P` never comes. -/
theorem not_inevitable {M : System σ α} {P T : σ → Prop} (hdisjoint : ∀ s, T s → ¬ P s)
    (hstep : ∀ s a s', T s → M.step a s = some s' → T s') {s : σ} (h : T s) :
    ¬ Inevitable M P s := by
  intro hev
  induction hev with
  | now hP => exact hdisjoint _ h hP
  | later hex _ ih =>
      obtain ⟨a, s', hs⟩ := hex
      exact ih a s' hs (hstep _ a s' h hs)

/-! ## What may come -/

/-- From the state, some run on comes to a state with `P`. -/
inductive Possible (M : System σ α) (P : σ → Prop) : σ → Prop
  | now {s : σ} (h : P s) : Possible M P s
  | later {s s' : σ} {a : α} (hs : M.step a s = some s') (h : Possible M P s') : Possible M P s

/-- What an invariant has kept up to `P` is there with it. -/
theorem Possible.invariant {M : System σ α} {P I : σ → Prop}
    (hstep : ∀ s a s', I s → M.step a s = some s' → I s') {s : σ} (h : Possible M P s)
    (hI : I s) : ∃ t, I t ∧ P t := by
  induction h with
  | now hP => exact ⟨_, hI, hP⟩
  | later hs _ ih => exact ih (hstep _ _ _ hI hs)

/-- Where `P` may come, and from there `Q`, `Q` may come. -/
theorem Possible.bind {M : System σ α} {P Q : σ → Prop} {s : σ} (h : Possible M P s)
    (hreach : Reachable M s) (hQ : ∀ t, Reachable M t → P t → Possible M Q t) :
    Possible M Q s := by
  induction h with
  | now hP => exact hQ _ hreach hP
  | later hs _ ih => exact .later hs (ih (hreach.step hs))

/-- Where some step leads to `P` or decreases a measure, `P` may come. -/
theorem Possible.of_measure {M : System σ α} {P I : σ → Prop} (μ : σ → Nat)
    (hstep : ∀ s, I s → P s ∨ ∃ a s', M.step a s = some s' ∧ (P s' ∨ I s' ∧ μ s' < μ s)) {s : σ}
    (h : I s) : Possible M P s := by
  induction hm : μ s using Nat.strongRecOn generalizing s with
  | _ m ih =>
      rcases hstep s h with hP | ⟨a, s', hs, hP | ⟨hI, hlt⟩⟩
      · exact .now hP
      · exact .later hs (.now hP)
      · exact .later hs (ih (μ s') (hm ▸ hlt) hI rfl)

/-! ## Refinement -/

/-- A refinement of `N` by the steps of `M` that satisfy `ok`: under an
    invariant, each of them is either invisible to `abs` or a step of `N`. -/
structure Refinement (M : System σ α) (N : System τ β) (ok : σ → α → Prop) where
  abs : σ → τ
  inv : σ → Prop
  inv_init : inv M.init
  inv_step : ∀ s a s', inv s → ok s a → M.step a s = some s' → inv s'
  abs_init : abs M.init = N.init
  abs_step : ∀ s a s', inv s → ok s a → M.step a s = some s' →
    abs s' = abs s ∨ ∃ b, N.step b (abs s) = some (abs s')

/-- A run of the concrete system is, seen through `abs`, a run of the abstract one. -/
theorem Refinement.exec {M : System σ α} {N : System τ β} {ok : σ → α → Prop}
    (R : Refinement M N ok) {tr : List (σ × α)} {s : σ} (h : Exec M tr s) (hok : Meets ok tr) :
    ∃ tr', Exec N tr' (R.abs s) := by
  induction h with
  | init => exact ⟨[], R.abs_init ▸ .init⟩
  | step hexec hs ih =>
      obtain ⟨htr, ha⟩ := meets_snoc.mp hok
      obtain ⟨tr', htr'⟩ := ih htr
      have hinv := hexec.invariant R.inv_init R.inv_step htr
      -- an invisible step leaves the abstract run as it is
      rcases R.abs_step _ _ _ hinv ha hs with heq | ⟨b, hb⟩
      · exact ⟨tr', heq ▸ htr'⟩
      · exact ⟨_, htr'.step hb⟩

/-- An invariant of the abstract system holds, seen through `abs`, in every state
    that a run of the concrete one passes through. -/
theorem Refinement.invariant_visited {M : System σ α} {N : System τ β} {ok : σ → α → Prop}
    (R : Refinement M N ok) {I : τ → Prop} (hinit : I N.init)
    (hstep : ∀ t b t', I t → N.step b t = some t' → I t')
    {tr : List (σ × α)} {s : σ} (h : Exec M tr s) (hok : Meets ok tr) :
    ∀ t ∈ visited tr s, I (R.abs t) := by
  intro t ht
  obtain ⟨tr', hpre, hexec⟩ := h.prefix ht
  obtain ⟨tr'', habs⟩ := R.exec hexec (hok.mono hpre)
  exact habs.invariant_all hinit hstep

/-! ## Simulation -/

/-- A simulation of the steps of `M` that satisfy `ok` by `N`: when the first of two
    related states takes a step, the second is related to where it leads, or has a
    step to answer it with. -/
structure Simulation (M : System σ α) (N : System τ β) (ok : σ → α → Prop) where
  rel : σ → τ → Prop
  rel_init : rel M.init N.init
  rel_step : ∀ s t a s', rel s t → ok s a → M.step a s = some s' →
    rel s' t ∨ ∃ b t', N.step b t = some t' ∧ rel s' t'

/-- A run of the concrete system is accompanied by one of the abstract one. -/
theorem Simulation.exec {M : System σ α} {N : System τ β} {ok : σ → α → Prop}
    (R : Simulation M N ok) {tr : List (σ × α)} {s : σ} (h : Exec M tr s) (hok : Meets ok tr) :
    ∃ t, Reachable N t ∧ R.rel s t := by
  induction h with
  | init => exact ⟨N.init, ⟨[], .init⟩, R.rel_init⟩
  | step _ hs ih =>
      obtain ⟨htr, ha⟩ := meets_snoc.mp hok
      obtain ⟨t, ht, hrel⟩ := ih htr
      rcases R.rel_step _ _ _ _ hrel ha hs with hsame | ⟨b, t', hb, hnext⟩
      · exact ⟨t, ht, hsame⟩
      · exact ⟨t', ht.step hb, hnext⟩

end IpcWin.Lib
