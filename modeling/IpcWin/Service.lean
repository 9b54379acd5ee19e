/-
  IpcWin.Service

  What a transport with many clients is for: one service, called one call at a
  time in an order that is the same for all.

  A call takes effect at the instant when the server's builder is handed it; the
  reply is owed to the client from then on and handed over later, while other
  clients are served.  Nothing here says how the bytes travel.  Any number of
  pipe clients with one server are shown to be simulated by this system,
  `Pipes.simulatesService`.
-/

import Mathlib.Logic.Function.Basic
import IpcWin.Calls

namespace IpcWin

open IpcWin.Lib IpcWin.Wire

variable {ι : Type*} [DecidableEq ι]

/-- The requests served, each with the client it came from, the reply that is owed to
    a client, and the replies that its builder has been handed. -/
structure Service (ι : Type*) where
  log : List (ι × Received)
  owed : ι → Option Packet
  handed : ι → List Received

/-- What the server's builder has been handed. -/
def Service.received (s : Service ι) : List Received := s.log.map Prod.snd

/-- The two halves of a call of the client `i`. -/
inductive ServiceCall (ι : Type*) where
  | serve (i : ι)
  | answer (i : ι)

/-- The next request of `i` is served. -/
def Service.serve (request : ι → Nat → Packet) (builder : List Received → Packet) (i : ι)
    (s : Service ι) : Service ι :=
  let log := s.log ++ [(i, (request i (s.handed i).length).received)]
  { s with log := log, owed := Function.update s.owed i (some (builder (log.map Prod.snd))) }

/-- `i` is handed the reply `q`. -/
def Service.answer (i : ι) (q : Packet) (s : Service ι) : Service ι :=
  { s with
    owed := Function.update s.owed i none
    handed := Function.update s.handed i (s.handed i ++ [q.received]) }

/-- One call at a time, from any client that is not owed a reply. -/
def service (request : ι → Nat → Packet) (builder : List Received → Packet) :
    System (Service ι) (ServiceCall ι) where
  init := { log := [], owed := fun _ => none, handed := fun _ => [] }
  step
    | .serve i, s =>
        match s.owed i with
        | none => some (s.serve request builder i)
        | some _ => none
    | .answer i, s => (s.owed i).map fun q => s.answer i q

/-! ## What every client can rely on -/

/-- Every client has had its requests served once each and in turn, and has been
    handed a reply to each but the last, if that is still owed. -/
structure Service.InTurn (request : ι → Nat → Packet) (s : Service ι) : Prop where
  served : ∀ i, (s.log.filter fun e => e.1 = i).map Prod.snd =
    (List.range ((s.handed i).length + (s.owed i).toList.length)).map
      fun k => (request i k).received

/-- The replies that have been handed over, and those that are owed, are as they should
    be: `P i k q` says so of `q` as the reply to the `k`-th request of `i`. -/
structure Service.Right (request : ι → Nat → Packet) (P : ι → Nat → Packet → Prop)
    (s : Service ι) : Prop where
  inTurn : s.InTurn request
  handed : ∀ i k r, (s.handed i)[k]? = some r → ∃ q, P i k q ∧ r = q.received
  owed : ∀ i q, s.owed i = some q → P i (s.handed i).length q

namespace Service

variable {request : ι → Nat → Packet} {builder : List Received → Packet} {s s' : Service ι}

/-- A step of the service serves a client that is owed nothing, or answers one that
    is owed a reply. -/
theorem step_cases {a : ServiceCall ι} (h : (service request builder).step a s = some s') :
    (∃ i, s.owed i = none ∧ s' = s.serve request builder i) ∨
      ∃ i q, s.owed i = some q ∧ s' = s.answer i q := by
  cases a with
  | serve i =>
      simp only [service] at h
      split at h
      · exact .inl ⟨i, ‹_›, (Option.some.inj h).symm⟩
      · cases h
  | answer i =>
      obtain ⟨q, hq, rfl⟩ := Option.map_eq_some_iff.mp h
      exact .inr ⟨i, q, hq, rfl⟩

/-- What is in the log of one client after one more entry. -/
theorem filter_log_snoc (log : List (ι × Received)) (i j : ι) (r : Received) :
    ((log ++ [(j, r)]).filter fun e => e.1 = i).map Prod.snd =
      (log.filter fun e => e.1 = i).map Prod.snd ++ if j = i then [r] else [] := by
  rw [List.filter_append, List.map_append]
  by_cases hji : j = i
  · simp [hji]
  · simp [hji]

theorem inTurn_init : (service request builder).init.InTurn request := ⟨fun _ => rfl⟩

theorem inTurn_step {a : ServiceCall ι} (h : s.InTurn request)
    (hs : (service request builder).step a s = some s') : s'.InTurn request := by
  rcases step_cases hs with ⟨i, howed, rfl⟩ | ⟨i, q, howed, rfl⟩
  · refine ⟨?_⟩
    intro j
    have hserved := h.served j
    rw [serve, filter_log_snoc, hserved]
    by_cases hij : i = j
    · subst hij
      simp [howed, List.range_succ]
    · simp [hij, Function.update_of_ne (Ne.symm hij)]
  · refine ⟨?_⟩
    intro j
    have hserved := h.served j
    show (s.log.filter _).map _ = _
    rw [hserved, answer]
    by_cases hij : i = j
    · subst hij
      simp [howed]
    · simp [Function.update_of_ne (Ne.symm hij)]

/-- What has been served are requests that clients made. -/
theorem InTurn.requests (h : s.InTurn request) {r : Received} (hr : r ∈ s.received) :
    ∃ i k, r = (request i k).received := by
  obtain ⟨⟨i, r⟩, hmem, rfl⟩ := List.mem_map.mp hr
  have hown : r ∈ (s.log.filter fun e => e.1 = i).map Prod.snd :=
    List.mem_map.mpr ⟨(i, r), List.mem_filter.mpr ⟨hmem, by simp⟩, rfl⟩
  rw [h.served i] at hown
  obtain ⟨k, -, rfl⟩ := List.mem_map.mp hown
  exact ⟨i, k, rfl⟩

/-- A builder whose replies are as they should be, whatever requests of the clients it has
    been handed before. -/
def Fitting (request : ι → Nat → Packet) (builder : List Received → Packet)
    (P : ι → Nat → Packet → Prop) : Prop :=
  ∀ rs i k, (∀ r ∈ rs, ∃ j l, r = (request j l).received) →
    P i k (builder (rs ++ [(request i k).received]))

/-- A builder whose reply depends on no more than the last request, as long as it is
    handed requests that clients make. -/
def Pointwise (request : ι → Nat → Packet) (builder : List Received → Packet)
    (reply : Packet → Packet) : Prop :=
  ∀ rs i k, (∀ r ∈ rs, ∃ j l, r = (request j l).received) →
    builder (rs ++ [(request i k).received]) = reply (request i k)

variable {P : ι → Nat → Packet → Prop}

theorem right_init : (service request builder).init.Right request P :=
  ⟨@inTurn_init _ _ _ builder, fun _ _ _ h => (by cases h), fun _ _ h => (by cases h)⟩

theorem right_step (hb : Fitting request builder P) {a : ServiceCall ι}
    (h : s.Right request P) (hs : (service request builder).step a s = some s') :
    s'.Right request P := by
  have hturn := inTurn_step h.inTurn hs
  rcases step_cases hs with ⟨i, -, rfl⟩ | ⟨i, q, howed, rfl⟩
  · refine ⟨hturn, h.handed, ?_⟩
    intro j q hq
    by_cases hij : j = i
    · subst hij
      have hq' : builder ((s.log ++ [(j, (request j (s.handed j).length).received)]).map
          Prod.snd) = q := by simpa [serve] using hq
      rw [← hq', List.map_append]
      exact hb _ _ _ fun r hr => h.inTurn.requests hr
    · simp only [serve, Function.update_of_ne hij] at hq
      exact h.owed j q hq
  · refine ⟨hturn, ?_, ?_⟩
    · intro j k r hr
      by_cases hij : j = i
      · subst hij
        simp only [answer, Function.update_self] at hr
        -- it is one of the earlier replies, or the one that was owed
        rcases Nat.lt_or_ge k (s.handed j).length with hlt | hge
        · rw [List.getElem?_append_left hlt] at hr
          exact h.handed j k r hr
        · rw [List.getElem?_append_right hge, List.getElem?_singleton] at hr
          split_ifs at hr with hk
          have hk' : k = (s.handed j).length := by omega
          exact ⟨q, hk' ▸ h.owed j q howed, (Option.some.inj hr).symm⟩
      · simp only [answer, Function.update_of_ne hij] at hr
        exact h.handed j k r hr
    · intro j p hp
      by_cases hij : j = i
      · subst hij
        simp [answer] at hp
      · simp only [answer, Function.update_of_ne hij] at hp ⊢
        exact h.owed j p hp

/-- Whatever the other clients ask, the replies that each is handed are as they should
    be. -/
theorem right_of_reachable (hb : Fitting request builder P)
    (h : Reachable (service request builder) s) : s.Right request P :=
  h.invariant right_init fun _ _ _ hI hs => right_step hb hI hs

/-- Where the reply depends on the request alone, each is handed the replies to its own
    requests. -/
theorem handed_of_pointwise {reply : Packet → Packet} (hb : Pointwise request builder reply)
    (h : Reachable (service request builder) s) (i : ι) :
    s.handed i =
      (List.range (s.handed i).length).map fun k => (reply (request i k)).received := by
  have hright : s.Right request fun i k q => q = reply (request i k) := right_of_reachable hb h
  apply List.ext_getElem?
  intro k
  rw [List.getElem?_map]
  cases hk : (s.handed i)[k]? with
  | none =>
      rw [List.getElem?_eq_none (by simpa using List.getElem?_eq_none_iff.mp hk)]
      rfl
  | some r =>
      obtain ⟨q, hq, rfl⟩ := hright.handed i k r hk
      obtain ⟨hlt, -⟩ := List.getElem?_eq_some_iff.mp hk
      rw [List.getElem?_range hlt, Option.map_some, hq]

theorem inTurn_of_reachable (h : Reachable (service request builder) s) : s.InTurn request :=
  h.invariant inTurn_init fun _ _ _ hI hs => inTurn_step hI hs

end Service

end IpcWin
