/-
  IpcWin.Messaging.Losses

  Which requests of messaging mode are lost.

  A call is lost where it comes before the handle of the dispatcher's window has
  been assigned, and the handle is never cleared.  So in every state that the
  client reaches, the calls that have returned are some that sent nothing and,
  behind them, some that each sent their size to the server (`lost_first`); and
  from the assignment on any number of calls is bound to be delivered
  (`deliveries_inevitable`).  Without `-r` there is no dispatcher, and nothing is
  sent at all.
-/

import Mathlib.Data.List.Range
import IpcWin.Messaging.Dispatcher

namespace IpcWin.Messaging

open IpcWin.Lib IpcWin.Wire

/-- What the `i`-th call leaves behind if it is lost. -/
def Config.lost (cfg : Config) (i : Nat) : Word × List CopyData := (cfg.reqSize i, [])

/-- What the `i`-th call leaves behind if it is delivered. -/
def Config.delivered (cfg : Config) (i : Nat) : Word × List CopyData :=
  (cfg.reqSize i, [⟨.server, cfg.reqSize i⟩])

section

variable {cfg : Config} {s s' : State}

/-! ## The handle -/

/-- The main thread never writes the handle, and waits only where it is set. -/
theorem mainStep_window (h : s.mainStep cfg = some s') :
    s'.mMessageDispatcherWindow = s.mMessageDispatcherWindow ∧ s'.main ≠ .createThread ∧
      (s'.main = .sending → s'.mMessageDispatcherWindow = .dispatcher) ∧
      (s.main ≠ .createThread → s'.thread = s.thread) := by
  unfold State.mainStep at h
  cases hmain : s.main with
  | createThread | findWindow | setSize | clearSend =>
      simp only [hmain, Option.some.injEq] at h
      subst h
      simp
  | sendCommand =>
      simp only [hmain] at h
      split at h
      · rename_i hw
        obtain rfl := Option.some.inj h
        exact ⟨rfl, by simp, fun _ => hw, fun _ => rfl⟩
      all_goals
        obtain rfl := Option.some.inj h
        exact ⟨rfl, by simp [State.returned], by simp [State.returned], fun _ => rfl⟩
  | sending =>
      simp only [hmain] at h
      split at h
      · obtain rfl := Option.some.inj h
        exact ⟨rfl, by simp [State.returned], by simp [State.returned], fun _ => rfl⟩
      all_goals cases h

/-- The dispatcher's thread has been created where it takes a step, and never clears the
    handle. -/
theorem threadStep_window (h : s.threadStep cfg = some s') :
    s'.main = s.main ∧ s.thread ≠ .notCreated ∧
      (s.mMessageDispatcherWindow = .dispatcher →
        s'.mMessageDispatcherWindow = .dispatcher) := by
  unfold State.threadStep at h
  cases hthread : s.thread with
  | notCreated => simp [hthread] at h
  | registerClass | createWindow | assignWindow | fillData | sendData | markSent =>
      simp only [hthread, Option.some.injEq] at h
      subst h
      simp
  | getMessage =>
      simp only [hthread] at h
      split at h
      · split_ifs at h
        all_goals
          obtain rfl := Option.some.inj h
          exact ⟨rfl, by simp, id⟩
      all_goals cases h
  | findTarget =>
      simp only [hthread] at h
      split_ifs at h
      all_goals
        obtain rfl := Option.some.inj h
        exact ⟨rfl, by simp, id⟩

/-! ## What the calls have sent -/

/-- The calls that have returned: first some that are lost, and behind them, only if the
    handle is set, some that are delivered. -/
def Split (cfg : Config) (s : State) : Prop :=
  ∃ n m, s.calls = (List.range n).map cfg.lost ++ (List.range' n m).map cfg.delivered ∧
    (s.mMessageDispatcherWindow ≠ .dispatcher → m = 0)

/-- What holds in every state of the client while the server's window exists. -/
structure Losing (cfg : Config) (s : State) : Prop where
  inv : Inv cfg s
  waits : s.main = .sending → s.mMessageDispatcherWindow = .dispatcher
  alone : cfg.reuse = false →
    s.main ≠ .createThread ∧ s.thread = .notCreated ∧ s.mMessageDispatcherWindow ≠ .dispatcher
  split : Split cfg s

theorem Losing.init (cfg : Config) : Losing cfg (State.init cfg) := by
  refine ⟨.init cfg, ?_, ?_, 0, 0, rfl, fun _ => rfl⟩
  · cases hreuse : cfg.reuse <;> simp [State.init, hreuse]
  · intro hreuse
    simp [State.init, hreuse]

/-- A call that finds no window is lost. -/
theorem Split.lose (h : Split cfg s) (hsent : s.sent = [])
    (hw : s.mMessageDispatcherWindow ≠ .dispatcher) : Split cfg (s.returned cfg) := by
  obtain ⟨n, m, hcalls, hm⟩ := h
  obtain rfl := hm hw
  refine ⟨n + 1, 0, ?_, fun _ => rfl⟩
  simp [State.returned, State.reqSize, hsent, hcalls, List.range_succ, Config.lost]

/-- A call that is answered has been delivered. -/
theorem Split.deliver (h : Split cfg s) (hsent : s.sent = s.due cfg)
    (hw : s.mMessageDispatcherWindow = .dispatcher) : Split cfg (s.returned cfg) := by
  obtain ⟨n, m, hcalls, -⟩ := h
  refine ⟨n, m + 1, ?_, fun hnot => absurd hw hnot⟩
  simp [State.returned, State.due, State.reqSize, hsent, hcalls, List.range'_1_concat,
    Config.delivered]

theorem Losing.mainStep (hserver : cfg.serverWindow = true) (hI : Losing cfg s)
    (h : s.mainStep cfg = some s') : Losing cfg s' := by
  obtain ⟨hwindow, hcreate, hwaits, hthread⟩ := mainStep_window h
  refine ⟨hI.inv.mainStep hserver h, hwaits, ?_, ?_⟩
  · intro hreuse
    obtain ⟨hmain, hnot, hnull⟩ := hI.alone hreuse
    exact ⟨hcreate, (hthread hmain).trans hnot, hwindow ▸ hnull⟩
  · rcases mainStep_calls h with ⟨hcalls, -⟩ | ⟨rfl, ⟨hmain, hw⟩ | ⟨hmain, hc⟩⟩
    · simpa only [Split, hcalls, hwindow] using hI.split
    · obtain ⟨-, -, hsent⟩ := hI.inv.idle (by simp [hmain])
      exact hI.split.lose hsent hw
    · have hcmd := hI.inv.command
      simp only [CommandStage, hc] at hcmd
      exact hI.split.deliver hcmd.2.2 (hI.waits hmain)

theorem Losing.threadStep (hserver : cfg.serverWindow = true) (hI : Losing cfg s)
    (h : s.threadStep cfg = some s') : Losing cfg s' := by
  obtain ⟨hmain, hcreated, hwindow⟩ := threadStep_window h
  have hwaits : s'.main = .sending → s'.mMessageDispatcherWindow = .dispatcher :=
    fun hsending => hwindow (hI.waits (hmain ▸ hsending))
  refine ⟨hI.inv.threadStep hserver h, hwaits, ?_, ?_⟩
  · intro hreuse
    exact absurd (hI.alone hreuse).2.1 hcreated
  · obtain ⟨n, m, hcalls, hm⟩ := hI.split
    exact ⟨n, m, (threadStep_calls h).1.trans hcalls, fun hnot => hm fun hw => hnot (hwindow hw)⟩

theorem Losing.of_reachable (hserver : cfg.serverWindow = true)
    (h : Reachable (messaging cfg) s) : Losing cfg s := by
  refine h.invariant (.init cfg) ?_
  rintro t a t' hI hs
  cases a with
  | main => exact hI.mainStep hserver hs
  | dispatcher => exact hI.threadStep hserver hs

/-! ## From the assignment on -/

/-- Since the state `s` the calls have been delivered. -/
structure Delivering (cfg : Config) (s t : State) : Prop where
  inv : Inv cfg t
  window : t.mMessageDispatcherWindow = .dispatcher
  calls : ∃ m, t.calls = s.calls ++ (List.range' s.calls.length m).map cfg.delivered

theorem Delivering.step (hserver : cfg.serverWindow = true) {t t' : State} {a : Thread}
    (h : Delivering cfg s t) (hs : (messaging cfg).step a t = some t') :
    Delivering cfg s t' := by
  refine ⟨h.inv.step hserver hs, ?_, ?_⟩
  · cases a with
    | main => exact (mainStep_window hs).1.trans h.window
    | dispatcher => exact (threadStep_window hs).2.2 h.window
  · obtain ⟨m, hcalls⟩ := h.calls
    cases a with
    | dispatcher => exact ⟨m, (threadStep_calls hs).1.trans hcalls⟩
    | main =>
        rcases mainStep_calls hs with ⟨heq, -⟩ | ⟨rfl, ⟨-, hw⟩ | ⟨-, hc⟩⟩
        · exact ⟨m, heq.trans hcalls⟩
        · exact absurd h.window hw
        · have hcmd := h.inv.command
          simp only [CommandStage, hc] at hcmd
          refine ⟨m + 1, ?_⟩
          simp [State.returned, State.reqSize, hcmd.2.2, State.due, hcalls, List.range'_1_concat,
            Config.delivered]

end

/-- While the server's window exists, in every state the calls that are lost are the first
    ones and the rest have each sent their size to the server; none is delivered before the
    handle is set, and without `-r` none ever. -/
theorem lost_first {cfg : Config} (hserver : cfg.serverWindow = true) {s : State}
    (h : Reachable (messaging cfg) s) :
    ∃ n m, s.calls = (List.range n).map cfg.lost ++ (List.range' n m).map cfg.delivered ∧
      (s.mMessageDispatcherWindow ≠ .dispatcher → m = 0) ∧ (cfg.reuse = false → m = 0) := by
  have hI := Losing.of_reachable hserver h
  obtain ⟨n, m, hcalls, hm⟩ := hI.split
  exact ⟨n, m, hcalls, hm, fun hreuse => hm (hI.alone hreuse).2.2⟩

/-- Once the handle is set any number of calls is bound to be made, each of them
    delivered. -/
theorem deliveries_inevitable {cfg : Config} (hserver : cfg.serverWindow = true) {s : State}
    (h : Reachable (messaging cfg) s) (hw : s.mMessageDispatcherWindow = .dispatcher) (k : Nat) :
    Inevitable (messaging cfg)
      (fun t => ∃ m, k ≤ m ∧
        t.calls = s.calls ++ (List.range' s.calls.length m).map cfg.delivered) s := by
  -- a step brings the current call forward, or there is one call less to come
  refine Inevitable.of_wellFounded (I := Delivering cfg s)
    (Prod.lex Nat.lt_wfRel Nat.lt_wfRel).wf
    (fun t => (s.calls.length + k - t.calls.length, t.left)) ?_ ?_
    ⟨(Losing.of_reachable hserver h).inv, hw, 0, by simp⟩
  · intro t ht
    right
    rcases ht.inv.progress with ⟨t', ht'⟩ | ⟨t', ht'⟩
    · exact ⟨.main, t', ht'⟩
    · exact ⟨.dispatcher, t', ht'⟩
  · intro t a t' ht hnot hs
    refine ⟨ht.step hserver hs, ?_⟩
    obtain ⟨m, hcalls⟩ := ht.calls
    have hlen : t.calls.length = s.calls.length + m := by simp [hcalls]
    have hlt : m < k := by
      by_contra hle
      exact hnot ⟨m, Nat.le_of_not_lt hle, hcalls⟩
    rcases step_calls hs with ⟨heq, hleft⟩ | hmore
    · rw [heq]
      exact Prod.Lex.right _ hleft
    · apply Prod.Lex.left
      show s.calls.length + k - t'.calls.length < s.calls.length + k - t.calls.length
      omega

/-- The first request goes out before the thread has run, the second one after it. -/
def Thread.lateWindow : List Thread :=
  [.main, .main, .main, .main, .main, .dispatcher, .dispatcher, .dispatcher] ++ Thread.request

theorem lateWindow_lost_first :
    ∃ s, Reachable (messaging hundredKb) s ∧
      s.calls = [(102400, []), (102400, [⟨.server, 102400⟩])] ∧
      ∃ n m, s.calls = (List.range n).map hundredKb.lost ++
          (List.range' n m).map hundredKb.delivered ∧
        (s.mMessageDispatcherWindow ≠ .dispatcher → m = 0) ∧
        (hundredKb.reuse = false → m = 0) := by
  have hrun : ∃ s, (messaging hundredKb).run Thread.lateWindow = some s ∧
      s.calls = [(102400, []), (102400, [⟨.server, 102400⟩])] := ⟨_, rfl, rfl⟩
  obtain ⟨s, hs, hcalls⟩ := hrun
  exact ⟨s, Exec.of_run hs, hcalls, lost_first rfl (Exec.of_run hs)⟩

theorem lateWindow_deliveries_inevitable :
    ∃ s, Reachable (messaging hundredKb) s ∧ s.calls.length = 2 ∧
      Inevitable (messaging hundredKb)
        (fun t => ∃ m, 1000 ≤ m ∧
          t.calls = s.calls ++ (List.range' s.calls.length m).map hundredKb.delivered) s := by
  have hrun : ∃ s, (messaging hundredKb).run Thread.lateWindow = some s ∧
      s.calls.length = 2 ∧ s.mMessageDispatcherWindow = .dispatcher := ⟨_, rfl, rfl, rfl⟩
  obtain ⟨s, hs, hlen, hw⟩ := hrun
  exact ⟨s, Exec.of_run hs, hlen, deliveries_inevitable rfl (Exec.of_run hs) hw 1000⟩

end IpcWin.Messaging
