/-
  IpcWin.Messaging.Dispatcher

  Messaging mode of `NativeClient/NativeClient.cpp`: `makeWindowsMessageRequest`
  on the main thread, and `WinThreadProc` with the window procedure and
  `OnCommand` on the thread that `RegisterDispatcherWindow` starts.

  The main thread sends a command to the window of the other thread, which sends
  the `WM_COPYDATA`.  Nothing makes the main thread wait until there is such a
  window: it reads the handle from a global that is NULL until `CreateWindowEx`
  has returned on the other thread.  A request that finds it NULL is lost, and
  only such a request is (`exactlyOnce_iff_windowAssigned`).
-/

import IpcWin.Lib.Transition
import IpcWin.Wire.Format

namespace IpcWin.Messaging

open IpcWin.Lib IpcWin.Wire

/-! ## The two threads and their globals -/

/-- `HWND`: NULL, or one of the two windows there are. -/
inductive Hwnd where
  | null
  | dispatcher
  | server
deriving DecidableEq, Repr

/-- A `WM_COPYDATA`: the window it is sent to, and `cds.cbData`. -/
structure CopyData where
  target : Hwnd
  cbData : Word
deriving DecidableEq, Repr

/-- The client's `-r` flag, whether the server's window exists, and the `req_size`
    of each call of `makeWindowsMessageRequest`. -/
structure Config where
  reuse : Bool
  serverWindow : Bool
  reqSize : Nat → Word

/-- `FindWindow(NULL, L"CppReceiveWM_COPYDATA")`. -/
def Config.findWindow (cfg : Config) : Hwnd := if cfg.serverWindow then .server else .null

/-- `IDC_SENDMSG_BUTTON`. -/
def idcSendmsgButton : Nat := 1001

/-- What the main thread does next: the calls of `RegisterDispatcherWindow`, and
    those of `makeWindowsMessageRequest`; in `sending` it waits for `SendMessage`. -/
inductive MainPc where
  | createThread
  | findWindow
  | setSize
  | clearSend
  | sendCommand
  | sending
deriving DecidableEq, Repr

/-- What `WinThreadProc` does next, `OnCommand` included. -/
inductive ThreadPc where
  | notCreated
  | registerClass
  | createWindow
  | assignWindow
  | getMessage
  | findTarget
  | fillData
  | sendData (cbData : Word)
  | markSent
deriving DecidableEq, Repr

/-- The `WM_COMMAND` that the main thread has sent: none, one with a `wParam` that
    the other thread has not taken, one in its window procedure, or one whose
    window procedure has returned. -/
inductive Command where
  | idle
  | pending (wParam : Nat)
  | running
  | answered
deriving DecidableEq, Repr

/-- Both threads, the globals, and what the calls have sent: `sent` is that of the
    current call, `calls` has the `req_size` and the messages of the earlier ones. -/
structure State where
  main : MainPc
  thread : ThreadPc
  mMessageDispatcherWindow : Hwnd
  hTargetWnd : Hwnd
  currentReqSize : Word
  messageSend : Bool
  command : Command
  sent : List CopyData
  calls : List (Word × List CopyData)
deriving DecidableEq, Repr

/-- `_tmain` calls `RegisterDispatcherWindow` with `-r` only. -/
def State.init (cfg : Config) : State where
  main := if cfg.reuse then .createThread else .setSize
  thread := .notCreated
  mMessageDispatcherWindow := .null
  hTargetWnd := .null
  currentReqSize := 0
  messageSend := false
  command := .idle
  sent := []
  calls := []

/-- The `req_size` of the current call. -/
def State.reqSize (cfg : Config) (s : State) : Word := cfg.reqSize s.calls.length

/-- `makeWindowsMessageRequest` returns. -/
def State.returned (cfg : Config) (s : State) : State :=
  { s with
    main := .setSize, command := .idle, sent := [], calls := s.calls ++ [(s.reqSize cfg, s.sent)] }

/-- A step of `RegisterDispatcherWindow` or `makeWindowsMessageRequest`. -/
def State.mainStep (cfg : Config) (s : State) : Option State :=
  match s.main with
  | .createThread => some { s with main := .findWindow, thread := .registerClass }
  | .findWindow => some { s with main := .setSize, hTargetWnd := cfg.findWindow }
  | .setSize => some { s with main := .clearSend, currentReqSize := s.reqSize cfg }
  | .clearSend => some { s with main := .sendCommand, messageSend := false }
  | .sendCommand =>
      match s.mMessageDispatcherWindow with
      | .dispatcher => some { s with main := .sending, command := .pending idcSendmsgButton }
      -- a `SendMessage` that no window of this program gets returns at once
      | .null | .server => some (s.returned cfg)
  | .sending =>
      match s.command with
      | .answered => some (s.returned cfg)
      | .idle | .pending _ | .running => none

/-- A step of `WinThreadProc`, or of `OnCommand` within its `GetMessage`. -/
def State.threadStep (cfg : Config) (s : State) : Option State :=
  match s.thread with
  | .notCreated => none
  | .registerClass => some { s with thread := .createWindow }
  | .createWindow => some { s with thread := .assignWindow }
  | .assignWindow => some { s with thread := .getMessage, mMessageDispatcherWindow := .dispatcher }
  | .getMessage =>
      match s.command with
      | .pending id =>
          if id = idcSendmsgButton then some { s with thread := .findTarget, command := .running }
          else some { s with command := .answered }
      | .idle | .running | .answered => none
  | .findTarget =>
      let hTargetWnd :=
        if !cfg.reuse || s.hTargetWnd = .null then cfg.findWindow else s.hTargetWnd
      -- the message box, and `OnCommand` returns
      if hTargetWnd = .null then
        some { s with thread := .getMessage, hTargetWnd := hTargetWnd, command := .answered }
      else some { s with thread := .fillData, hTargetWnd := hTargetWnd }
  | .fillData => some { s with thread := .sendData s.currentReqSize }
  | .sendData cbData =>
      some { s with thread := .markSent, sent := s.sent ++ [⟨s.hTargetWnd, cbData⟩] }
  | .markSent => some { s with thread := .getMessage, messageSend := true, command := .answered }

/-- Which thread takes the next step. -/
inductive Thread where
  | main
  | dispatcher
deriving DecidableEq, Repr

/-- The client in messaging mode. -/
def messaging (cfg : Config) : System State Thread where
  init := State.init cfg
  step a s :=
    match a with
    | .main => s.mainStep cfg
    | .dispatcher => s.threadStep cfg

/-! ## What the calls should do, and when they do it -/

/-- Every call that has returned sent one `WM_COPYDATA`, to the server and with its
    `req_size`. -/
def ExactlyOnce (s : State) : Prop := ∀ c ∈ s.calls, c.2 = [⟨.server, c.1⟩]

instance (s : State) : Decidable (ExactlyOnce s) :=
  inferInstanceAs (Decidable (∀ c ∈ s.calls, c.2 = [⟨.server, c.1⟩]))

/-- Every call has sent its one message, and the call that comes next, or is under way, is
    bound to return. -/
structure Delivers (cfg : Config) (s : State) : Prop where
  exactlyOnce : ExactlyOnce s
  returns : Inevitable (messaging cfg) (fun t => s.calls.length < t.calls.length) s

/-- Where the main thread sends its command, the other thread has assigned the
    handle of its window. -/
def WindowAssigned (s : State) (a : Thread) : Prop :=
  a = .main → s.main = .sendCommand → s.mMessageDispatcherWindow = .dispatcher

instance (s : State) (a : Thread) : Decidable (WindowAssigned s a) :=
  inferInstanceAs (Decidable (a = .main → s.main = .sendCommand → _ = _))

/-! ## Where a call stands -/

section

variable {cfg : Config} {s s' : State}

/-- The messages that the current call is to send. -/
def State.due (cfg : Config) (s : State) : List CopyData := [⟨.server, s.reqSize cfg⟩]

/-- How far `OnCommand` has come. -/
def OnCommandStage (cfg : Config) (s : State) : Prop :=
  match s.thread with
  | .findTarget => s.sent = []
  | .fillData => s.hTargetWnd = .server ∧ s.sent = []
  | .sendData cbData => s.hTargetWnd = .server ∧ cbData = s.reqSize cfg ∧ s.sent = []
  | .markSent => s.sent = s.due cfg
  | _ => False

/-- The thread is not in `OnCommand`. -/
def ThreadPc.outside : ThreadPc → Prop
  | .notCreated | .registerClass | .createWindow | .assignWindow | .getMessage => True
  | .findTarget | .fillData | .sendData _ | .markSent => False

/-- Who has the command, where the two threads are then, and what has been sent. -/
def CommandStage (cfg : Config) (s : State) : Prop :=
  match s.command with
  | .idle => s.main ≠ .sending ∧ s.thread.outside ∧ s.sent = []
  | .pending id =>
      s.main = .sending ∧ s.thread = .getMessage ∧ id = idcSendmsgButton ∧ s.sent = []
  | .running => s.main = .sending ∧ OnCommandStage cfg s
  | .answered => s.main = .sending ∧ s.thread = .getMessage ∧ s.sent = s.due cfg

/-- What holds in every state while the server's window exists. -/
structure Inv (cfg : Config) (s : State) : Prop where
  target : s.hTargetWnd = .null ∨ s.hTargetWnd = .server
  window : s.mMessageDispatcherWindow = .dispatcher → s.thread = .getMessage ∨ ¬ s.thread.outside
  size : s.main = .clearSend ∨ s.main = .sendCommand ∨ s.main = .sending →
    s.currentReqSize = s.reqSize cfg
  unstarted : s.main = .createThread → s.thread = .notCreated
  command : CommandStage cfg s

theorem Inv.init (cfg : Config) : Inv cfg (State.init cfg) := by
  refine ⟨.inl rfl, ?_, ?_, fun _ => rfl, ?_, trivial, rfl⟩
  · intro hwindow
    cases hwindow
  · cases hreuse : cfg.reuse <;> simp [State.init, hreuse]
  · cases hreuse : cfg.reuse <;> simp [State.init, hreuse]

theorem findWindow_eq (hserver : cfg.serverWindow = true) : cfg.findWindow = .server := by
  rw [Config.findWindow, if_pos hserver]

/-- The invariant is kept where a call returns. -/
theorem Inv.returned (hI : Inv cfg s) (hthread : s.thread.outside) : Inv cfg (s.returned cfg) := by
  refine ⟨hI.target, hI.window, ?_, ?_, ?_, hthread, rfl⟩
  · simp [State.returned]
  · simp [State.returned]
  · simp [State.returned]

/-- Unless the main thread waits, no command is under way. -/
theorem Inv.idle (hI : Inv cfg s) (hmain : s.main ≠ .sending) :
    s.command = .idle ∧ s.thread.outside ∧ s.sent = [] := by
  have hcmd := hI.command
  unfold CommandStage at hcmd
  split at hcmd
  · rename_i hc
    exact ⟨hc, hcmd.2⟩
  · exact absurd hcmd.1 hmain
  · exact absurd hcmd.1 hmain
  · exact absurd hcmd.1 hmain

theorem Inv.mainStep (hserver : cfg.serverWindow = true) (hI : Inv cfg s)
    (h : s.mainStep cfg = some s') : Inv cfg s' := by
  unfold State.mainStep at h
  cases hmain : s.main with
  | createThread =>
      obtain ⟨hc, -, hsent⟩ := hI.idle (by simp [hmain])
      simp only [hmain, Option.some.injEq] at h
      subst h
      have hwindow : s.mMessageDispatcherWindow ≠ .dispatcher := by
        intro hw
        have := hI.window hw
        simp [hI.unstarted hmain, ThreadPc.outside] at this
      refine ⟨hI.target, fun hw => absurd hw hwindow, ?_, ?_, ?_⟩
      · simp
      · simp
      · simp [CommandStage, hc, hsent, ThreadPc.outside]
  | findWindow =>
      obtain ⟨hc, hout, hsent⟩ := hI.idle (by simp [hmain])
      simp only [hmain, Option.some.injEq] at h
      subst h
      refine ⟨.inr (findWindow_eq hserver), hI.window, ?_, ?_, ?_⟩
      · simp
      · simp
      · simp [CommandStage, hc, hsent, hout]
  | setSize =>
      obtain ⟨hc, hout, hsent⟩ := hI.idle (by simp [hmain])
      simp only [hmain, Option.some.injEq] at h
      subst h
      refine ⟨hI.target, hI.window, fun _ => rfl, ?_, ?_⟩
      · simp
      · simp [CommandStage, hc, hsent, hout]
  | clearSend =>
      obtain ⟨hc, hout, hsent⟩ := hI.idle (by simp [hmain])
      simp only [hmain, Option.some.injEq] at h
      subst h
      refine ⟨hI.target, hI.window, fun _ => hI.size (.inl hmain), ?_, ?_⟩
      · simp
      · simp [CommandStage, hc, hsent, hout]
  | sendCommand =>
      obtain ⟨hc, hout, hsent⟩ := hI.idle (by simp [hmain])
      simp only [hmain] at h
      split at h
      · rename_i hw
        have hget : s.thread = .getMessage := (hI.window hw).resolve_right (not_not.mpr hout)
        obtain rfl := Option.some.inj h
        refine ⟨hI.target, hI.window, fun _ => hI.size (.inr (.inl hmain)), ?_, ?_⟩
        · simp
        · simp [CommandStage, hget, hsent]
      · obtain rfl := Option.some.inj h
        exact hI.returned hout
      · obtain rfl := Option.some.inj h
        exact hI.returned hout
  | sending =>
      simp only [hmain] at h
      split at h
      · rename_i hc
        obtain rfl := Option.some.inj h
        have hcmd := hI.command
        simp only [CommandStage, hc] at hcmd
        apply hI.returned
        simp [hcmd.2.1, ThreadPc.outside]
      all_goals cases h

theorem OnCommandStage.inside (h : OnCommandStage cfg s) : ¬ s.thread.outside := by
  cases hthread : s.thread with
  | notCreated | registerClass | createWindow | assignWindow | getMessage =>
      simp [OnCommandStage, hthread] at h
  | findTarget | fillData | sendData | markSent => exact not_false

/-- While the thread is in `OnCommand` the main thread waits for it. -/
theorem Inv.running (hI : Inv cfg s) (hthread : ¬ s.thread.outside) :
    s.command = .running ∧ s.main = .sending ∧ OnCommandStage cfg s := by
  have hcmd := hI.command
  unfold CommandStage at hcmd
  split at hcmd
  · exact absurd hcmd.2.1 hthread
  · rw [hcmd.2.1] at hthread
    exact absurd trivial hthread
  · rename_i hc
    exact ⟨hc, hcmd⟩
  · rw [hcmd.2.1] at hthread
    exact absurd trivial hthread

/-- While the thread starts there is no window, and no command. -/
theorem Inv.starting (hI : Inv cfg s) (houtside : s.thread.outside)
    (hget : s.thread ≠ .getMessage) :
    s.mMessageDispatcherWindow ≠ .dispatcher ∧ s.command = .idle ∧ s.main ≠ .sending ∧
      s.sent = [] := by
  refine ⟨?_, ?_⟩
  · intro hw
    rcases hI.window hw with h | h
    · exact hget h
    · exact h houtside
  · have hcmd := hI.command
    unfold CommandStage at hcmd
    split at hcmd
    · rename_i hc
      exact ⟨hc, hcmd.1, hcmd.2.2⟩
    · exact absurd hcmd.2.1 hget
    · exact absurd houtside hcmd.2.inside
    · exact absurd hcmd.2.1 hget

/-- The invariant while the thread is in `OnCommand`. -/
theorem Inv.of_running (hmain : s.main = .sending) (hc : s.command = .running)
    (hstage : OnCommandStage cfg s) (htarget : s.hTargetWnd = .null ∨ s.hTargetWnd = .server)
    (hsize : s.currentReqSize = s.reqSize cfg) : Inv cfg s := by
  refine ⟨htarget, fun _ => .inr hstage.inside, fun _ => hsize, ?_, ?_⟩
  · simp [hmain]
  · simp only [CommandStage, hc]
    exact ⟨hmain, hstage⟩

theorem Inv.threadStep (hserver : cfg.serverWindow = true) (hI : Inv cfg s)
    (h : s.threadStep cfg = some s') : Inv cfg s' := by
  unfold State.threadStep at h
  cases hthread : s.thread with
  | notCreated =>
      simp [hthread] at h
  | registerClass | createWindow =>
      have hout : s.thread.outside := by simp [hthread, ThreadPc.outside]
      obtain ⟨hw, hc, hmain, hsent⟩ := hI.starting hout (by simp [hthread])
      simp only [hthread, Option.some.injEq] at h
      subst h
      refine ⟨hI.target, fun hw' => absurd hw' hw, hI.size, ?_, ?_⟩
      · intro hcreate
        simp [hI.unstarted hcreate] at hthread
      · simp [CommandStage, hc, hmain, hsent, ThreadPc.outside]
  | assignWindow =>
      have hout : s.thread.outside := by simp [hthread, ThreadPc.outside]
      obtain ⟨-, hc, hmain, hsent⟩ := hI.starting hout (by simp [hthread])
      simp only [hthread, Option.some.injEq] at h
      subst h
      refine ⟨hI.target, fun _ => .inl rfl, hI.size, ?_, ?_⟩
      · intro hcreate
        simp [hI.unstarted hcreate] at hthread
      · simp [CommandStage, hc, hmain, hsent, ThreadPc.outside]
  | getMessage =>
      have hcmd := hI.command
      simp only [hthread] at h
      split at h
      · rename_i id hc
        simp only [CommandStage, hc] at hcmd
        obtain ⟨hmain, -, hid, hsent⟩ := hcmd
        rw [if_pos hid] at h
        obtain rfl := Option.some.inj h
        exact .of_running hmain rfl hsent hI.target (hI.size (.inr (.inr hmain)))
      all_goals cases h
  | findTarget =>
      obtain ⟨hc, hmain, hstage⟩ := hI.running (by simp [hthread, ThreadPc.outside])
      simp only [OnCommandStage, hthread] at hstage
      -- the target is found, by `FindWindow` here or before
      have htarget : (if !cfg.reuse || s.hTargetWnd = .null then cfg.findWindow
          else s.hTargetWnd) = .server := by
        rw [findWindow_eq hserver]
        split
        · rfl
        · rename_i hkept
          simp only [Bool.or_eq_true, decide_eq_true_eq, not_or] at hkept
          exact hI.target.resolve_left hkept.2
      simp only [hthread, htarget] at h
      rw [if_neg (by decide)] at h
      obtain rfl := Option.some.inj h
      exact .of_running hmain hc ⟨rfl, hstage⟩ (.inr rfl) (hI.size (.inr (.inr hmain)))
  | fillData =>
      obtain ⟨hc, hmain, hstage⟩ := hI.running (by simp [hthread, ThreadPc.outside])
      simp only [OnCommandStage, hthread] at hstage
      have hsize := hI.size (.inr (.inr hmain))
      simp only [hthread, Option.some.injEq] at h
      subst h
      exact .of_running hmain hc ⟨hstage.1, hsize, hstage.2⟩ hI.target hsize
  | sendData cbData =>
      obtain ⟨hc, hmain, hstage⟩ := hI.running (by simp [hthread, ThreadPc.outside])
      simp only [OnCommandStage, hthread] at hstage
      obtain ⟨htarget, hcb, hsent⟩ := hstage
      simp only [hthread, Option.some.injEq] at h
      subst h
      have hdue : s.sent ++ [⟨s.hTargetWnd, cbData⟩] = s.due cfg := by
        rw [hsent, htarget, hcb]
        rfl
      exact .of_running hmain hc hdue hI.target (hI.size (.inr (.inr hmain)))
  | markSent =>
      obtain ⟨-, hmain, hstage⟩ := hI.running (by simp [hthread, ThreadPc.outside])
      simp only [OnCommandStage, hthread] at hstage
      simp only [hthread, Option.some.injEq] at h
      subst h
      refine ⟨hI.target, fun _ => .inl rfl, hI.size, ?_, ?_⟩
      · simp [hmain]
      · simp [CommandStage, hmain, hstage, State.due, State.reqSize]

theorem Inv.step (hserver : cfg.serverWindow = true) {a : Thread} (hI : Inv cfg s)
    (h : (messaging cfg).step a s = some s') : Inv cfg s' := by
  cases a with
  | main => exact hI.mainStep hserver h
  | dispatcher => exact hI.threadStep hserver h

/-! ## What a step does to the calls -/

def MainPc.left : MainPc → Nat
  | .createThread => 15
  | .findWindow => 11
  | .setSize => 10
  | .clearSend => 9
  | .sendCommand => 8
  | .sending => 0

def ThreadPc.left : ThreadPc → Nat
  | .notCreated | .registerClass => 3
  | .createWindow => 2
  | .assignWindow => 1
  | .getMessage => 0
  | .findTarget => 4
  | .fillData => 3
  | .sendData _ => 2
  | .markSent => 1

def Command.left : Command → Nat
  | .idle | .answered => 0
  | .pending _ => 6
  | .running => 1

/-- A bound for the steps to the return of the current call. -/
def State.left (s : State) : Nat := s.main.left + s.thread.left + s.command.left

/-- The dispatcher's thread completes no call, and brings the current one forward. -/
theorem threadStep_calls (h : s.threadStep cfg = some s') :
    s'.calls = s.calls ∧ s'.left < s.left := by
  unfold State.threadStep at h
  cases hthread : s.thread with
  | notCreated => simp [hthread] at h
  | registerClass | createWindow | assignWindow | fillData | sendData =>
      simp only [hthread, Option.some.injEq] at h
      subst h
      exact ⟨rfl, by simp [State.left, ThreadPc.left, hthread]⟩
  | getMessage =>
      simp only [hthread] at h
      split at h
      · rename_i id hc
        by_cases hid : id = idcSendmsgButton
        · rw [if_pos hid] at h
          obtain rfl := Option.some.inj h
          exact ⟨rfl, by simp [State.left, ThreadPc.left, Command.left, hthread, hc]⟩
        · rw [if_neg hid] at h
          obtain rfl := Option.some.inj h
          exact ⟨rfl, by simp [State.left, Command.left, hthread, hc]⟩
      all_goals cases h
  | findTarget =>
      simp only [hthread] at h
      generalize (if !cfg.reuse || s.hTargetWnd = .null then cfg.findWindow
        else s.hTargetWnd) = target at h
      by_cases hnull : target = .null
      · rw [if_pos hnull] at h
        obtain rfl := Option.some.inj h
        refine ⟨rfl, ?_⟩
        simp only [State.left, ThreadPc.left, Command.left, hthread]
        omega
      · rw [if_neg hnull] at h
        obtain rfl := Option.some.inj h
        exact ⟨rfl, by simp [State.left, ThreadPc.left, hthread]⟩
  | markSent =>
      simp only [hthread, Option.some.injEq] at h
      subst h
      refine ⟨rfl, ?_⟩
      simp only [State.left, ThreadPc.left, Command.left, hthread]
      omega

/-- The main thread brings its call forward, or the call returns: when its command is
    answered, or at once where there is no window. -/
theorem mainStep_calls (h : s.mainStep cfg = some s') :
    s'.calls = s.calls ∧ s'.left < s.left ∨ s' = s.returned cfg ∧
      (s.main = .sendCommand ∧ s.mMessageDispatcherWindow ≠ .dispatcher ∨
        s.main = .sending ∧ s.command = .answered) := by
  unfold State.mainStep at h
  cases hmain : s.main with
  | createThread =>
      simp only [hmain, Option.some.injEq] at h
      subst h
      refine .inl ⟨rfl, ?_⟩
      simp only [State.left, MainPc.left, ThreadPc.left, hmain]
      omega
  | findWindow | setSize | clearSend =>
      simp only [hmain, Option.some.injEq] at h
      subst h
      exact .inl ⟨rfl, by simp [State.left, MainPc.left, hmain]⟩
  | sendCommand =>
      simp only [hmain] at h
      split at h
      · obtain rfl := Option.some.inj h
        refine .inl ⟨rfl, ?_⟩
        simp only [State.left, MainPc.left, Command.left, hmain]
        omega
      · rename_i hw
        exact .inr ⟨(Option.some.inj h).symm, .inl ⟨rfl, by simp [hw]⟩⟩
      · rename_i hw
        exact .inr ⟨(Option.some.inj h).symm, .inl ⟨rfl, by simp [hw]⟩⟩
  | sending =>
      simp only [hmain] at h
      split at h
      · rename_i hc
        exact .inr ⟨(Option.some.inj h).symm, .inr ⟨rfl, hc⟩⟩
      all_goals cases h

/-! ## Every call returns -/

/-- `OnCommand` never waits. -/
theorem threadStep_of_inside (hthread : ¬ s.thread.outside) : ∃ t, s.threadStep cfg = some t := by
  unfold State.threadStep
  cases h : s.thread with
  | notCreated | registerClass | createWindow | assignWindow | getMessage =>
      rw [h] at hthread
      exact absurd trivial hthread
  | findTarget =>
      dsimp only
      split_ifs
      all_goals exact ⟨_, rfl⟩
  | fillData | sendData | markSent => exact ⟨_, rfl⟩

/-- One of the two threads can always go on. -/
theorem Inv.progress (hI : Inv cfg s) :
    (∃ t, s.mainStep cfg = some t) ∨ ∃ t, s.threadStep cfg = some t := by
  have hcmd := hI.command
  cases hmain : s.main with
  | createThread | findWindow | setSize | clearSend =>
      exact .inl ⟨_, by rw [State.mainStep, hmain]⟩
  | sendCommand =>
      left
      rw [State.mainStep, hmain]
      cases s.mMessageDispatcherWindow with
      | null | dispatcher | server => exact ⟨_, rfl⟩
  | sending =>
      -- the main thread waits for the other one to take the command and to answer it
      cases hc : s.command with
      | idle =>
          simp only [CommandStage, hc] at hcmd
          exact absurd hmain hcmd.1
      | pending id =>
          simp only [CommandStage, hc] at hcmd
          obtain ⟨-, hget, hid, -⟩ := hcmd
          right
          rw [State.threadStep, hget]
          simp [hc, hid]
      | running =>
          simp only [CommandStage, hc] at hcmd
          exact .inr (threadStep_of_inside hcmd.2.inside)
      | answered =>
          left
          rw [State.mainStep, hmain]
          simp [hc]

theorem step_calls {a : Thread} (h : (messaging cfg).step a s = some s') :
    s'.calls = s.calls ∧ s'.left < s.left ∨ s'.calls.length = s.calls.length + 1 := by
  cases a with
  | main =>
      rcases mainStep_calls h with hleft | ⟨rfl, -⟩
      · exact .inl hleft
      · exact .inr (by simp [State.returned])
  | dispatcher => exact .inl (threadStep_calls h)

theorem Inv.returns (hserver : cfg.serverWindow = true) (hI : Inv cfg s) :
    Inevitable (messaging cfg) (fun t => s.calls.length < t.calls.length) s := by
  -- what is left of the call decreases until it returns
  let n := s.calls.length
  let μ : State → Nat := fun t => if n < t.calls.length then 0 else t.left + 1
  have hI' : Inv cfg s ∧ n ≤ s.calls.length := ⟨hI, le_rfl⟩
  refine Inevitable.of_wellFounded (I := fun t => Inv cfg t ∧ n ≤ t.calls.length)
    Nat.lt_wfRel.wf μ ?_ ?_ hI'
  · rintro t ⟨ht, -⟩
    right
    rcases ht.progress with ⟨t', ht'⟩ | ⟨t', ht'⟩
    · exact ⟨.main, t', ht'⟩
    · exact ⟨.dispatcher, t', ht'⟩
  · rintro t a t' ⟨ht, hn⟩ hnot hstep
    have hμ : μ t = t.left + 1 := if_neg hnot
    have hcalls := step_calls hstep
    refine ⟨⟨ht.step hserver hstep, ?_⟩, ?_⟩
    · rcases hcalls with ⟨heq, -⟩ | hlen
      · rw [heq]
        exact hn
      · omega
    · show μ t' < μ t
      rw [hμ]
      by_cases hlt : n < t'.calls.length
      · rw [show μ t' = 0 from if_pos hlt]
        exact Nat.succ_pos _
      · rw [show μ t' = t'.left + 1 from if_neg hlt]
        rcases hcalls with ⟨-, hleft⟩ | hlen
        · omega
        · omega

/-! ## Every call is delivered -/

/-- A call that finds the window adds nothing but its one message. -/
theorem ExactlyOnce.step {a : Thread} (h : ExactlyOnce s) (hI : Inv cfg s)
    (ha : WindowAssigned s a) (hs : (messaging cfg).step a s = some s') : ExactlyOnce s' := by
  cases a with
  | dispatcher =>
      unfold ExactlyOnce
      rw [(threadStep_calls hs).1]
      exact h
  | main =>
      rcases mainStep_calls hs with ⟨heq, -⟩ | ⟨rfl, ⟨hmain, hw⟩ | ⟨-, hc⟩⟩
      · unfold ExactlyOnce
        rw [heq]
        exact h
      · exact absurd (ha rfl hmain) hw
      · have hcmd := hI.command
        simp only [CommandStage, hc] at hcmd
        intro c hmem
        rcases List.mem_append.mp hmem with hmem | hmem
        · exact h c hmem
        · obtain rfl := List.mem_singleton.mp hmem
          exact hcmd.2.2

theorem mainStep_of_unassigned (hmain : s.main = .sendCommand)
    (hw : s.mMessageDispatcherWindow ≠ .dispatcher) : s.mainStep cfg = some (s.returned cfg) := by
  rw [State.mainStep, hmain]
  cases hwindow : s.mMessageDispatcherWindow with
  | null | server => rfl
  | dispatcher => exact absurd hwindow hw

/-- A call that returns at once has not sent anything. -/
theorem Inv.lost (hI : Inv cfg s) (hmain : s.main = .sendCommand) :
    ¬ ExactlyOnce (s.returned cfg) := by
  obtain ⟨-, -, hsent⟩ := hI.idle (by simp [hmain])
  intro honce
  have hcall := honce (s.reqSize cfg, s.sent) (by simp [State.returned])
  simp [hsent] at hcall

end

/-- In every run of the client, the calls are delivered in every state exactly if the
    handle has been assigned wherever the main thread sends a command. -/
theorem delivers_iff_windowAssigned {cfg : Config} (hserver : cfg.serverWindow = true)
    {tr : List (State × Thread)} {s : State} (h : Exec (messaging cfg) tr s) :
    (∀ t ∈ visited tr s, Delivers cfg t) ↔ Meets WindowAssigned tr := by
  have hinv : ∀ t ∈ visited tr s, Inv cfg t := by
    intro t ht
    obtain ⟨tr', -, htr'⟩ := h.prefix ht
    exact htr'.invariant_all (.init cfg) fun u a u' hI => hI.step hserver
  constructor
  · rintro hdelivers ⟨t, a⟩ hmem rfl hmain
    by_contra hw
    -- the call returns, and the run goes through the state in which it has
    obtain ⟨t', ht', hstep⟩ := h.step_of_mem hmem
    obtain rfl : t.returned cfg = t' :=
      Option.some.inj ((mainStep_of_unassigned hmain hw).symm.trans hstep)
    have hI := hinv t (mem_visited.mpr (.inl ⟨_, hmem⟩))
    exact hI.lost hmain (hdelivers _ ht').exactlyOnce
  · intro hok
    have honce : ∀ t ∈ visited tr s, Inv cfg t ∧ ExactlyOnce t := by
      refine h.invariant_visited ⟨.init cfg, ?_⟩ ?_ hok
      · rintro u a u' ⟨hI, hu⟩ ha hs
        exact ⟨hI.step hserver hs, hu.step hI ha hs⟩
      · intro c hc
        cases hc
    intro t ht
    obtain ⟨hI, ht'⟩ := honce t ht
    exact ⟨ht', hI.returns hserver⟩

/-- The client with `-r` and a server that is up: requests of 100 kb, as the first
    five of the benchmark are. -/
def hundredKb : Config := { reuse := true, serverWindow := true, reqSize := fun _ => 102400 }

/-- A request from `SendMessage` on: the other thread's `OnCommand`, and the return. -/
def Thread.request : List Thread :=
  [.main, .main, .main, .dispatcher, .dispatcher, .dispatcher, .dispatcher, .dispatcher, .main]

/-- Where the thread is up before the first request, two requests are delivered. -/
theorem hundredKb_delivers :
    ∃ tr s, Exec (messaging hundredKb) tr s ∧
      s.calls = [(102400, [⟨.server, 102400⟩]), (102400, [⟨.server, 102400⟩])] ∧
      ∀ t ∈ visited tr s, Delivers hundredKb t := by
  let as : List Thread := [.main, .dispatcher, .main, .dispatcher, .dispatcher] ++
    Thread.request ++ Thread.request
  have hrun : ∃ s, (messaging hundredKb).runIf (fun s a => decide (WindowAssigned s a)) as
      (messaging hundredKb).init = some s ∧
      s.calls = [(102400, [⟨.server, 102400⟩]), (102400, [⟨.server, 102400⟩])] :=
    ⟨_, rfl, rfl⟩
  obtain ⟨s, hs, hcalls⟩ := hrun
  obtain ⟨tr, htr, hok⟩ := Exec.of_runIf hs
  refine ⟨tr, s, htr, hcalls, (delivers_iff_windowAssigned rfl htr).mpr ?_⟩
  intro e he
  exact of_decide_eq_true (hok e he)

/-- The main thread is through with its first request before the other one has run. -/
theorem hundredKb_lost :
    ∃ tr s, Exec (messaging hundredKb) tr s ∧ s.calls = [(102400, [])] ∧
      ¬ ∀ t ∈ visited tr s, Delivers hundredKb t := by
  have hrun : ∃ s, (messaging hundredKb).run [.main, .main, .main, .main, .main] = some s ∧
      s.calls = [(102400, [])] := ⟨_, rfl, rfl⟩
  obtain ⟨s, hs, hcalls⟩ := hrun
  obtain ⟨tr, htr⟩ := Exec.of_run hs
  refine ⟨tr, s, htr, hcalls, ?_⟩
  intro hdelivers
  have honce := (hdelivers s (by simp)).exactlyOnce (102400, []) (by simp [hcalls])
  cases honce

end IpcWin.Messaging
