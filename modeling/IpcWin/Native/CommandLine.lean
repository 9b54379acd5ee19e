/-
  IpcWin.Native.CommandLine

  The loops over the arguments in the two `_tmain`s of `NativeClient.cpp` and
  `NativeServer.cpp`.

  Each of the two programs goes through all its arguments itself, the name of the
  program and the values of options with them, and keeps what it finds in variables
  of its own.  They talk to each other only if they have come to the same settings.
  They do: started with the same arguments, both come to the settings that stand
  last (`Settings.ofArgs`), or both read behind the end of `argv`
  (`programs_settings`).

  Where `argv[i+1]` is behind the last argument it is `NULL`, from which no
  `std::wstring` can be made; such a run has no result.
-/

import IpcWin.Lib.Arguments

namespace IpcWin.Native

open IpcWin.Lib

/-- A `std::wstring`, in UTF-16 code units. -/
abbrev WStr := List (BitVec 16)

/-- A wide literal. -/
def text (s : String) : WStr := s.toList.map fun c => BitVec.ofNat 16 c.toNat

/-- The functions that carry a call, under the names of the option. -/
inductive Mechanism where
  | sharedMem | pipes | messaging | rpc
  deriving DecidableEq, Repr

/-- The functions that make and read messages. -/
inductive Data where
  | msg | object | bytes
  deriving DecidableEq, Repr

/-- The choice behind `-d`. -/
def dataOf (s : WStr) : Data :=
  if s = text "bytes" then .bytes else if s = text "object" then .object else .msg

/-- One turn of a loop over `argv`: `s` is `argv[i]` and `next` what is at `argv[i+1]`. -/
def turn {σ : Type} (m d : WStr → σ → σ) (r w : σ → σ) (o : σ) (s : WStr) (next : Option WStr) :
    Option σ := do
  let o ← if s = text "-m" then next.map (m · o) else some o
  let o ← if s = text "-d" then next.map (d · o) else some o
  let o := if s = text "-r" then r o else o
  some (if s = text "-o" then w o else o)

namespace Client

/-- The client's variables that the options set. -/
structure Options where
  builder : Data
  br : Data
  call : Mechanism
  oneway : Bool
  reuse : Bool
  deriving DecidableEq, Repr

def Options.start : Options :=
  { builder := .msg, br := .msg, call := .sharedMem, oneway := false, reuse := false }

/-- `call`, as the client chooses it behind `-m`. -/
def callOf (s : WStr) : Mechanism :=
  if s = text "pipes" then .pipes
  else if s = text "messaging" then .messaging
  else if s = text "rpc" then .rpc
  else .sharedMem

/-- The body of the client's loop. -/
def visit : Options → WStr → Option WStr → Option Options :=
  turn (fun s o => { o with call := callOf s })
    (fun s o => { o with builder := dataOf s, br := dataOf s })
    (fun o => { o with reuse := true }) (fun o => { o with oneway := true })

/-- The loop over `argv`. -/
def options (argv : List WStr) : Option Options := scan visit .start argv

end Client

namespace Server

/-- `client_init`. -/
inductive Init where
  | empty | pipe | rpc
  deriving DecidableEq, Repr

/-- The server's variables that the options set; `mechanism` keeps the text itself. -/
structure Options where
  replier : Mechanism
  builder : Data
  init : Init
  mechanism : WStr
  reuse : Bool
  oneway : Bool
  deriving DecidableEq, Repr

def Options.start : Options :=
  { replier := .sharedMem, builder := .msg, init := .empty, mechanism := [], reuse := false
    oneway := false }

/-- What the server sets behind `-m`. -/
def Options.setMechanism (s : WStr) (o : Options) : Options :=
  let o := { o with mechanism := s }
  if s = text "pipes" then { o with replier := .pipes, init := .pipe }
  else if s = text "messaging" then { o with replier := .messaging, init := .empty }
  else if s = text "rpc" then { o with replier := .rpc, init := .rpc }
  else { o with replier := .sharedMem, init := .empty }

/-- The body of the server's loop. -/
def visit : Options → WStr → Option WStr → Option Options :=
  turn Options.setMechanism (fun s o => { o with builder := dataOf s })
    (fun o => { o with reuse := true }) (fun o => { o with oneway := true })

/-- The loop over `argv`. -/
def options (argv : List WStr) : Option Options := scan visit .start argv

/-- The functions that `_tmain` calls for `init` on each mechanism. -/
def initOf : Mechanism → Init
  | .pipes => .pipe
  | .rpc => .rpc
  | .messaging | .sharedMem => .empty

end Server

/-! ## What the arguments say -/

/-- The texts that a turn of the loops acts on. -/
def optionTexts : List WStr := [text "-m", text "-d", text "-r", text "-o"]

/-- What a run of the two programs is set to. -/
structure Settings where
  mechanism : Mechanism
  data : Data
  reuse : Bool
  oneway : Bool
  deriving DecidableEq, Repr

/-- The settings that stand last among the arguments. -/
def Settings.ofArgs (args : List WStr) : Settings where
  mechanism := ((values (text "-m") args).getLast?.map Client.callOf).getD .sharedMem
  data := ((values (text "-d") args).getLast?.map dataOf).getD .msg
  reuse := decide (text "-r" ∈ args)
  oneway := decide (text "-o" ∈ args)

/-- Nothing is missing behind the last argument. -/
def Complete (args : List WStr) : Prop :=
  ∀ a, args.getLast? = some a → a ≠ text "-m" ∧ a ≠ text "-d"

/-- The client has come to the settings. -/
structure Client.Options.Have (o : Client.Options) (s : Settings) : Prop where
  call : o.call = s.mechanism
  builder : o.builder = s.data
  br : o.br = s.data
  reuse : o.reuse = s.reuse
  oneway : o.oneway = s.oneway

/-- The server has come to the settings, and its main loop waits for calls of RPC exactly
    if they go that way. -/
structure Server.Options.Have (o : Server.Options) (s : Settings) : Prop where
  replier : o.replier = s.mechanism
  init : o.init = Server.initOf s.mechanism
  listens : o.mechanism = text "rpc" ↔ s.mechanism = .rpc
  builder : o.builder = s.data
  reuse : o.reuse = s.reuse
  oneway : o.oneway = s.oneway

/-! ## One turn -/

section Turn

variable {σ : Type} {m d : WStr → σ → σ} {r w : σ → σ} {o o' : σ} {s : WStr} {next : Option WStr}

/-- The texts differ, so that a turn acts on one of them at most. -/
theorem texts_ne :
    (text "-m" ≠ text "-d" ∧ text "-m" ≠ text "-r" ∧ text "-m" ≠ text "-o") ∧
    (text "-d" ≠ text "-m" ∧ text "-d" ≠ text "-r" ∧ text "-d" ≠ text "-o") ∧
    (text "-r" ≠ text "-m" ∧ text "-r" ≠ text "-d" ∧ text "-r" ≠ text "-o") ∧
    text "-o" ≠ text "-m" ∧ text "-o" ≠ text "-d" ∧ text "-o" ≠ text "-r" := by decide

theorem turn_cases (h : turn m d r w o s next = some o') :
    (s = text "-m" ∧ ∃ v, next = some v ∧ o' = m v o) ∨
    (s = text "-d" ∧ ∃ v, next = some v ∧ o' = d v o) ∨
    (s = text "-r" ∧ o' = r o) ∨ (s = text "-o" ∧ o' = w o) ∨
    (s ∉ optionTexts ∧ o' = o) := by
  by_cases hm : s = text "-m"
  · subst hm
    cases next with
    | none => simp [turn] at h
    | some v => exact .inl ⟨rfl, v, rfl, by simpa [turn, texts_ne] using h.symm⟩
  by_cases hd : s = text "-d"
  · subst hd
    cases next with
    | none => simp [turn, texts_ne] at h
    | some v => exact .inr (.inl ⟨rfl, v, rfl, by simpa [turn, texts_ne] using h.symm⟩)
  by_cases hr : s = text "-r"
  · subst hr
    exact .inr (.inr (.inl ⟨rfl, by simpa [turn, texts_ne] using h.symm⟩))
  by_cases ho : s = text "-o"
  · subst ho
    exact .inr (.inr (.inr (.inl ⟨rfl, by simpa [turn, texts_ne] using h.symm⟩)))
  · refine .inr (.inr (.inr (.inr ⟨by simp [optionTexts, hm, hd, hr, ho], ?_⟩)))
    simpa [turn, hm, hd, hr, ho] using h.symm

/-- A turn goes wrong only behind the last argument. -/
theorem turn_isSome :
    (turn m d r w o s next).isSome = true ↔ s = text "-m" ∨ s = text "-d" → next ≠ none := by
  by_cases hm : s = text "-m"
  · subst hm
    cases next with
    | none => simp [turn]
    | some v => simp [turn, texts_ne]
  by_cases hd : s = text "-d"
  · subst hd
    cases next with
    | none => simp [turn, texts_ne]
    | some v => simp [turn, texts_ne]
  · simp [turn, hm, hd]

theorem turn_of_not_mem (h : s ∉ optionTexts) : turn m d r w o s next = some o := by
  simp only [optionTexts, List.mem_cons, List.not_mem_nil, or_false, not_or] at h
  obtain ⟨hm, hd, hr, ho⟩ := h
  simp [turn, hm, hd, hr, ho]

/-- A loop over arguments gets to the end if nothing is missing behind the last one. -/
theorem scan_turn_isSome (o : σ) (args : List WStr) :
    (scan (turn m d r w) o args).isSome = true ↔ Complete args := by
  have hturn : ∀ o s next, (turn m d r w o s next).isSome = true ↔
      s = text "-m" ∨ s = text "-d" → next ≠ none := fun _ _ _ => turn_isSome
  rw [scan_isSome hturn]
  simp only [Complete, not_or, ne_eq]

/-- The name of the program in front of them makes no difference. -/
theorem scan_turn_name {p : WStr} (hp : p ∉ optionTexts) (o : σ) (args : List WStr) :
    scan (turn m d r w) o (p :: args) = scan (turn m d r w) o args := by
  rw [scan, turn_of_not_mem hp, Option.bind_some]

end Turn

/-- The server puts the same choice into `replier` as the client into `call`. -/
theorem Server.setMechanism_eq (o : Server.Options) (v : WStr) :
    o.setMechanism v =
      { o with replier := Client.callOf v, init := initOf (Client.callOf v), mechanism := v } := by
  rw [Server.Options.setMechanism, Client.callOf]
  split_ifs <;> rfl

/-- What a turn of the client's loop does to each of the variables. -/
theorem Client.visit_eq {o o' : Client.Options} {s : WStr} {next : Option WStr}
    (h : visit o s next = some o') :
    o'.call = (if s = text "-m" then (next.map callOf).getD o.call else o.call) ∧
    o'.builder = (if s = text "-d" then (next.map dataOf).getD o.builder else o.builder) ∧
    o'.br = (if s = text "-d" then (next.map dataOf).getD o.br else o.br) ∧
    (o'.reuse = true ↔ o.reuse = true ∨ s = text "-r") ∧
    (o'.oneway = true ↔ o.oneway = true ∨ s = text "-o") := by
  rcases turn_cases h with ⟨rfl, v, rfl, rfl⟩ | ⟨rfl, v, rfl, rfl⟩ | ⟨rfl, rfl⟩ | ⟨rfl, rfl⟩ |
    ⟨hs, rfl⟩
  case inr.inr.inr.inr =>
    simp only [optionTexts, List.mem_cons, List.not_mem_nil, or_false, not_or] at hs
    simp [hs]
  all_goals simp [texts_ne]

/-- What a turn of the server's loop does to each of the variables. -/
theorem Server.visit_eq {o o' : Server.Options} {s : WStr} {next : Option WStr}
    (h : visit o s next = some o') :
    o'.replier = (if s = text "-m" then (next.map Client.callOf).getD o.replier
      else o.replier) ∧
    o'.init = (if s = text "-m" then (next.map fun v => initOf (Client.callOf v)).getD o.init
      else o.init) ∧
    o'.mechanism = (if s = text "-m" then (next.map id).getD o.mechanism else o.mechanism) ∧
    o'.builder = (if s = text "-d" then (next.map dataOf).getD o.builder else o.builder) ∧
    (o'.reuse = true ↔ o.reuse = true ∨ s = text "-r") ∧
    (o'.oneway = true ↔ o.oneway = true ∨ s = text "-o") := by
  rcases turn_cases h with ⟨rfl, v, rfl, rfl⟩ | ⟨rfl, v, rfl, rfl⟩ | ⟨rfl, rfl⟩ | ⟨rfl, rfl⟩ |
    ⟨hs, rfl⟩
  case inr.inr.inr.inr =>
    simp only [optionTexts, List.mem_cons, List.not_mem_nil, or_false, not_or] at hs
    simp [hs]
  all_goals simp [texts_ne, setMechanism_eq]

section Loops

variable {p : WStr} {args : List WStr}

/-- The client's loop comes to the settings that stand last. -/
theorem Client.options_have (hp : p ∉ optionTexts) {o : Client.Options}
    (h : options (p :: args) = some o) : o.Have (.ofArgs args) := by
  rw [options, visit, scan_turn_name hp] at h
  have hcall := scan_value (fun _ _ _ _ h => (visit_eq h).1) h
  have hbuilder := scan_value (fun _ _ _ _ h => (visit_eq h).2.1) h
  have hbr := scan_value (fun _ _ _ _ h => (visit_eq h).2.2.1) h
  have hreuse := scan_flag (fun _ _ _ _ h => (visit_eq h).2.2.2.1) h
  have honeway := scan_flag (fun _ _ _ _ h => (visit_eq h).2.2.2.2) h
  refine ⟨hcall, hbuilder, hbr, ?_, ?_⟩
  · rw [Bool.eq_iff_iff, hreuse]
    simp [Settings.ofArgs, Options.start]
  · rw [Bool.eq_iff_iff, honeway]
    simp [Settings.ofArgs, Options.start]

/-- The text behind `-m` is `rpc` exactly if RPC is chosen. -/
theorem Client.callOf_eq_rpc_iff (v : WStr) : callOf v = .rpc ↔ v = text "rpc" := by
  rw [callOf]
  split_ifs with hpipes hmessaging hrpc
  · subst hpipes
    decide
  · subst hmessaging
    decide
  · simp [hrpc]
  · simp [hrpc]

/-- The server's loop comes to the settings that stand last. -/
theorem Server.options_have (hp : p ∉ optionTexts) {o : Server.Options}
    (h : options (p :: args) = some o) : o.Have (.ofArgs args) := by
  rw [options, visit, scan_turn_name hp] at h
  have hreplier := scan_value (fun _ _ _ _ h => (visit_eq h).1) h
  have hinit := scan_value (fun _ _ _ _ h => (visit_eq h).2.1) h
  have hmechanism := scan_value (fun _ _ _ _ h => (visit_eq h).2.2.1) h
  have hbuilder := scan_value (fun _ _ _ _ h => (visit_eq h).2.2.2.1) h
  have hreuse := scan_flag (fun _ _ _ _ h => (visit_eq h).2.2.2.2.1) h
  have honeway := scan_flag (fun _ _ _ _ h => (visit_eq h).2.2.2.2.2) h
  refine ⟨hreplier, ?_, ?_, hbuilder, ?_, ?_⟩
  -- `init` is chosen together with `replier`
  · rw [hinit, Settings.ofArgs]
    cases (values (text "-m") args).getLast? with
    | none => rfl
    | some v => rfl
  -- the loop for RPC looks at the text itself
  · rw [hmechanism, Settings.ofArgs]
    cases (values (text "-m") args).getLast? with
    | none => exact iff_of_false (show ([] : WStr) ≠ text "rpc" by decide) (by simp)
    | some v => exact (Client.callOf_eq_rpc_iff v).symm
  · rw [Bool.eq_iff_iff, hreuse]
    simp [Settings.ofArgs, Options.start]
  · rw [Bool.eq_iff_iff, honeway]
    simp [Settings.ofArgs, Options.start]

/-- Started with the same arguments, the two programs come to the same settings, or both
    go wrong behind the last argument. -/
theorem programs_settings {q : WStr} (hp : p ∉ optionTexts) (hq : q ∉ optionTexts)
    (args : List WStr) :
    (Complete args ∧ ∃ c s, Client.options (p :: args) = some c ∧
      Server.options (q :: args) = some s ∧ c.Have (.ofArgs args) ∧ s.Have (.ofArgs args)) ∨
    (¬ Complete args ∧ Client.options (p :: args) = none ∧
      Server.options (q :: args) = none) := by
  have hclient : (Client.options (p :: args)).isSome = true ↔ Complete args := by
    rw [Client.options, Client.visit, scan_turn_name hp]
    exact scan_turn_isSome _ args
  have hserver : (Server.options (q :: args)).isSome = true ↔ Complete args := by
    rw [Server.options, Server.visit, scan_turn_name hq]
    exact scan_turn_isSome _ args
  by_cases hcomplete : Complete args
  · obtain ⟨c, hc⟩ := Option.isSome_iff_exists.mp (hclient.mpr hcomplete)
    obtain ⟨s, hs⟩ := Option.isSome_iff_exists.mp (hserver.mpr hcomplete)
    exact .inl ⟨hcomplete, c, s, hc, hs, Client.options_have hp hc, Server.options_have hq hs⟩
  · refine .inr ⟨hcomplete, ?_, ?_⟩
    · rwa [← Option.not_isSome_iff_eq_none, hclient]
    · rwa [← Option.not_isSome_iff_eq_none, hserver]

/-- A name, and arguments that set the mechanism twice. -/
def twiceArgs : List WStr :=
  [text "-m", text "rpc", text "-d", text "-r", text "-m", text "pipes"]

theorem twiceArgs_settings :
    Settings.ofArgs twiceArgs =
      { mechanism := .pipes, data := .msg, reuse := true, oneway := false } ∧
    ((Complete twiceArgs ∧ ∃ c s, Client.options (text "NativeClient" :: twiceArgs) = some c ∧
      Server.options (text "NativeServer" :: twiceArgs) = some s ∧
      c.Have (.ofArgs twiceArgs) ∧ s.Have (.ofArgs twiceArgs)) ∨
    (¬ Complete twiceArgs ∧ Client.options (text "NativeClient" :: twiceArgs) = none ∧
      Server.options (text "NativeServer" :: twiceArgs) = none)) :=
  ⟨by decide, programs_settings (p := text "NativeClient") (q := text "NativeServer") (by decide)
    (by decide) twiceArgs⟩

end Loops

end IpcWin.Native
