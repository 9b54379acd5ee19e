/-
  IpcWin.SharedMem.Conversation

  One client and one server over the shared memory, their steps interleaved
  freely.
-/

import IpcWin.Lib.Transition
import IpcWin.SharedMem.Phases

namespace IpcWin.SharedMem

open IpcWin.Lib IpcWin.Wire

/-- The two programs and the named objects. -/
structure State where
  client : Client
  server : Server
  kernel : Kernel
deriving DecidableEq, Repr

/-- Which program moves. -/
inductive Proc where
  | client
  | server
deriving DecidableEq, Repr

/-- The conversation as a transition system. -/
def conversation (cfg : Config) : System State Proc where
  init := { client := .start cfg, server := .start cfg, kernel := .start }
  step
    | .client, s =>
        (s.client.step cfg s.kernel).map fun q => { s with client := q.1, kernel := q.2 }
    | .server, s =>
        (s.server.step cfg s.kernel).map fun q => { s with server := q.1, kernel := q.2 }

/-- A step of the conversation is one of either program. -/
theorem conversation_step {cfg : Config} {a : Proc} {s s' : State}
    (h : (conversation cfg).step a s = some s') :
    (∃ c k, a = .client ∧ s.client.step cfg s.kernel = some (c, k) ∧
        s' = { s with client := c, kernel := k }) ∨
      ∃ srv k, a = .server ∧ s.server.step cfg s.kernel = some (srv, k) ∧
        s' = { s with server := srv, kernel := k } := by
  cases a with
  | client =>
      obtain ⟨⟨c, k⟩, hstep, rfl⟩ := Option.map_eq_some_iff.mp h
      exact .inl ⟨c, k, rfl, hstep, rfl⟩
  | server =>
      obtain ⟨⟨srv, k⟩, hstep, rfl⟩ := Option.map_eq_some_iff.mp h
      exact .inr ⟨srv, k, rfl, hstep, rfl⟩

/-! ## The events -/

theorem eventsReady_server {cfg : Config} {s s' : Server} {cpc : ClientPc} {k k' : Kernel}
    (hk : EventsReady s.pc cpc k) (h : s.step cfg k = some (s', k')) :
    EventsReady s'.pc cpc k' := by
  obtain ⟨hmade, hread, hcm, hcr⟩ := hk
  have hreleased : (s.released cfg).pc ≠ .setRead := by
    unfold Server.released
    split_ifs <;> simp
  have hbuild : (s.build cfg).pc ≠ .setRead := by
    unfold Server.build
    split_ifs <;> simp
  -- the steps that touch one of the two events, and the two that may lead to `setRead`
  cases hpc : s.pc <;> simp only [Server.step, hpc] at h
  case waitMade =>
    split_ifs at h
    cases h
    refine ⟨hmade.waitEvent, hread, ?_, fun hc => absurd hc hreleased⟩
    intro hc
    simpa [waitEvent] using hcm hc
  case createRead =>
    split_ifs at h
    cases h
    exact ⟨hmade, hread.createEvent, hcm, fun _ => isSome_createEvent _ _⟩
  case setRead =>
    split_ifs at h
    cases h
    exact ⟨hmade, hread.setEvent, hcm, (by simp)⟩
  case build =>
    split_ifs at h
    cases h
    exact ⟨hmade, hread, hcm, fun hc => absurd hc hbuild⟩
  case readSize | readData | writeSize | writeData =>
    split_ifs at h
    split at h <;> cases h
    · exact ⟨hmade, hread, hcm, fun hc => by simp [Server.crash, hpc] at hc⟩
    · exact ⟨hmade, hread, hcm, (by simp)⟩
  all_goals
    split_ifs at h
    cases h
    exact ⟨hmade, hread, hcm, (by simp)⟩

theorem eventsReady_client {cfg : Config} {c c' : Client} {spc : ServerPc} {k k' : Kernel}
    (hk : EventsReady spc c.pc k) (h : c.step cfg k = some (c', k')) :
    EventsReady spc c'.pc k' := by
  obtain ⟨hmade, hread, hcm, hcr⟩ := hk
  have hreleased : (c.released cfg).pc ≠ .setMade := by
    unfold Client.released
    split_ifs <;> simp
  have hbuild : (c.build cfg).pc ≠ .setMade := by
    unfold Client.build
    split_ifs <;> simp
  -- the steps that touch one of the two events, and the two that may lead to `setMade`
  cases hpc : c.pc <;> simp only [Client.step, hpc] at h
  case build =>
    split_ifs at h
    cases h
    exact ⟨hmade, hread, fun hc => absurd hc hbuild, hcr⟩
  case createMade =>
    split_ifs at h
    cases h
    exact ⟨hmade.createEvent, hread, fun _ => isSome_createEvent _ _, hcr⟩
  case setMade =>
    split_ifs at h
    cases h
    exact ⟨hmade.setEvent, hread, (by simp), hcr⟩
  case waitRead =>
    split_ifs at h
    cases h
    refine ⟨hmade, hread.waitEvent, (by simp), ?_⟩
    intro hc
    simpa [waitEvent] using hcr hc
  case waitResponse =>
    split_ifs at h
    cases h
    exact ⟨hmade, hread, fun hc => absurd hc hreleased, hcr⟩
  case readSize | readData | writeSize | writeData =>
    split_ifs at h
    split at h <;> cases h
    · exact ⟨hmade, hread, fun hc => by simp [Client.crash, hpc] at hc, hcr⟩
    · exact ⟨hmade, hread, (by simp), hcr⟩
  all_goals
    split_ifs at h
    cases h
    exact ⟨hmade, hread, (by simp), hcr⟩

/-- In every state the two events are auto-reset events that exist when they are set. -/
def State.EventsReady (s : State) : Prop :=
  SharedMem.EventsReady s.server.pc s.client.pc s.kernel

theorem eventsReady_init (cfg : Config) : (conversation cfg).init.EventsReady where
  madeAuto e he := by cases he
  readAuto e he := by cases he
  madeCreated hc := by
    simp only [conversation, Client.start] at hc
    split at hc <;> cases hc
  readCreated hc := by
    simp only [conversation, Server.start] at hc
    split at hc <;> cases hc

theorem eventsReady_step {cfg : Config} {s s' : State} {a : Proc} (h : s.EventsReady)
    (hs : (conversation cfg).step a s = some s') : s'.EventsReady := by
  rcases conversation_step hs with ⟨c, k, -, hstep, rfl⟩ | ⟨srv, k, -, hstep, rfl⟩
  · exact eventsReady_client h hstep
  · exact eventsReady_server h hstep

end IpcWin.SharedMem
