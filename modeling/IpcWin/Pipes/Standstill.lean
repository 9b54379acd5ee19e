/-
  IpcWin.Pipes.Standstill

  When a server with any number of clients comes to a standstill, without `-r`.

  As long as the server is not calling `ConnectNamedPipe` on an instance that a
  client has open, some program can move (`clients_progress`), whatever the
  payloads and the sizes of the two queues.  When it is, it calls it again for
  good: the client that was too early is never answered, and no other client is
  served any more either (`spins_forever`).
-/

import IpcWin.Pipes.Progress
import IpcWin.Pipes.Serving

namespace IpcWin.Pipes

open IpcWin.Lib IpcWin.Wire

/-! ## One call -/

section Call

variable {cfg : Config} {s : State} {m q : Packet}

/-- While a request is on its way, the server waits for bytes of it only as long as
    the client has some to write. -/
theorem Asking.unblocked (h : Asking cfg m s) (hin : 0 < cfg.inbuf)
    (hout : 0 < cfg.outbuf) : ¬ (s.server.Blocked cfg s.pipe ∧ s.client.Blocked cfg s.pipe) := by
  rintro ⟨hserver, hclient⟩
  have hasks := h.client
  have hcall : s.client.pc.inCall := by
    cases hpc : s.client.pc with
    | start | waitPipe | createFile => simp only [Client.Asks, hpc] at hasks
    | _ => trivial
  have hfits : s.client.Fits := by
    cases hpc : s.client.pc with
    | readSize =>
        simp only [Client.Asks, hpc] at hasks
        simp [Client.Fits, hpc, hasks.2]
    | readData | readAck => simp only [Client.Asks, hpc] at hasks
    | _ => simp [Client.Fits, hpc]
  -- the server does not look at the requests, so `m` may stand for all of them
  have hroom : 0 < ({ cfg with request := fun _ => m } : Config).outbuf := hout
  have hwaits := Server.Blocked.waits hroom h.connected h.reading (fun _ => h.idle) hserver
  rw [h.quiet] at hwaits
  obtain ⟨hlt, -, hqueue⟩ := hwaits.resolve_left fun hne => hne rfl
  cases hclient.waits hin hcall hfits with
  | room _ _ hroom => exact hroom hqueue
  | size hpc =>
      simp only [Client.Asks, hpc] at hasks
      have hwritten := hasks.1
      rw [Channel.written, hqueue, List.append_nil, h.reading.taken_eq] at hwritten
      have hpiece : s.server.frameRead.piece = frame m := hwritten
      rw [hpiece] at hlt
      exact lt_irrefl _ hlt
  | data hpc | ack hpc => simp only [Client.Asks, hpc] at hasks

/-- While a reply is on its way, the server waits for the client to read only as long
    as there is something to be read. -/
theorem Answering.unblocked (hin : 0 < cfg.inbuf) (hout : 0 < cfg.outbuf)
    (h : Answering q s) : ¬ (s.server.Blocked cfg s.pipe ∧ s.client.Blocked cfg s.pipe) := by
  rintro ⟨hserver, hclient⟩
  have hhears := h.client
  have hqueue : s.pipe.toClient.queue ≠ [] := by
    rcases h.pc with hpc | hpc | hpc
    · have hput := hserver (.put 1)
      have hret := hserver .ret
      simp only [Server.step, hpc, Option.map_eq_none_iff] at hput
      simp only [Server.step, hpc] at hret
      have hleft : ¬ writeReturns s.pipe.gone s.server.pending = true := by
        intro hreturns
        rw [if_pos hreturns] at hret
        split_ifs at hret
      exact (write_blocked hout hput hleft).2
    · have hrun := hserver .run
      intro hnil
      simp [Server.step, hpc, hnil] at hrun
    · have hrun := hserver .run
      simp [Server.step, hpc] at hrun
  have hcall : s.client.pc.inCall := by
    cases hpc : s.client.pc with
    | start | waitPipe | createFile => simp only [Client.Hears, hpc] at hhears
    | _ => trivial
  have hreads := h.reading.reads
  have hfits : s.client.Fits := by
    cases hpc : s.client.pc with
    | readSize =>
        simp only [Client.frameRead, hpc] at hreads
        simp only [Client.Fits, hpc]
        exact hreads
    | readData =>
        simp only [Client.frameRead, hpc] at hreads
        obtain ⟨-, b, hb, -, hle⟩ := hreads
        simp only [Client.Fits, hpc]
        intro block hblock
        cases hb.symm.trans hblock
        exact hle
    | readAck => simp only [Client.Hears, hpc] at hhears
    | _ => simp [Client.Fits, hpc]
  cases hclient.waits hin hcall hfits with
  | room hpc hpending =>
      simp only [Client.Hears, hpc] at hhears
      exact hpending hhears
  | size _ _ hnone => exact hqueue hnone
  | data _ _ _ hnone => exact hqueue hnone
  | ack hpc => simp only [Client.Hears, hpc] at hhears

end Call

/-- Between two calls the server waits only for a client to open its instance. -/
theorem Between.blocked {cfg : Config} {srv : Server} {p : Pipe} (ho : cfg.oneway = false)
    (h : Between srv p) (hblocked : srv.Blocked cfg p) :
    srv.pc = .connecting ∧ p.state = .listening := by
  have hrun := hblocked .run
  have hret := hblocked .ret
  have hgone : p.gone = true := by simp [Pipe.gone, h.gone]
  cases hpc : srv.pc with
  | connecting => exact ⟨rfl, h.accepting (.inr hpc)⟩
  | readSize => exact absurd hpc h.pc.1
  | readData => exact absurd hpc h.pc.2.1
  | build => exact absurd hpc h.pc.2.2
  | connect =>
      simp only [Server.step, hpc] at hrun
      split_ifs at hrun
  | write => simp [Server.step, hpc, writeReturns, hgone, ho] at hret
  | create | flush | disconnect | close => simp [Server.step, hpc, hgone] at hrun

/-- A client that rests waits only for an instance to open. -/
theorem Client.Rests.blocked {cfg : Config} {owed : Option Packet} {c : Client} {p : Pipe}
    (h : c.Rests owed) (hblocked : c.Blocked cfg p) :
    (c.pc = .waitPipe ∨ c.pc = .createFile) ∧ p.state ≠ .listening := by
  have hrun := hblocked .run
  have hret := hblocked .ret
  cases owed with
  | none =>
      have hopen : c.pc.opening = true := h
      cases hpc : c.pc with
      | start => simp [Client.step, hpc] at hrun
      | waitPipe =>
          refine ⟨.inl rfl, ?_⟩
          intro hl
          simp [Client.step, hpc, hl] at hrun
      | createFile =>
          refine ⟨.inr rfl, ?_⟩
          intro hl
          simp [Client.step, hpc, hl] at hrun
      | _ => simp [hpc, ClientPc.opening] at hopen
  | some q =>
      obtain ⟨hdone, hread⟩ := h
      have hfull := hread.full_of_taken rfl
      cases hpc : c.pc with
      | readSize =>
          simp only [Client.frameRead, hpc, FrameRead.Full] at hfull
          simp [Client.step, hpc, readReturns, hfull] at hret
      | readData =>
          cases hb : c.response with
          | none => simp [Client.step, hpc, hb] at hret
          | some block =>
              simp only [Client.frameRead, hpc, hb, FrameRead.Full] at hfull
              simp [Client.step, hpc, hb, readReturns, hfull] at hret
      | close | deliver => simp [Client.step, hpc] at hrun
      | start | waitPipe | createFile =>
          have hnot : c.pc.opening = false := Rests.not_opening ⟨hdone, hread⟩
          simp [hpc, ClientPc.opening] at hnot
      | build | write | readAck => simp only [Client.Done, hpc] at hdone

/-! ## All clients -/

/-- The server calls `ConnectNamedPipe` on an instance that a client has open. -/
def Clients.Spins {ι : Type*} (s : Clients ι) : Prop :=
  s.server.pc = .connect ∧ s.pipe.state = .connected

section Clients

variable {ι : Type*} [DecidableEq ι] {cfg : Config} {request : ι → Nat → Packet}
  {s s' : Clients ι}

/-- Unless the server spins, some program can move, and that by another step than a
    `ConnectNamedPipe` that fails. -/
theorem clients_progress [Nonempty ι] (hr : cfg.reuse = false) (ho : cfg.oneway = false)
    (hshort : cfg.shortReads = false) (hin : 0 < cfg.inbuf) (hout : 0 < cfg.outbuf)
    (h : Reachable (clients cfg request) s) (hspins : ¬ s.Spins) :
    ∃ a s', (clients cfg request).step a s = some s' ∧
      (a = .server .run → s.server.pc = .connect → s.pipe.state = .listening) := by
  obtain ⟨t, -, hserves⟩ := serves_of_reachable hr ho hshort h
  have hcalm : s.server.pc = .connect → s.pipe.state = .listening := by
    intro hpc
    cases hserves.phase with
    | between hbetween => exact hbetween.accepting (.inl hpc)
    | asking i _ _ hasking => exact absurd ⟨hpc, hasking.connected⟩ hspins
    | answering i q _ _ hanswering =>
        have hw := hanswering.pc
        simp [Clients.pair, hpc] at hw
  by_contra hnone
  have hstuck : ∀ a, (clients cfg request).step a s = none := by
    intro a
    by_contra hsome
    obtain ⟨s', hs⟩ := Option.ne_none_iff_exists'.mp hsome
    exact hnone ⟨a, s', hs, fun _ => hcalm⟩
  have hserver : s.server.Blocked cfg s.pipe := fun io =>
    Option.map_eq_none_iff.mp (hstuck (.server io))
  have hclient : ∀ i, (s.client i).Blocked (cfg.for request i) (s.seen i) := fun i io =>
    Option.map_eq_none_iff.mp (hstuck (.client i io))
  cases hserves.phase with
  | between hbetween hrest =>
      obtain ⟨-, hl⟩ := hbetween.blocked ho hserver
      obtain ⟨i⟩ := ‹Nonempty ι›
      obtain ⟨hpc, hseen⟩ := (hrest i).blocked (hclient i)
      apply hseen
      rcases hpc with hpc | hpc <;> simp [Clients.seen, Clients.finds, hpc, ClientPc.opening, hl]
  | asking i howner _ hasking =>
      have hblocked := hclient i
      rw [seen_of_owner howner] at hblocked
      exact hasking.unblocked hin hout ⟨hserver, hblocked⟩
  | answering i q howner _ hanswering =>
      have hblocked := hclient i
      rw [seen_of_owner howner] at hblocked
      have hroom : 0 < (cfg.for request i).inbuf := hin
      exact hanswering.unblocked hroom hout ⟨hserver, hblocked⟩

/-- Once the server spins, no step of any program makes it stop, and the client that has
    the instance open is handed nothing. -/
theorem Clients.Spins.step {a : ClientsAction ι} (hspins : s.Spins) (hr : cfg.reuse = false)
    (ho : cfg.oneway = false) (hshort : cfg.shortReads = false)
    (h : Reachable (clients cfg request) s) (hs : (clients cfg request).step a s = some s') :
    s'.Spins ∧ s'.server = s.server ∧ s'.owner = s.owner ∧
      ∀ i, s.owner = some i → (s'.client i).delivered = (s.client i).delivered := by
  obtain ⟨hpc, hconn⟩ := hspins
  obtain ⟨t, -, hserves⟩ := serves_of_reachable hr ho hshort h
  -- with a client at the instance and no reply in sight, a request is on its way
  obtain ⟨i, howner, m, hasking⟩ :
      ∃ i, s.owner = some i ∧ ∃ m, Asking (cfg.for request i) m (s.pair i) := by
    cases hserves.phase with
    | between hbetween => exact absurd hconn hbetween.gone
    | asking i howner _ hasking => exact ⟨i, howner, _, hasking⟩
    | answering i q _ _ hanswering =>
        have hw := hanswering.pc
        simp [Clients.pair, hpc] at hw
  rcases clients_step hs with ⟨io, srv, p, -, hstep, rfl⟩ | ⟨j, io, c, p, -, hstep, rfl⟩
  · have hsame : srv = s.server ∧ p = s.pipe := by
      cases Server.step_cases hstep with
      | spin => exact ⟨rfl, rfl⟩
      | block _ hl => rw [hconn] at hl; cases hl
      | _ hother => rw [hpc] at hother; cases hother
    obtain ⟨rfl, rfl⟩ := hsame
    exact ⟨⟨hpc, hconn⟩, rfl, by simp [Clients.moveServer, hpc], fun _ _ => rfl⟩
  · have hcreate : (s.client j).pc ≠ .createFile := by
      intro hopen
      have hseen : s.seen j = s.pipe := by
        simp [Clients.seen, Clients.finds, hopen, ClientPc.opening]
      rw [hseen] at hstep
      cases hstep with
      | createFile _ hl => rw [hconn] at hl; cases hl
      | _ hother => rw [hopen] at hother; cases hother
    by_cases hij : j = i
    · subst hij
      rw [seen_of_owner howner] at hstep
      obtain ⟨hnext, hdel⟩ := hasking.client_step hstep ho hshort
      rw [moveClient_of_owner howner]
      refine ⟨⟨hpc, hnext.connected⟩, rfl, howner.symm, ?_⟩
      intro k hk
      obtain rfl := Option.some.inj (howner.symm.trans hk)
      simp only [Function.update_self]
      exact hdel
    · refine ⟨⟨hpc, ?_⟩, rfl, if_neg hcreate, ?_⟩
      · show (if s.finds j then p else s.pipe).state = .connected
        split_ifs with hfinds
        · -- another client finds the instance only by its name
          have hopen : (s.client j).pc.opening = true := by
            have hne : s.owner ≠ some j := by
              rw [howner]
              exact fun heq => hij (Option.some.inj heq).symm
            simpa [Clients.finds, hne] using hfinds
          have hseen : s.seen j = s.pipe := by simp [Clients.seen, hfinds]
          rw [hseen] at hstep
          refine hstep.connected ?_ hconn
          intro hclose
          rw [hclose] at hopen
          cases hopen
        · exact hconn
      · intro k hk
        obtain rfl := Option.some.inj (howner.symm.trans hk)
        show (Function.update s.client j c i).delivered = _
        rw [Function.update_of_ne (Ne.symm hij)]

/-- Once the server spins it does so for good: no request of any client is served any
    more, and the client that has the instance open is never answered. -/
theorem spins_forever (hr : cfg.reuse = false) (ho : cfg.oneway = false)
    (hshort : cfg.shortReads = false) (h : Reachable (clients cfg request) s) (hspins : s.Spins)
    (hlater : Reachable { clients cfg request with init := s } s') :
    s'.Spins ∧ s'.server = s.server ∧
      ∀ i, s.owner = some i → (s'.client i).delivered = (s.client i).delivered := by
  have hall : Reachable (clients cfg request) s' ∧ s'.Spins ∧ s'.server = s.server ∧
      s'.owner = s.owner ∧
      ∀ i, s.owner = some i → (s'.client i).delivered = (s.client i).delivered := by
    refine hlater.invariant (I := fun t => Reachable (clients cfg request) t ∧ t.Spins ∧
      t.server = s.server ∧ t.owner = s.owner ∧
      ∀ i, s.owner = some i → (t.client i).delivered = (s.client i).delivered)
      ⟨h, hspins, rfl, rfl, fun _ _ => rfl⟩ ?_
    rintro t a t' ⟨ht, hspin, hserver, howner, hdel⟩ hs
    obtain ⟨hspin', hserver', howner', hdel'⟩ := hspin.step hr ho hshort ht hs
    refine ⟨ht.step hs, hspin', hserver'.trans hserver, howner'.trans howner, ?_⟩
    intro i hi
    exact (hdel' i (howner.trans hi)).trans (hdel i hi)
  exact ⟨hall.2.1, hall.2.2.1, hall.2.2.2.2⟩

end Clients

/-! ## Two clients, one of them too early -/

/-- The instance is opened by one client before the server has called
    `ConnectNamedPipe`. -/
def earlyClient : List (ClientsAction Bool) :=
  [.server .run, .client true .run, .client false .run, .client true .run, .client true .run]

theorem earlyClient_spins_forever :
    ∃ s, Reachable (clients successorConfig oneOrSixteen) s ∧ s.Spins ∧ s.owner = some true ∧
      ∀ s', Reachable { clients successorConfig oneOrSixteen with init := s } s' →
        s'.Spins ∧ s'.server = s.server ∧
          ∀ i, s.owner = some i → (s'.client i).delivered = (s.client i).delivered := by
  have hrun : ((clients successorConfig oneOrSixteen).run earlyClient).map
      (fun s => (s.server.pc, s.pipe.state, s.owner)) =
      some (.connect, .connected, some true) := by decide
  obtain ⟨s, hs, heq⟩ := Option.map_eq_some_iff.mp hrun
  obtain ⟨hpc, hconn, howner⟩ : s.server.pc = .connect ∧ s.pipe.state = .connected ∧
      s.owner = some true := by simpa using heq
  exact ⟨s, Exec.of_run hs, ⟨hpc, hconn⟩, howner, fun s' hlater =>
    spins_forever rfl rfl rfl (Exec.of_run hs) ⟨hpc, hconn⟩ hlater⟩

/-- The instance is opened while the server is blocked inside `ConnectNamedPipe`. -/
def patientClient : List (ClientsAction Bool) :=
  [.server .run, .server .run, .client true .run, .client false .run, .client true .run,
    .client true .run]

theorem patientClient_progress :
    ∃ s, Reachable (clients successorConfig oneOrSixteen) s ∧ s.pipe.state = .connected ∧
      ∃ a s', (clients successorConfig oneOrSixteen).step a s = some s' ∧
        (a = .server .run → s.server.pc = .connect → s.pipe.state = .listening) := by
  have hrun : ((clients successorConfig oneOrSixteen).run patientClient).map
      (fun s => (s.server.pc, s.pipe.state)) = some (.connecting, .connected) := by decide
  obtain ⟨s, hs, heq⟩ := Option.map_eq_some_iff.mp hrun
  obtain ⟨hpc, hconn⟩ := Prod.mk.inj heq
  have hspins : ¬ s.Spins := by
    intro hspins
    rw [hspins.1] at hpc
    cases hpc
  exact ⟨s, Exec.of_run hs, hconn,
    clients_progress rfl rfl rfl (by decide) (by decide) (Exec.of_run hs) hspins⟩

end IpcWin.Pipes
