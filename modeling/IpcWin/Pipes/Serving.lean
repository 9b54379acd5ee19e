/-
  IpcWin.Pipes.Serving

  Any number of pipe clients without `-r` are served like callers of one service.

  A call takes effect when the server's builder is handed the request; from then on
  the reply is owed to the client, and the client is handed it however long after
  the server has gone on to others.  So the clients are simulated by a service that
  takes one call at a time (`simulatesService`): every request is served once, in
  its client's order, and no client is ever handed a reply to another one's.

  With `-r` there is one instance and no other, and only the client that has opened
  it is ever served (`served_first_of_reuse`).
-/

import IpcWin.Service
import IpcWin.Pipes.Clients

namespace IpcWin.Pipes

open IpcWin.Lib IpcWin.Wire

variable {ι : Type*} [DecidableEq ι]

/-! ## One service for all clients -/

/-- The instance is between two calls, or it carries the call of its owner; every other
    client rests. -/
inductive Phase (cfg : Config) (request : ι → Nat → Packet) (s : Clients ι) (t : Service ι) : Prop
  | between (h : Between s.server s.pipe) (rest : ∀ i, (s.client i).Rests (t.owed i))
  | asking (i : ι) (owner : s.owner = some i) (free : t.owed i = none)
      (h : Asking (cfg.for request i) (request i (t.handed i).length) (s.pair i))
      (rest : ∀ j, j ≠ i → (s.client j).Rests (t.owed j))
  | answering (i : ι) (q : Packet) (owner : s.owner = some i) (owed : t.owed i = some q)
      (h : Answering q (s.pair i)) (rest : ∀ j, j ≠ i → (s.client j).Rests (t.owed j))

/-- What the builders have been handed is what the service has come to. -/
structure Serves (cfg : Config) (request : ι → Nat → Packet) (s : Clients ι) (t : Service ι) :
    Prop where
  received : t.received = s.server.received
  handed : ∀ i, t.handed i = (s.client i).delivered
  made : ∀ i, (s.client i).made = (s.client i).delivered.length + (s.client i).outstanding
  phase : Phase cfg request s t

/-- The service has come as far as the clients, without a step or with one. -/
def Follows (cfg : Config) (request : ι → Nat → Packet) (s' : Clients ι) (t : Service ι) : Prop :=
  Serves cfg request s' t ∨
    ∃ b t', (service request cfg.builder).step b t = some t' ∧ Serves cfg request s' t'

section Serving

variable {cfg : Config} {request : ι → Nat → Packet} {s : Clients ι} {t : Service ι} {io : Io}

theorem Serves.init (cfg : Config) (request : ι → Nat → Packet) :
    Serves cfg request (clients cfg request).init (service request cfg.builder).init where
  received := rfl
  handed _ := rfl
  made _ := rfl
  phase := by
    refine .between ?_ fun _ => rfl
    cases Stage.init cfg with
    | apart h => exact h.between
    | asking h => cases h.connected
    | answering h => cases h.connected

theorem serves_server {srv : Server} {p : Pipe} (hr : cfg.reuse = false)
    (ho : cfg.oneway = false) (hshort : cfg.shortReads = false) (h : Serves cfg request s t)
    (hs : s.server.step cfg io s.pipe = some (srv, p)) :
    Follows cfg request (s.moveServer (srv, p)) t := by
  obtain ⟨hrec, hhanded, hmade, hphase⟩ := h
  cases hphase with
  | between h hrest =>
      obtain ⟨hsame, hnext⟩ := h.server_step hr ho (Server.step_cases hs)
      exact .inl ⟨hrec.trans hsame.symm, hhanded, hmade, .between hnext hrest⟩
  | asking i howner hfree h hrest =>
      have hkeeps : (s.moveServer (srv, p)).owner = some i := by
        refine (if_neg ?_).trans howner
        intro hpc
        have hasked := h.pc
        simp only [Clients.pair, hpc] at hasked
        exact hasked.elim
      rcases h.server_step (Server.step_for request i hs) ho hshort with
        ⟨hsame, hnext⟩ | ⟨hmore, hnext⟩
      · exact .inl ⟨hrec.trans hsame.symm, hhanded, hmade, .asking i hkeeps hfree hnext hrest⟩
      · -- the builder is handed the request: this is where the call takes effect
        have hlog : (t.serve request cfg.builder i).received = srv.received := by
          rw [hmore, Service.serve, Service.received, List.map_append]
          exact congrArg (· ++ _) hrec
        have howed : (t.serve request cfg.builder i).owed i = some (cfg.builder srv.received) := by
          rw [← hlog]
          exact Function.update_self _ _ _
        refine .inr ⟨.serve i, t.serve request cfg.builder i, ?_, hlog, hhanded, hmade,
          .answering i _ hkeeps howed hnext ?_⟩
        · simp only [service, hfree]
        · intro j hj
          show (s.client j).Rests (Function.update t.owed i _ j)
          rw [Function.update_of_ne hj]
          exact hrest j hj
  | answering i q howner howed h hrest =>
      have hkeeps : (s.moveServer (srv, p)).owner = some i := by
        refine (if_neg ?_).trans howner
        intro hpc
        have hw := h.pc
        simp [Clients.pair, hpc] at hw
      obtain ⟨hsame, hnext | ⟨hbetween, hlast⟩⟩ :=
        h.server_step (Server.step_for request i hs) hr ho
      · exact .inl ⟨hrec.trans hsame.symm, hhanded, hmade, .answering i q hkeeps howed hnext hrest⟩
      · refine .inl ⟨hrec.trans hsame.symm, hhanded, hmade, .between hbetween ?_⟩
        intro j
        by_cases hj : j = i
        · rw [hj, howed]
          exact hlast
        · exact hrest j hj

/-- A client that opens no instance and leaves what it finds as it is. -/
theorem moveClient_seen {i : ι} {c : Client} (hne : (s.client i).pc ≠ .createFile) :
    s.moveClient i (c, s.seen i) = { s with client := Function.update s.client i c } := by
  have hpipe : (if s.finds i then s.seen i else s.pipe) = s.pipe := by
    unfold Clients.seen
    split_ifs <;> rfl
  simp only [Clients.moveClient, hpipe, if_neg hne]

/-- A client that rests and opens no instance leaves the others and the instance as
    they are; the service answers it if it is handed its reply. -/
theorem rests_client {i : ι} {c : Client} {p : Pipe} (hr : cfg.reuse = false)
    (ho : cfg.oneway = false) (hhanded : t.handed i = (s.client i).delivered)
    (hrest : (s.client i).Rests (t.owed i)) (hne : (s.client i).pc ≠ .createFile)
    (hp : (s.client i).pc.opening = false →
      (s.seen i).state ≠ .connected ∧ (s.seen i).toClient.queue = [])
    (hs : Client.Step (cfg.for request i) (s.client i) (s.seen i) io c p) :
    s.moveClient i (c, p) = { s with client := Function.update s.client i c } ∧
      ∃ t', (t' = t ∨ ∃ b, (service request cfg.builder).step b t = some t') ∧ t'.log = t.log ∧
        t'.handed i = c.delivered ∧ c.Rests (t'.owed i) ∧
        ∀ j, j ≠ i → t'.owed j = t.owed j ∧ t'.handed j = t.handed j := by
  obtain ⟨rfl, hnext⟩ := hrest.step hs hr ho hne hp
  refine ⟨moveClient_seen hne, ?_⟩
  rcases hnext with ⟨hrests, hsame⟩ | ⟨q, howed, hrests, hdel⟩
  · exact ⟨t, .inl rfl, rfl, hhanded.trans hsame.symm, hrests, fun _ _ => ⟨rfl, rfl⟩⟩
  · refine ⟨t.answer i q, .inr ⟨.answer i, ?_⟩, rfl, ?_, ?_, ?_⟩
    · simp only [service, howed, Option.map_some]
    · rw [hdel, ← hhanded]
      exact Function.update_self _ _ _
    · show c.Rests (Function.update t.owed i none i)
      rw [Function.update_self]
      exact hrests
    · intro j hj
      exact ⟨Function.update_of_ne hj _ _, Function.update_of_ne hj _ _⟩

/-- The bookkeeping of `Serves` after the step of one client. -/
theorem Serves.of_client {i : ι} {c : Client} {s' : Clients ι} {t' : Service ι}
    (h : Serves cfg request s t) (hserver : s'.server = s.server)
    (hclient : s'.client = Function.update s.client i c) (hlog : t'.log = t.log)
    (hi : t'.handed i = c.delivered) (hmade : c.made = c.delivered.length + c.outstanding)
    (hothers : ∀ j, j ≠ i → t'.owed j = t.owed j ∧ t'.handed j = t.handed j)
    (hphase : Phase cfg request s' t') : Serves cfg request s' t' where
  received := by
    rw [Service.received, hlog, hserver]
    exact h.received
  handed j := by
    rw [hclient]
    by_cases hj : j = i
    · subst hj
      rw [Function.update_self]
      exact hi
    · rw [Function.update_of_ne hj, (hothers j hj).2]
      exact h.handed j
  made j := by
    rw [hclient]
    by_cases hj : j = i
    · subst hj
      rw [Function.update_self]
      exact hmade
    · rw [Function.update_of_ne hj]
      exact h.made j
  phase := hphase

/-- A client that does not open an instance finds its own, if it has one. -/
theorem seen_of_not_opening {i : ι} (hopen : (s.client i).pc.opening = false) :
    s.seen i = if s.owner = some i then s.pipe else .lost := by
  by_cases howner : s.owner = some i
  · simp [Clients.seen, Clients.finds, howner]
  · simp [Clients.seen, Clients.finds, hopen, howner]

/-- The owner of the instance makes a step of its call. -/
theorem seen_of_owner {i : ι} (howner : s.owner = some i) : s.seen i = s.pipe := by
  simp [Clients.seen, Clients.finds, howner]

theorem moveClient_of_owner {i : ι} {c : Client} {p : Pipe} (howner : s.owner = some i) :
    s.moveClient i (c, p) =
      { s with client := Function.update s.client i c, pipe := p, owner := some i } := by
  simp [Clients.moveClient, Clients.finds, howner]

/-- A client that rests and opens no instance makes a step: the phase stays. -/
theorem Serves.rest_client {i : ι} {c : Client} {p : Pipe} (h : Serves cfg request s t)
    (hs : Client.Step (cfg.for request i) (s.client i) (s.seen i) io c p) (hr : cfg.reuse = false)
    (ho : cfg.oneway = false) (hrest : (s.client i).Rests (t.owed i))
    (hne : (s.client i).pc ≠ .createFile)
    (hp : (s.client i).pc.opening = false →
      (s.seen i).state ≠ .connected ∧ (s.seen i).toClient.queue = [])
    (hphase : ∀ t' : Service ι, c.Rests (t'.owed i) →
      (∀ j, j ≠ i → t'.owed j = t.owed j ∧ t'.handed j = t.handed j) →
      Phase cfg request { s with client := Function.update s.client i c } t') :
    Follows cfg request (s.moveClient i (c, p)) t := by
  obtain ⟨hmove, t', hstep, hlog, hi, hrests, hothers⟩ :=
    rests_client hr ho (h.handed i) hrest hne hp hs
  have hserves : Serves cfg request { s with client := Function.update s.client i c } t' :=
    h.of_client rfl rfl hlog hi (hs.made ho (h.made i)) hothers (hphase t' hrests hothers)
  rw [hmove]
  rcases hstep with rfl | ⟨b, hb⟩
  · exact .inl hserves
  · exact .inr ⟨b, t', hb, hserves⟩

/-- All clients but the owner rest, after the step of one of them. -/
theorem rests_update {i : ι} {c : Client} {t' : Service ι} {P : ι → Prop}
    (hrest : ∀ j, P j → (s.client j).Rests (t.owed j)) (hi : c.Rests (t'.owed i))
    (hothers : ∀ j, j ≠ i → t'.owed j = t.owed j) :
    ∀ j, P j → (Function.update s.client i c j).Rests (t'.owed j) := by
  intro j hj
  by_cases hij : j = i
  · subst hij
    rw [Function.update_self]
    exact hi
  · rw [Function.update_of_ne hij, hothers j hij]
    exact hrest j hj

theorem serves_client {i : ι} {c : Client} {p : Pipe} (hr : cfg.reuse = false)
    (ho : cfg.oneway = false) (hshort : cfg.shortReads = false) (h : Serves cfg request s t)
    (hs : Client.Step (cfg.for request i) (s.client i) (s.seen i) io c p) :
    Follows cfg request (s.moveClient i (c, p)) t := by
  have hmade := hs.made ho (h.made i)
  have hkept : ∀ j, j ≠ i → t.owed j = t.owed j ∧ t.handed j = t.handed j :=
    fun _ _ => ⟨rfl, rfl⟩
  -- a client that has no part in the call in progress finds nothing at its old handle
  have hlost : ∀ j, s.owner = some j → i ≠ j → (s.client i).pc.opening = false →
      (s.seen i).state ≠ .connected ∧ (s.seen i).toClient.queue = [] := by
    intro j howner hij hopen
    have hne : s.owner ≠ some i := by
      rw [howner]
      exact fun heq => hij (Option.some.inj heq).symm
    rw [seen_of_not_opening hopen, if_neg hne]
    exact ⟨by simp [Pipe.lost], rfl⟩
  -- nor can it open an instance that another client has open
  have hopened : s.pipe.state = .connected → (s.client i).pc ≠ .createFile := by
    intro hconn hpc
    have hseen : s.seen i = s.pipe := by simp [Clients.seen, Clients.finds, hpc, ClientPc.opening]
    rw [hseen] at hs
    cases hs with
    | createFile _ hl => rw [hconn] at hl; cases hl
    | _ hother => rw [hpc] at hother; cases hother
  cases h.phase with
  | between hbetween hrest =>
      -- the client that opens the instance begins the next call
      by_cases hpc : (s.client i).pc = .createFile
      · have hseen : s.seen i = s.pipe := by
          simp [Clients.seen, Clients.finds, hpc, ClientPc.opening]
        have hfree : t.owed i = none := by
          cases howed : t.owed i with
          | none => rfl
          | some q =>
              have hopen := (howed ▸ hrest i : (s.client i).Rests (some q)).not_opening
              rw [hpc] at hopen
              cases hopen
        rw [hseen] at hs
        obtain ⟨hdel, hasking⟩ := hbetween.opened hs hr ho hpc
        have hfirst : (s.client i).made = (t.handed i).length := by
          rw [h.made i, h.handed i]
          simp [Client.outstanding, hpc]
        have hmove : s.moveClient i (c, p) =
            { s with client := Function.update s.client i c, pipe := p, owner := some i } := by
          simp [Clients.moveClient, Clients.finds, hpc, ClientPc.opening]
        rw [hmove]
        refine .inl (h.of_client rfl rfl rfl ((h.handed i).trans hdel.symm) hmade hkept
          (.asking i rfl hfree ?_ ?_))
        · simp only [Clients.pair, Function.update_self]
          rw [← hfirst]
          exact hasking
        · intro j hj
          simp only [Function.update_of_ne hj]
          exact hrest j
      · refine h.rest_client hs hr ho (hrest i) hpc ?_ ?_
        · intro hopen
          rw [seen_of_not_opening hopen]
          split_ifs
          · exact ⟨hbetween.gone, hbetween.queue⟩
          · exact ⟨by simp [Pipe.lost], rfl⟩
        · intro t' hi hothers
          have hall := rests_update (P := fun _ => True) (fun j _ => hrest j) hi
            fun j hj => (hothers j hj).1
          exact .between hbetween fun j => hall j trivial
  | asking j howner hfree hasking hrest =>
      by_cases hij : i = j
      · subst hij
        rw [seen_of_owner howner] at hs
        -- the client whose call is in progress goes on with it
        obtain ⟨hnext, hdel⟩ := hasking.client_step hs ho hshort
        rw [moveClient_of_owner howner]
        refine .inl (h.of_client rfl rfl rfl ((h.handed i).trans hdel.symm) hmade hkept
          (.asking i rfl hfree ?_ ?_))
        · simp only [Clients.pair, Function.update_self]
          exact hnext
        · intro k hk
          simp only [Function.update_of_ne hk]
          exact hrest k hk
      · refine h.rest_client hs hr ho (hrest i hij) (hopened hasking.connected)
          (hlost j howner hij) ?_
        intro t' hi hothers
        obtain ⟨howed, hhanded⟩ := hothers j (Ne.symm hij)
        refine .asking j howner (howed.trans hfree) ?_
          (rests_update hrest hi fun k hk => (hothers k hk).1)
        simp only [Clients.pair, Function.update_of_ne (Ne.symm hij), hhanded]
        exact hasking
  | answering j q howner howed hanswering hrest =>
      by_cases hij : i = j
      · subst hij
        rw [seen_of_owner howner] at hs
        obtain ⟨hdel, hnext⟩ := hanswering.client_step hs hr ho hshort
        rw [moveClient_of_owner howner]
        refine .inl (h.of_client rfl rfl rfl ((h.handed i).trans hdel.symm) hmade hkept ?_)
        rcases hnext with hnext | ⟨hbetween, hlast⟩
        · refine .answering i q rfl howed ?_ ?_
          · simp only [Clients.pair, Function.update_self]
            exact hnext
          · intro k hk
            simp only [Function.update_of_ne hk]
            exact hrest k hk
        · refine .between hbetween ?_
          intro k
          by_cases hk : k = i
          · rw [hk, howed]
            simp only [Function.update_self]
            exact hlast
          · simp only [Function.update_of_ne hk]
            exact hrest k hk
      · refine h.rest_client hs hr ho (hrest i hij) (hopened hanswering.connected)
          (hlost j howner hij) ?_
        intro t' hi hothers
        refine .answering j q howner (((hothers j (Ne.symm hij)).1).trans howed) ?_
          (rests_update hrest hi fun k hk => (hothers k hk).1)
        simp only [Clients.pair, Function.update_of_ne (Ne.symm hij)]
        exact hanswering

end Serving

/-- The clients and their server are simulated by a service that takes one call at a
    time. -/
def simulatesService {cfg : Config} (request : ι → Nat → Packet) (hr : cfg.reuse = false)
    (ho : cfg.oneway = false) (hshort : cfg.shortReads = false) :
    Simulation (clients cfg request) (service request cfg.builder) fun _ _ => True where
  rel := Serves cfg request
  rel_init := Serves.init cfg request
  rel_step s t a s' h _ hs := by
    rcases clients_step hs with ⟨io, srv, p, -, hstep, rfl⟩ | ⟨i, io, c, p, -, hstep, rfl⟩
    · exact serves_server hr ho hshort h hstep
    · exact serves_client hr ho hshort h hstep

/-! ## What every client is handed -/

section Served

variable {cfg : Config} {request : ι → Nat → Packet} {s : Clients ι}

/-- The clients and their server are accompanied by the service. -/
theorem serves_of_reachable (hr : cfg.reuse = false) (ho : cfg.oneway = false)
    (hshort : cfg.shortReads = false) (h : Reachable (clients cfg request) s) :
    ∃ t, Reachable (service request cfg.builder) t ∧ Serves cfg request s t := by
  obtain ⟨tr, htr⟩ := h
  exact (simulatesService request hr ho hshort).exec htr fun _ _ => trivial

/-- What the server and the clients have been handed is what a service would have been,
    called by the clients one call at a time. -/
theorem clients_served (hr : cfg.reuse = false) (ho : cfg.oneway = false)
    (hshort : cfg.shortReads = false) (h : Reachable (clients cfg request) s) :
    ∃ t, Reachable (service request cfg.builder) t ∧ t.received = s.server.received ∧
      ∀ i, t.handed i = (s.client i).delivered := by
  obtain ⟨t, ht, hserves⟩ := serves_of_reachable hr ho hshort h
  exact ⟨t, ht, hserves.received, hserves.handed⟩

/-- Every request that was built is served at most once, in its client's order, and all
    that the server was handed are such requests. -/
theorem clients_served_once (hr : cfg.reuse = false) (ho : cfg.oneway = false)
    (hshort : cfg.shortReads = false) (h : Reachable (clients cfg request) s) :
    ∃ log : List (ι × Received), log.map Prod.snd = s.server.received ∧
      ∀ i, ∃ n, (s.client i).delivered.length ≤ n ∧ n ≤ (s.client i).delivered.length + 1 ∧
        (log.filter fun e => e.1 = i).map Prod.snd =
          (List.range n).map fun k => (request i k).received := by
  obtain ⟨t, ht, hserves⟩ := serves_of_reachable hr ho hshort h
  refine ⟨t.log, hserves.received, ?_⟩
  intro i
  refine ⟨_, ?_, ?_, (Service.inTurn_of_reachable ht).served i⟩
  · rw [hserves.handed]
    exact Nat.le_add_right _ _
  · rw [hserves.handed]
    cases t.owed i with
    | none => exact Nat.le_succ _
    | some q => exact Nat.le_refl _

/-- No client is handed more replies than the server has been handed requests. -/
theorem delivered_le_received (hr : cfg.reuse = false) (ho : cfg.oneway = false)
    (hshort : cfg.shortReads = false) (h : Reachable (clients cfg request) s) (i : ι) :
    (s.client i).delivered.length ≤ s.server.received.length := by
  obtain ⟨t, ht, hserves⟩ := serves_of_reachable hr ho hshort h
  have hserved := congrArg List.length ((Service.inTurn_of_reachable ht).served i)
  have hle := List.length_filter_le (fun e => decide (e.1 = i)) t.log
  rw [List.length_map, List.length_map, List.length_range, hserves.handed] at hserved
  rw [← hserves.received, Service.received, List.length_map]
  omega

/-- With replies of the request alone, every client is handed its own. -/
theorem handed_of_pointwise {reply : Packet → Packet} (hr : cfg.reuse = false)
    (ho : cfg.oneway = false) (hshort : cfg.shortReads = false)
    (hb : Service.Pointwise request cfg.builder reply) (h : Reachable (clients cfg request) s)
    (i : ι) :
    (s.client i).delivered = (List.range (s.client i).delivered.length).map
      fun k => (reply (request i k)).received := by
  obtain ⟨t, ht, hserves⟩ := serves_of_reachable hr ho hshort h
  have hown := Service.handed_of_pointwise hb ht i
  rw [hserves.handed] at hown
  exact hown

/-- With replies that are as they should be whatever came before, every client is handed
    such ones. -/
theorem handed_of_fitting {P : ι → Nat → Packet → Prop} (hr : cfg.reuse = false)
    (ho : cfg.oneway = false) (hshort : cfg.shortReads = false)
    (hb : Service.Fitting request cfg.builder P) (h : Reachable (clients cfg request) s)
    {i : ι} {k : Nat} {r : Received} (hreply : (s.client i).delivered[k]? = some r) :
    ∃ q, P i k q ∧ r = q.received := by
  obtain ⟨t, ht, hserves⟩ := serves_of_reachable hr ho hshort h
  rw [← hserves.handed] at hreply
  exact (Service.right_of_reachable hb ht).handed i k r hreply

/-- If the server's reply depends on the request alone, every client is handed the
    replies to its own requests, whatever the others ask and whenever. -/
theorem clients_handed_own {reply : Packet → Packet} (hr : cfg.reuse = false)
    (ho : cfg.oneway = false) (hshort : cfg.shortReads = false)
    (hb : Service.Pointwise request cfg.builder reply) (h : Reachable (clients cfg request) s)
    (i : ι) :
    (s.client i).delivered = (List.range (s.client i).delivered.length).map
      fun k => (reply (request i k)).received :=
  handed_of_pointwise hr ho hshort hb h i

end Served

/-! ## Two clients -/

/-- The last byte of the last request, and one more. -/
def successor (m : Packet) : Packet := .ofByte (m.bytes.getLastD 0 + 1)

/-- A server that answers with `successor`. -/
def successorConfig : Config :=
  { reuse := false, oneway := false, inbuf := 64, outbuf := 64, shortReads := false
    junk := fun _ => 0
    request := fun _ => .empty
    builder := fun rs => .ofByte ((((rs.getLast?.bind Prod.snd).getD []).getLastD 0) + 1) }

/-- One client asks for the successor of 1, the other one for that of 16. -/
def oneOrSixteen (i : Bool) (_ : Nat) : Packet := .ofByte (if i then 0x10 else 0x01)

theorem successor_pointwise :
    Service.Pointwise oneOrSixteen successorConfig.builder successor := by
  intro rs i k _
  simp [successorConfig, successor, Packet.received]

/-- The server goes from one accept to the next, while the client `i` makes a call up to
    the point where it has read its reply. -/
def callOf (i : Bool) : List (ClientsAction Bool) :=
  [.server .run, .server .run, .client i .run, .client i .run, .client i .run, .server .run,
    .client i .run, .client i (.put 5), .client i .ret, .server (.take 4), .server .ret,
    .server (.take 1), .server .ret, .server .run, .server (.put 5), .server .ret,
    .client i (.take 4), .client i .ret, .client i (.take 1), .server .run, .server .run,
    .server .run]

/-- The second client is served and handed its reply while the first one still holds
    its own. -/
def overlappingCalls : List (ClientsAction Bool) :=
  callOf false ++ callOf true ++ [.client true .ret, .client true .run, .client true .run,
    .client false .ret, .client false .run, .client false .run]

theorem overlappingCalls_run :
    ∃ s, Reachable (clients successorConfig oneOrSixteen) s ∧
      (s.client false).delivered = [(1, some [0x02])] ∧
      (s.client true).delivered = [(1, some [0x11])] := by
  have hrun : ((clients successorConfig oneOrSixteen).run overlappingCalls).map
      (fun s => ((s.client false).delivered, (s.client true).delivered)) =
      some ([(1, some [0x02])], [(1, some [0x11])]) := by decide
  obtain ⟨s, hs, heq⟩ := Option.map_eq_some_iff.mp hrun
  obtain ⟨hfalse, htrue⟩ := Prod.mk.inj heq
  exact ⟨s, Exec.of_run hs, hfalse, htrue⟩

theorem overlappingCalls_served :
    ∃ s, Reachable (clients successorConfig oneOrSixteen) s ∧
      ∃ t, Reachable (service oneOrSixteen successorConfig.builder) t ∧
        t.received = s.server.received ∧ ∀ i, t.handed i = (s.client i).delivered := by
  obtain ⟨s, h, -, -⟩ := overlappingCalls_run
  exact ⟨s, h, clients_served rfl rfl rfl h⟩

theorem overlappingCalls_served_once :
    ∃ s, Reachable (clients successorConfig oneOrSixteen) s ∧
      ∃ log : List (Bool × Received), log.map Prod.snd = s.server.received ∧
        ∀ i, ∃ n, (s.client i).delivered.length ≤ n ∧ n ≤ (s.client i).delivered.length + 1 ∧
          (log.filter fun e => e.1 = i).map Prod.snd =
            (List.range n).map fun k => (oneOrSixteen i k).received := by
  obtain ⟨s, h, -, -⟩ := overlappingCalls_run
  exact ⟨s, h, clients_served_once rfl rfl rfl h⟩

theorem overlappingCalls_handed_own :
    ∃ s, Reachable (clients successorConfig oneOrSixteen) s ∧
      (s.client true).delivered = [(1, some [0x11])] ∧
      (s.client true).delivered = (List.range (s.client true).delivered.length).map
        fun k => (successor (oneOrSixteen true k)).received := by
  obtain ⟨s, h, -, htrue⟩ := overlappingCalls_run
  exact ⟨s, h, htrue, clients_handed_own rfl rfl rfl successor_pointwise h true⟩

/-! ## Clients of a server that keeps its instance -/

/-- The client waits for an instance to open, and has never had one. -/
structure Client.Unserved (c : Client) : Prop where
  opening : c.pc.opening = true
  hPipe : c.hPipe = false
  made : c.made = 0

/-- With `-r` the one instance is kept for the client that has opened it, and all others
    wait. -/
structure Alone (s : Clients ι) : Prop where
  others : ∀ i, s.owner ≠ some i → (s.client i).Unserved
  owned : s.owner ≠ none → s.pipe.state = .connected
  create : s.server.pc = .create → s.pipe.state = .absent
  kept : s.server.pc ≠ .disconnect ∧ s.server.pc ≠ .close

section Alone

variable {cfg : Config} {request : ι → Nat → Packet} {s : Clients ι} {io : Io}

/-- A client that waits goes on waiting, or opens the instance. -/
theorem Client.Unserved.step {c c' : Client} {p p' : Pipe} (h : c.Unserved)
    (hs : Client.Step cfg c p io c' p') :
    p' = p ∧ c.pc ≠ .createFile ∧ c'.Unserved ∨
      c.pc = .createFile ∧ p.state = .listening ∧ p'.state = .connected := by
  obtain ⟨hopen, hpipe, hmade⟩ := h
  cases hs with
  | enter hpc =>
      refine .inl ⟨rfl, by simp [hpc], ?_, ?_, hmade⟩
      · simp [Client.enter, hpipe, ClientPc.opening]
      · simp [Client.enter, hpipe]
  | waited hpc => exact .inl ⟨rfl, by simp [hpc], rfl, hpipe, hmade⟩
  | createFile hpc hl => exact .inr ⟨hpc, hl, rfl⟩
  | _ hpc => rw [hpc] at hopen; cases hopen

/-- Where it keeps its instance, the server neither takes it down nor makes another. -/
theorem Server.Step.kept {srv srv' : Server} {p p' : Pipe} (hr : cfg.reuse = true)
    (hkept : srv.pc ≠ .disconnect ∧ srv.pc ≠ .close) (hs : Server.Step cfg srv p io srv' p') :
    srv'.pc ≠ .create ∧ (srv'.pc ≠ .disconnect ∧ srv'.pc ≠ .close) ∧
      (srv.pc ≠ .create → p'.state = p.state) := by
  cases hs with
  | create hpc => exact ⟨by simp, by simp, fun h => absurd hpc h⟩
  | confirmed | flushed =>
      rw [Server.finish_of_reuse hr]
      exact ⟨by simp, by simp, fun _ => rfl⟩
  | disconnect hpc => exact absurd hpc hkept.1
  | close hpc => exact absurd hpc hkept.2
  | spin hpc | takeSize hpc | takeData hpc | putReply hpc => simp [hpc]
  | _ => simp

theorem Alone.init (cfg : Config) (request : ι → Nat → Packet) :
    Alone (clients cfg request).init where
  others _ _ := ⟨rfl, rfl, rfl⟩
  owned h := absurd rfl h
  create _ := rfl
  kept := by simp [clients, Server.start]

omit [DecidableEq ι] in
theorem Alone.server {srv : Server} {p : Pipe} (hr : cfg.reuse = true) (h : Alone s)
    (hs : Server.Step cfg s.server s.pipe io srv p) : Alone (s.moveServer (srv, p)) := by
  obtain ⟨hcreate, hkept, hstate⟩ := hs.kept hr h.kept
  have hnew : s.server.pc = .create → s.owner = none := by
    intro hpc
    by_contra howner
    have hconn := h.owned howner
    rw [h.create hpc] at hconn
    cases hconn
  have howner : (s.moveServer (srv, p)).owner = s.owner := by
    by_cases hpc : s.server.pc = .create
    · simp [Clients.moveServer, hpc, hnew hpc]
    · simp [Clients.moveServer, hpc]
  refine ⟨?_, ?_, fun hpc => absurd hpc hcreate, hkept⟩
  · intro i hi
    rw [howner] at hi
    exact h.others i hi
  · intro hi
    rw [howner] at hi
    exact (hstate fun hpc => hi (hnew hpc)).trans (h.owned hi)

theorem Alone.client {i : ι} {c : Client} {p : Pipe} (hr : cfg.reuse = true) (h : Alone s)
    (hs : Client.Step (cfg.for request i) (s.client i) (s.seen i) io c p) :
    Alone (s.moveClient i (c, p)) := by
  have hothers : ∀ j, s.owner ≠ some j → j ≠ i → (Function.update s.client i c j).Unserved := by
    intro j hj hij
    rw [Function.update_of_ne hij]
    exact h.others j hj
  by_cases howner : s.owner = some i
  · -- the owner keeps the instance to the end
    rw [seen_of_owner howner] at hs
    have hconn := h.owned (by simp [howner])
    have hconn' : p.state = .connected := by
      by_cases hpc : (s.client i).pc = .close
      · have hkeep : Client.closeHandle (cfg.for request i) s.pipe = s.pipe :=
          Client.closeHandle_of_reuse hr s.pipe
        cases hs with
        | close =>
            rw [hkeep]
            exact hconn
        | createFile => rfl
        | _ hother => rw [hpc] at hother; cases hother
      · exact hs.connected hpc hconn
    rw [moveClient_of_owner howner]
    refine ⟨?_, fun _ => hconn', ?_, h.kept⟩
    · intro j hj
      have hij : j ≠ i := by
        rintro rfl
        exact hj rfl
      refine hothers j ?_ hij
      rw [howner]
      exact hj
    · intro hpc
      have habs := h.create hpc
      rw [hconn] at habs
      cases habs
  · have hwait := h.others i howner
    have hseen : s.seen i = s.pipe := by simp [Clients.seen, Clients.finds, hwait.opening]
    rw [hseen] at hs
    rcases hwait.step hs with ⟨rfl, hpc, hwaits⟩ | ⟨hpc, hl, hconn⟩
    · have hmove : s.moveClient i (c, s.pipe) =
          { s with client := Function.update s.client i c } := by
        simp [Clients.moveClient, hpc]
      rw [hmove]
      refine ⟨?_, h.owned, h.create, h.kept⟩
      intro j hj
      by_cases hij : j = i
      · subst hij
        simp only [Function.update_self]
        exact hwaits
      · exact hothers j hj hij
    · have hmove : s.moveClient i (c, p) =
          { s with client := Function.update s.client i c, pipe := p, owner := some i } := by
        simp [Clients.moveClient, Clients.finds, hpc, ClientPc.opening]
      have hnone : s.owner = none := by
        by_contra hsome
        have hstate := h.owned hsome
        rw [hl] at hstate
        cases hstate
      rw [hmove]
      refine ⟨?_, fun _ => hconn, ?_, h.kept⟩
      · intro j hj
        have hij : j ≠ i := by
          rintro rfl
          exact hj rfl
        refine hothers j ?_ hij
        rw [hnone]
        simp
      · intro hcreate
        have habs := h.create hcreate
        rw [hl] at habs
        cases habs

/-- With `-r` no more than one client ever gets to build a request. -/
theorem served_first_of_reuse (hr : cfg.reuse = true) (h : Reachable (clients cfg request) s)
    {i j : ι} (hi : 0 < (s.client i).made) (hj : 0 < (s.client j).made) : i = j := by
  have halone : Alone s := by
    refine h.invariant (Alone.init cfg request) ?_
    intro t a t' ht hs
    rcases clients_step hs with ⟨io, srv, p, -, hstep, rfl⟩ | ⟨k, io, c, p, -, hstep, rfl⟩
    · exact ht.server hr (Server.step_cases hstep)
    · exact ht.client hr hstep
  have howner : ∀ k, 0 < (s.client k).made → s.owner = some k := by
    intro k hk
    by_contra hne
    have hzero := (halone.others k hne).made
    omega
  exact Option.some.inj ((howner i hi).symm.trans (howner j hj))

end Alone

/-- One client opens the instance that is kept and builds its request. -/
theorem kept_served_first :
    ∃ s, Reachable (clients { successorConfig with reuse := true } oneOrSixteen) s ∧
      0 < (s.client true).made ∧ ∀ j, 0 < (s.client j).made → true = j := by
  have hrun : ((clients { successorConfig with reuse := true } oneOrSixteen).run
      [.server .run, .server .run, .client true .run, .client false .run, .client true .run,
        .client false .run, .client true .run, .client true .run]).map
      (fun s => (s.client true).made) = some 1 := by decide
  obtain ⟨s, hs, hmade⟩ := Option.map_eq_some_iff.mp hrun
  have hpos : 0 < (s.client true).made := by rw [hmade]; exact Nat.one_pos
  exact ⟨s, Exec.of_run hs, hpos, fun j hj => served_first_of_reuse rfl (Exec.of_run hs) hpos hj⟩

end IpcWin.Pipes
