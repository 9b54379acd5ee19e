/-
  IpcWin.Programs

  The two programs as they are started: the settings from their arguments, the
  client's calls, the builders of the chosen data, and a transport between them.

  Started with the same arguments they use the same transport and the same data
  (`Native.programs_settings`), and then every reply that the client is handed is
  the one that the server's tables have for the call: through the shared memory
  (`sharedMem_programs`), over a pipe that is kept (`pipes_programs`), and with any
  number of clients over pipes that are not (`clients_programs`).
-/

import IpcWin.Native.Benchmark
import IpcWin.Pipes.Prospects
import IpcWin.EndToEnd

namespace IpcWin

open IpcWin.Lib IpcWin.Wire
open IpcWin.Native

/-- Two programs that have been started with the arguments `args` behind their names. -/
structure Started (args : List WStr) (c : Client.Options) (s : Server.Options) : Prop where
  client : ∃ p, p ∉ optionTexts ∧ Client.options (p :: args) = some c
  server : ∃ q, q ∉ optionTexts ∧ Server.options (q :: args) = some s

theorem Started.settings {args : List WStr} {c : Client.Options} {s : Server.Options}
    (h : Started args c s) : c.Have (.ofArgs args) ∧ s.Have (.ofArgs args) := by
  obtain ⟨p, hp, hc⟩ := h.client
  obtain ⟨q, hq, hs⟩ := h.server
  exact ⟨Client.options_have hp hc, Server.options_have hq hs⟩

/-- What the programs find in memory that nothing has been written to: in the calls, behind
    the greetings, in `outbuf` and in the requests of the client's table. -/
structure Unwritten where
  client : Nat → Uninit
  server : Nat → Uninit
  clientBehind : Nat → Byte
  serverBehind : Nat → Byte
  keys : Nat → List Word
  reqs : Word → Word × Word

/-- The packets of the client's calls. -/
def clientPacket (pb : Messages) (w : Unwritten) (c : Client.Options) : Nat → Packet :=
  match c.builder with
  | .msg => fun k =>
      Client.packet pb .protobuf (w.client k) (Client.benchmarkRequest w.reqs c.oneway k).request
  | .object => fun k =>
      Client.packet pb .object (w.client k) (Client.benchmarkRequest w.reqs c.oneway k).request
  | .bytes => fun k => built (Client.reqBytes (w.client k).clientJunk w.clientBehind
      (BitVec.ofNat 32 ((Client.sizeAt k).value c.oneway)))

/-- The server's builder. -/
def serverBuilder (pb : Messages) (w : Unwritten) (s : Server.Options) : List Received → Packet :=
  match s.builder with
  | .msg => Server.builder pb .protobuf w.server Server.startTable
  | .object => Server.builder pb .object w.server Server.startTable
  | .bytes => Server.bytesBuilder w.serverBehind w.server w.keys Server.startSizes

/-- What the client makes of the reply to its `k`-th call: as many items as the server has
    for it, or a greeting of the length that it has for it. -/
def Expected (pb : Messages) (c : Client.Options) (k : Nat) (reply : Received) : Prop :=
  match c.br with
  | .msg => Client.parse pb .protobuf reply =
      .ok { mData := List.replicate (Client.items c.oneway k) Server.itemText }
  | .object => Client.parse pb .object reply =
      .ok { mData := List.replicate (Client.items c.oneway k) Server.itemText }
  | .bytes => reply.1.toNat = Server.respSize ((Client.sizeAt k).value c.oneway) ∧
      ∃ data, reply.2 = some data ∧ literal "Hello from server!!!" <+: data

section Programs

variable {pb : Messages} {w : Unwritten} {args : List WStr} {c : Client.Options}
  {s : Server.Options} {t : Calls} {k : Nat} {reply : Received}

/-- An item of a list that is given by its indices. -/
theorem eq_of_getElem?_map_range {β : Type} {l : List β} {n : Nat} {f : Nat → β} {x : β}
    (h : l = (List.range n).map f) (hx : l[k]? = some x) : x = f k := by
  rw [h, List.getElem?_map] at hx
  obtain ⟨i, hi, rfl⟩ := Option.map_eq_some_iff.mp hx
  obtain ⟨hlt, heq⟩ := List.getElem?_eq_some_iff.mp hi
  rw [← heq, List.getElem_range]

/-- The size of a call without `-o` is in the server's table. -/
theorem respSize_value (s : Client.ReqSize) : Server.respSize (s.value false) ≠ 0 := by
  cases s <;> decide

/-- The replies to requests of lengths in the server's table. -/
theorem replyTo_bytes (w : Unwritten) {request : Nat → Packet} (size : Nat → Nat)
    (hlength : ∀ i, (request i).bytes.length = size i)
    (hsize : ∀ i, Server.respSize (size i) ≠ 0) (k : Nat) :
    (replyTo request (Server.bytesBuilder w.serverBehind w.server w.keys Server.startSizes)
        k).bytes.length = Server.respSize (size k) ∧
      literal "Hello from server!!!" <+:
        (replyTo request (Server.bytesBuilder w.serverBehind w.server w.keys Server.startSizes)
          k).bytes := by
  have hreceived : ∀ i, (request i).received.1.toNat = size i := by
    intro i
    rw [← hlength i]
    exact (request i).size_toNat
  have hrequests : ∀ q ∈ (List.range k).map (fun i => (request i).received),
      Server.respSize q.1.toNat ≠ 0 := by
    intro q hq
    obtain ⟨i, -, rfl⟩ := List.mem_map.mp hq
    rw [hreceived]
    exact hsize i
  have hlast := hsize k
  rw [← hreceived k] at hlast
  rw [replyTo, List.range_succ, List.map_append, ← hreceived k]
  exact Server.bytesBuilder_eq w.serverBehind w.server w.keys hrequests hlast

/-- Calls with such requests. -/
theorem Calls.InTurn.bytes {request : Nat → Packet} (size : Nat → Nat)
    (hlength : ∀ i, (request i).bytes.length = size i)
    (hsize : ∀ i, Server.respSize (size i) ≠ 0)
    (h : t.InTurn request (Server.bytesBuilder w.serverBehind w.server w.keys Server.startSizes))
    (hreply : t.handed[k]? = some reply) :
    reply.1.toNat = Server.respSize (size k) ∧
      ∃ data, reply.2 = some data ∧ literal "Hello from server!!!" <+: data := by
  obtain ⟨hlen, hgreeting⟩ := replyTo_bytes w size hlength hsize k
  rw [eq_of_getElem?_map_range h.handed hreply]
  refine ⟨?_, _, rfl, hgreeting⟩
  rw [← hlen]
  exact Packet.size_toNat _

/-- A request of `req_bytes` has the size of its call. -/
theorem reqBytes_length (junk behind : Nat → Byte) (s : Client.ReqSize) :
    (built (Client.reqBytes junk behind (BitVec.ofNat 32 (s.value false)))).bytes.length =
      s.value false := by
  have hvalue : 50 ≤ s.value false ∧ s.value false < 2 ^ 31 := by cases s <;> decide
  obtain ⟨data, hdata, hlen, -⟩ := Client.reqBytes_eq junk behind hvalue.1 hvalue.2
  have hlt : data.length < 2 ^ 31 := hlen ▸ hvalue.2
  rw [hdata, built, dif_pos hlt]
  exact hlen

/-- Whichever clients have called before, with whatever in their memory, the reply to the
    `k`-th call of one of them is the expected one. -/
theorem serverBuilder_fitting {ι : Type*} (hpb : pb.Restores) (h : Started args c s)
    (htwoWay : c.builder = .bytes → c.oneway = false) (v : ι → Unwritten) :
    Service.Fitting (fun i => clientPacket pb (v i) c) (serverBuilder pb w s)
      fun _ k q => Expected pb c k q.received := by
  obtain ⟨hclient, hserver⟩ := h.settings
  have hbr : c.br = c.builder := hclient.br.trans hclient.builder.symm
  have hsame : s.builder = c.builder := hserver.builder.trans hclient.builder.symm
  intro rs i k hrs
  cases hdata : c.builder with
  | msg =>
      -- whichever client has sent it, it is a request of the mode
      have hrequests : ∀ q ∈ rs, Requests pb .protobuf q := by
        intro q hq
        obtain ⟨j, l, rfl⟩ := hrs q hq
        simp only [clientPacket, hdata]
        exact ⟨_, Client.packet_received .protobuf hpb _ _⟩
      simp only [Expected, clientPacket, serverBuilder, hbr, hsame, hdata]
      rw [← Client.answer_benchmarkRequest (v i).reqs]
      exact Client.parse_builder .protobuf hpb Server.stored hrequests _ _ _
  | object =>
      have hrequests : ∀ q ∈ rs, Requests pb .object q := by
        intro q hq
        obtain ⟨j, l, rfl⟩ := hrs q hq
        simp only [clientPacket, hdata]
        exact ⟨_, Client.packet_received .object hpb _ _⟩
      simp only [Expected, clientPacket, serverBuilder, hbr, hsame, hdata]
      rw [← Client.answer_benchmarkRequest (v i).reqs]
      exact Client.parse_builder .object hpb Server.stored hrequests _ _ _
  | bytes =>
      -- the server looks at no more of a request than its length
      have hlength : ∀ j l, (clientPacket pb (v j) c l).received.1.toNat =
          (Client.sizeAt l).value false := by
        intro j l
        have hlen : (clientPacket pb (v j) c l).bytes.length = (Client.sizeAt l).value false := by
          simp only [clientPacket, hdata, htwoWay hdata]
          exact reqBytes_length _ _ _
        rw [← hlen]
        exact Packet.size_toNat _
      have hsizes : ∀ q ∈ rs, Server.respSize q.1.toNat ≠ 0 := by
        intro q hq
        obtain ⟨j, l, rfl⟩ := hrs q hq
        rw [hlength]
        exact respSize_value _
      have hlast : Server.respSize (clientPacket pb (v i) c k).received.1.toNat ≠ 0 := by
        rw [hlength]
        exact respSize_value _
      obtain ⟨hlen, hgreeting⟩ :=
        Server.bytesBuilder_eq w.serverBehind w.server w.keys hsizes hlast
      simp only [Expected, serverBuilder, hbr, hsame, hdata, htwoWay hdata]
      refine ⟨?_, _, rfl, hgreeting⟩
      rw [← hlength i k, ← hlen]
      exact Packet.size_toNat _

/-- Whatever the transport, if the calls have gone through in turn the replies are the
    expected ones. -/
theorem Calls.InTurn.expected (hpb : pb.Restores) (h : Started args c s)
    (htwoWay : c.builder = .bytes → c.oneway = false)
    (ht : t.InTurn (clientPacket pb w c) (serverBuilder pb w s))
    (hreply : t.handed[k]? = some reply) : Expected pb c k reply := by
  have hfit := serverBuilder_fitting (w := w) hpb h htwoWay fun _ : Unit => w
  rw [eq_of_getElem?_map_range ht.handed hreply, replyTo, List.range_succ, List.map_append]
  refine hfit _ () k ?_
  intro r hr
  obtain ⟨i, -, rfl⟩ := List.mem_map.mp hr
  exact ⟨(), i, rfl⟩

/-! ## Over the transports -/

/-- The programs at the two ends of the shared memory, with the address space of each. -/
def memoryOf (pb : Messages) (w : Unwritten) (clientSpace serverSpace : SharedMem.Space)
    (c : Client.Options) (s : Server.Options) : SharedMem.Config :=
  { clientReuse := c.reuse, serverReuse := s.reuse, request := clientPacket pb w c
    builder := serverBuilder pb w s, clientSpace := clientSpace, serverSpace := serverSpace }

/-- The programs at the two ends of a pipe, with the sizes of its queues and what blocks
    hold. -/
def pipesOf (pb : Messages) (w : Unwritten) (inbuf outbuf : Nat) (shortReads : Bool)
    (junk : Nat → Byte) (c : Client.Options) (s : Server.Options) : Pipes.Config :=
  { reuse := c.reuse, oneway := c.oneway, inbuf := inbuf, outbuf := outbuf
    shortReads := shortReads, junk := junk, request := clientPacket pb w c
    builder := serverBuilder pb w s }

/-- Two programs that talk through the shared memory, as long as the client reads no reply
    that the server still owes. -/
theorem sharedMem_programs (hpb : pb.Restores) (h : Started args c s)
    (hcall : c.call = .sharedMem) (htwoWay : c.builder = .bytes → c.oneway = false)
    {clientSpace serverSpace : SharedMem.Space}
    {tr : List (SharedMem.State × SharedMem.Proc)} {m : SharedMem.State}
    (hexec : Exec (SharedMem.conversation (memoryOf pb w clientSpace serverSpace c s)) tr m)
    (hreads : Meets SharedMem.ReadsAfterWrites tr) :
    s.replier = .sharedMem ∧
      ∀ k reply, m.client.handed[k]? = some reply → Expected pb c k reply := by
  obtain ⟨hclient, hserver⟩ := h.settings
  refine ⟨hserver.replier.trans (hclient.call.symm.trans hcall), ?_⟩
  intro k reply hreply
  have hturn := SharedMem.inTurn_of_readsAfterWrites hexec hreads m (by simp)
  exact hturn.expected hpb h htwoWay hreply

/-- What both programs have come to if the client calls over the pipe. -/
theorem Started.pipes (h : Started args c s) (hcall : c.call = .pipes) :
    s.replier = .pipes ∧ s.init = .pipe ∧ s.reuse = c.reuse ∧ s.oneway = c.oneway := by
  obtain ⟨hclient, hserver⟩ := h.settings
  have hmechanism : (Settings.ofArgs args).mechanism = .pipes := hclient.call.symm.trans hcall
  refine ⟨hserver.replier.trans hmechanism, ?_, ?_, ?_⟩
  · rw [hserver.init, hmechanism]
    rfl
  · exact hserver.reuse.trans hclient.reuse.symm
  · exact hserver.oneway.trans hclient.oneway.symm

section Pipes

variable {inbuf outbuf : Nat} {shortReads : Bool} {junk : Nat → Byte} {m : Pipes.State}

theorem pipes_expected (hpb : pb.Restores) (h : Started args c s) (hr : c.reuse = true)
    (ho : c.oneway = false) {tr : List (Pipes.State × Pipes.Action)}
    (hexec : Exec (Pipes.conversation (pipesOf pb w inbuf outbuf shortReads junk c s)) tr m)
    (hfull : Meets Pipes.FullReads tr) :
    ∀ k reply, m.client.delivered[k]? = some reply → Expected pb c k reply := by
  intro k reply hreply
  have hturn := Pipes.inTurn_of_fullReads hr ho hexec hfull m (by simp)
  exact hturn.expected hpb h (fun _ => ho) hreply

/-- Two programs that talk over a pipe that both keep, as long as no call returns with less
    than it has asked for. -/
theorem pipes_programs (hpb : pb.Restores) (h : Started args c s) (hcall : c.call = .pipes)
    (hr : c.reuse = true) (ho : c.oneway = false) {tr : List (Pipes.State × Pipes.Action)}
    (hexec : Exec (Pipes.conversation (pipesOf pb w inbuf outbuf shortReads junk c s)) tr m)
    (hfull : Meets Pipes.FullReads tr) :
    (s.replier = .pipes ∧ s.init = .pipe ∧ s.reuse = true ∧ s.oneway = false) ∧
      ∀ k reply, m.client.delivered[k]? = some reply → Expected pb c k reply := by
  have hsame := h.pipes hcall
  rw [hr, ho] at hsame
  exact ⟨hsame, pipes_expected hpb h hr ho hexec hfull⟩

/-- Once the server waits for the client, any number of calls is bound to be made and
    answered as expected. -/
theorem pipes_programs_return (hpb : pb.Restores) (h : Started args c s) (hcall : c.call = .pipes)
    (hr : c.reuse = true) (ho : c.oneway = false) (hin : 0 < inbuf) (hout : 0 < outbuf)
    (hreach : Reachable (Pipes.conversation (pipesOf pb w inbuf outbuf false junk c s)) m)
    (hcreate : m.server.pc ≠ .create) (hconnect : m.server.pc ≠ .connect) (n : Nat) :
    s.replier = .pipes ∧
      Inevitable (Pipes.conversation (pipesOf pb w inbuf outbuf false junk c s))
        (fun t => n ≤ t.client.delivered.length ∧
          ∀ k reply, t.client.delivered[k]? = some reply → Expected pb c k reply) m := by
  have hstand := Pipes.Standing.of_reachable hr ho rfl hreach
  have hcalls := hstand.inevitable hr ho rfl hin hout ⟨hcreate, hconnect⟩ n
  refine ⟨(h.pipes hcall).1, hcalls.mono ?_ hreach⟩
  rintro t ⟨tr, hexec⟩ hn
  exact ⟨hn, pipes_expected hpb h hr ho hexec (Pipes.Standing.meets_fullReads hr ho rfl hexec)⟩

/-- Any number of clients, each with its own memory, that call one server at once without
    `-r`. -/
theorem clients_programs {ι : Type*} [DecidableEq ι] {v : ι → Unwritten} {m : Pipes.Clients ι}
    (hpb : pb.Restores) (h : Started args c s) (hcall : c.call = .pipes) (hr : c.reuse = false)
    (ho : c.oneway = false)
    (hreach : Reachable (Pipes.clients (pipesOf pb w inbuf outbuf false junk c s)
      fun i => clientPacket pb (v i) c) m) :
    (s.replier = .pipes ∧ s.init = .pipe ∧ s.reuse = false ∧ s.oneway = false) ∧
      ∀ i k reply, (m.client i).delivered[k]? = some reply → Expected pb c k reply := by
  have hsame := h.pipes hcall
  rw [hr, ho] at hsame
  refine ⟨hsame, ?_⟩
  intro i k reply hreply
  have hfit := serverBuilder_fitting (w := w) hpb h (fun _ => ho) v
  obtain ⟨q, hq, rfl⟩ := Pipes.handed_of_fitting hr ho rfl hfit hreach hreply
  exact hq

end Pipes

end Programs

/-! ## Two starts -/

def zeroedMemory : Unwritten where
  client := fun _ => zeroed
  server := fun _ => zeroed
  clientBehind := fun _ => 0
  serverBehind := fun _ => 0
  keys := fun _ => []
  reqs := fun _ => (0, 0)

/-- With `-o`, through the shared memory. -/
def onewayClient : Client.Options := { Client.Options.start with oneway := true }
def onewayServer : Server.Options := { Server.Options.start with oneway := true }

theorem oneway_started : Started [text "-o"] onewayClient onewayServer where
  client := ⟨text "NativeClient", by decide, by decide⟩
  server := ⟨text "NativeServer", by decide, by decide⟩

/-- The configuration in which they talk. -/
def onewayMemory : SharedMem.Config :=
  memoryOf generatedMessages zeroedMemory .endless .endless onewayClient onewayServer

theorem onewayCall_programs :
    ∃ tr m, Exec (SharedMem.conversation onewayMemory) tr m ∧
      m.client.handed.length = 1 ∧ onewayServer.replier = .sharedMem ∧
      ∀ k reply, m.client.handed[k]? = some reply →
        Expected generatedMessages onewayClient k reply := by
  have hrun : ((SharedMem.conversation onewayMemory).runIf
      (fun s a => decide (SharedMem.ReadsAfterWrites s a)) memoryCall
      (SharedMem.conversation onewayMemory).init).map
      (fun s => s.client.handed.length) = some 1 := by decide +kernel
  obtain ⟨m, hm, hlen⟩ := Option.map_eq_some_iff.mp hrun
  obtain ⟨tr, hexec, hmeets⟩ := Exec.of_runIf hm
  have hreads : Meets SharedMem.ReadsAfterWrites tr := fun e he => of_decide_eq_true (hmeets e he)
  refine ⟨tr, m, hexec, hlen, ?_⟩
  exact sharedMem_programs generatedMessages_restores oneway_started rfl (fun h => by cases h)
    hexec hreads

/-- With `-m pipes -r`. -/
def pipesClient : Client.Options := { Client.Options.start with call := .pipes, reuse := true }

def pipesServer : Server.Options :=
  { Server.Options.start with
    replier := .pipes, init := .pipe, mechanism := text "pipes", reuse := true }

theorem pipes_started :
    Started [text "-m", text "pipes", text "-r"] pipesClient pipesServer where
  client := ⟨text "NativeClient", by decide, by decide⟩
  server := ⟨text "NativeServer", by decide, by decide⟩

/-- The configuration in which they talk. -/
def startedPipes : Pipes.Config :=
  pipesOf generatedMessages zeroedMemory (500 * kb) 1 false (fun _ => 0) pipesClient pipesServer

/-- The server waits in `ConnectNamedPipe`. -/
theorem startedPipes_waits : ∃ tr m, Exec (Pipes.conversation startedPipes) tr m ∧
    m.server.pc = .connecting := by
  have hrun : ((Pipes.conversation startedPipes).run [.server .run, .server .run]).map
      (fun s => s.server.pc) = some .connecting := by decide
  obtain ⟨m, hm, hpc⟩ := Option.map_eq_some_iff.mp hrun
  obtain ⟨tr, hexec⟩ := Exec.of_run hm
  exact ⟨tr, m, hexec, hpc⟩

/-- A run in which all the calls of the client have been answered. -/
theorem startedPipes_programs :
    ∃ tr m, Exec (Pipes.conversation startedPipes) tr m ∧
      (Client.called Client.benchmark).length ≤ m.client.delivered.length ∧
      (pipesServer.replier = .pipes ∧ pipesServer.init = .pipe ∧ pipesServer.reuse = true ∧
        pipesServer.oneway = false) ∧
      ∀ k reply, m.client.delivered[k]? = some reply →
        Expected generatedMessages pipesClient k reply := by
  obtain ⟨tr₀, m₀, hexec₀, hpc⟩ := startedPipes_waits
  have hstand := Pipes.Standing.of_reachable rfl rfl rfl ⟨tr₀, hexec₀⟩
  have hcalls := hstand.inevitable rfl rfl rfl (by decide) (by decide)
    ⟨by simp [hpc], by simp [hpc]⟩ (Client.called Client.benchmark).length
  obtain ⟨tr, m, hexec, hlen⟩ := hcalls.exec hexec₀
  refine ⟨tr, m, hexec, hlen, ?_⟩
  exact pipes_programs generatedMessages_restores pipes_started rfl rfl rfl hexec
    (Pipes.Standing.meets_fullReads rfl rfl rfl hexec)

theorem startedPipes_programs_return :
    ∃ m, Reachable (Pipes.conversation startedPipes) m ∧
      pipesServer.replier = .pipes ∧
      Inevitable (Pipes.conversation startedPipes)
        (fun t => (Client.called Client.benchmark).length ≤ t.client.delivered.length ∧
          ∀ k reply, t.client.delivered[k]? = some reply →
            Expected generatedMessages pipesClient k reply) m := by
  obtain ⟨tr, m, hexec, hpc⟩ := startedPipes_waits
  exact ⟨m, ⟨tr, hexec⟩, pipes_programs_return generatedMessages_restores pipes_started rfl rfl rfl
    (by decide) (by decide) ⟨tr, hexec⟩ (by simp [hpc]) (by simp [hpc]) _⟩

/-- With `-m pipes`, two clients. -/
def clientOfTwo : Client.Options := { Client.Options.start with call := .pipes }

def serverOfTwo : Server.Options :=
  { Server.Options.start with replier := .pipes, init := .pipe, mechanism := text "pipes" }

theorem twoClients_started : Started [text "-m", text "pipes"] clientOfTwo serverOfTwo where
  client := ⟨text "NativeClient", by decide, by decide⟩
  server := ⟨text "NativeServer", by decide, by decide⟩

/-- The configuration of the three programs. -/
def startedClients : System (Pipes.Clients Bool) (Pipes.ClientsAction Bool) :=
  Pipes.clients (pipesOf generatedMessages zeroedMemory (500 * kb) 1 false (fun _ => 0)
    clientOfTwo serverOfTwo) fun _ => clientPacket generatedMessages zeroedMemory clientOfTwo

/-- A run in which all the calls of the first client have been answered. -/
theorem startedClients_programs :
    ∃ m, Reachable startedClients m ∧
      (Client.called Client.benchmark).length ≤ (m.client true).delivered.length ∧
      (serverOfTwo.replier = .pipes ∧ serverOfTwo.init = .pipe ∧ serverOfTwo.reuse = false ∧
        serverOfTwo.oneway = false) ∧
      ∀ i k reply, (m.client i).delivered[k]? = some reply →
        Expected generatedMessages clientOfTwo k reply := by
  have hstart : ¬ startedClients.init.Spins := fun hspins => by cases hspins.1
  have hcalls := Pipes.possible_of_not_spins rfl rfl rfl (by decide) (by decide)
    ⟨[], .init⟩ hstart true (Client.called Client.benchmark).length
  obtain ⟨m, hreach, hlen⟩ := hcalls.invariant (I := Reachable startedClients)
    (fun _ _ _ h hs => h.step hs) ⟨[], .init⟩
  refine ⟨m, hreach, hlen, ?_⟩
  exact clients_programs generatedMessages_restores twoClients_started rfl rfl rfl hreach

end IpcWin
