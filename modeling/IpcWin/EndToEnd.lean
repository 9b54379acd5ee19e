/-
  IpcWin.EndToEnd

  From a client's request object to the list of items that it reads out of the
  reply, over each of the transports.

  A transport hands over packets in turn, whatever is in them; the builders restore
  what their counterparts have encoded, whatever has come before.  Put together,
  the reply to a request is read as what the server's table of the start has for
  it: over one pipe that is kept (`pipes_answered`), through the shared memory
  (`sharedMem_answered`), and by any number of clients at once that share one
  server over the pipe (`clients_answered`).
-/

import IpcWin.Native.Session
import IpcWin.Native.Startup
import IpcWin.Pipes.Serving
import IpcWin.Transports

namespace IpcWin

open IpcWin.Lib IpcWin.Wire
open IpcWin.Native (Client.packet Client.parse Server.builder Messages Mode Requests StoredRequest
  StoredTable Uninit)

section Answered

variable {pb : Messages} (mode : Mode) {start : StoredTable} {u v : Nat → Uninit}

/-- Whatever the transport, if the calls have gone through in turn the client reads what
    the table of the start has for its requests. -/
theorem Calls.InTurn.parsed (hpb : pb.Restores) {r : Nat → StoredRequest} {s : Calls}
    (h : s.InTurn (fun k => Client.packet pb mode (v k) (r k).request)
      (Server.builder pb mode u start.table)) :
    s.handed.map (Client.parse pb mode) =
      (List.range s.handed.length).map fun k => .ok (start.answer (r k)) := by
  rw [h.handed, List.map_map, List.length_map, List.length_range]
  apply List.map_congr_left
  intro k _
  show Client.parse pb mode (replyTo _ _ k).received = _
  rw [replyTo, List.range_succ, List.map_append]
  refine Native.Client.parse_builder mode hpb start ?_ u (v k) (r k)
  intro q hq
  obtain ⟨i, -, rfl⟩ := List.mem_map.mp hq
  exact ⟨r i, Native.Client.packet_received mode hpb (v i) (r i)⟩

/-- The server's reply to a request does not depend on the requests before it. -/
theorem builder_pointwise {ι : Type*} (hpb : pb.Restores) (start : StoredTable)
    (u : Nat → Uninit) (v : ι → Nat → Uninit) (r : ι → Nat → StoredRequest) :
    Service.Pointwise (fun i k => Client.packet pb mode (v i k) (r i k).request)
      (Server.builder pb mode u start.table)
      fun m => Server.builder pb mode u start.table [m.received] := by
  intro rs i k hrs
  have hrequests : ∀ q ∈ rs, Requests pb mode q := by
    intro q hq
    obtain ⟨j, l, rfl⟩ := hrs q hq
    exact ⟨r j l, Native.Client.packet_received mode hpb (v j l) (r j l)⟩
  have hafter := Native.Server.builder_packet mode hpb start hrequests u (r i k)
  have hnone : ∀ q ∈ ([] : List Received), Requests pb mode q := by simp
  have halone := Native.Server.builder_packet mode hpb start hnone u (r i k)
  rw [← Native.Client.packet_received mode hpb (v i k)] at hafter halone
  have hreceived := hafter.trans halone.symm
  apply Packet.ext
  exact Option.some.inj (Prod.mk.inj hreceived).2

/-! ## Over the transports -/

/-- Over one pipe that is kept, the client reads what the table of the start has for
    each of its requests. -/
theorem pipes_answered (hpb : pb.Restores) {r : Nat → StoredRequest} {cfg : Pipes.Config}
    (hr : cfg.reuse = true) (ho : cfg.oneway = false)
    (hrequest : cfg.request = fun k => Client.packet pb mode (v k) (r k).request)
    (hbuilder : cfg.builder = Server.builder pb mode u start.table)
    {tr : List (Pipes.State × Pipes.Action)} {s : Pipes.State}
    (h : Exec (Pipes.conversation cfg) tr s) (hfull : Meets Pipes.FullReads tr) :
    s.client.delivered.map (Client.parse pb mode) =
      (List.range s.client.delivered.length).map fun k => .ok (start.answer (r k)) := by
  have hturn := Pipes.inTurn_of_fullReads hr ho h hfull s (by simp)
  rw [hrequest, hbuilder] at hturn
  exact hturn.parsed mode hpb

/-- Through the shared memory the client reads what the table of the start has for each of
    its requests, as long as it reads no reply that the server still owes. -/
theorem sharedMem_answered (hpb : pb.Restores) {r : Nat → StoredRequest} {cfg : SharedMem.Config}
    (hrequest : cfg.request = fun k => Client.packet pb mode (v k) (r k).request)
    (hbuilder : cfg.builder = Server.builder pb mode u start.table)
    {tr : List (SharedMem.State × SharedMem.Proc)} {s : SharedMem.State}
    (h : Exec (SharedMem.conversation cfg) tr s) (hreads : Meets SharedMem.ReadsAfterWrites tr) :
    s.client.handed.map (Client.parse pb mode) =
      (List.range s.client.handed.length).map fun k => .ok (start.answer (r k)) := by
  have hturn := SharedMem.inTurn_of_readsAfterWrites h hreads s (by simp)
  rw [hrequest, hbuilder] at hturn
  exact hturn.parsed mode hpb

/-- Any number of clients that call one server over the pipe at once each read what the
    table of the start has for their own requests. -/
theorem clients_answered {ι : Type*} [DecidableEq ι] (hpb : pb.Restores)
    {w : ι → Nat → Uninit} {r : ι → Nat → StoredRequest} {cfg : Pipes.Config}
    (hr : cfg.reuse = false) (ho : cfg.oneway = false) (hshort : cfg.shortReads = false)
    (hbuilder : cfg.builder = Server.builder pb mode u start.table) {s : Pipes.Clients ι}
    (h : Reachable (Pipes.clients cfg fun i k => Client.packet pb mode (w i k) (r i k).request) s)
    (i : ι) :
    (s.client i).delivered.map (Client.parse pb mode) =
      (List.range (s.client i).delivered.length).map fun k => .ok (start.answer (r i k)) := by
  have hpoint := builder_pointwise mode hpb start u w r
  rw [← hbuilder] at hpoint
  have hown := Pipes.handed_of_pointwise hr ho hshort hpoint h i
  rw [hown, List.map_map, List.length_map, List.length_range]
  apply List.map_congr_left
  intro k _
  rw [hbuilder]
  have hnone : ∀ q ∈ ([] : List Received), Requests pb mode q := by simp
  exact Native.Client.parse_builder mode hpb start hnone u (w i k) (r i k)

end Answered

/-! ## One call over each of them -/

/-- `nulIds` is asked for in object mode, over a pipe that is kept. -/
def objectPipe : Pipes.Config :=
  { reuse := true, oneway := false, inbuf := 64, outbuf := 64, shortReads := false
    junk := fun _ => 0xCD
    request := fun _ => Client.packet Native.generatedMessages .object Native.zeroed Native.nulIds
    builder := Server.builder Native.generatedMessages .object (fun _ => Native.zeroed)
      Native.pairTable.table }

/-- A request of 30 bytes and a reply of 9. -/
def pipeCall : List Pipes.Action :=
  [.server .run, .server .run, .client .run, .client .run, .client .run, .server .run,
    .client .run, .client (.put 34), .client .ret, .server (.take 4), .server .ret,
    .server (.take 30), .server .ret, .server .run, .server (.put 13), .server .ret,
    .client (.take 4), .client .ret, .client (.take 9), .client .ret, .client .run, .server .run,
    .client .run]

theorem pipeCall_answered :
    ∃ tr s, Exec (Pipes.conversation objectPipe) tr s ∧ s.client.delivered.length = 1 ∧
      s.client.delivered.map (Client.parse Native.generatedMessages .object) =
        (List.range s.client.delivered.length).map fun _ =>
          .ok (Native.pairTable.answer ⟨Native.nulIds, Native.nulIds_weight_lt⟩) := by
  have hrun : ((Pipes.conversation objectPipe).runIf (fun s a => decide (Pipes.FullReads s a))
      pipeCall (Pipes.conversation objectPipe).init).map (fun s => s.client.delivered.length) =
      some 1 := by decide
  obtain ⟨s, hs, hlen⟩ := Option.map_eq_some_iff.mp hrun
  obtain ⟨tr, hexec, hmeets⟩ := Exec.of_runIf hs
  have hfull : Meets Pipes.FullReads tr := fun e he => of_decide_eq_true (hmeets e he)
  refine ⟨tr, s, hexec, hlen, ?_⟩
  exact pipes_answered (u := fun _ => Native.zeroed) (v := fun _ => Native.zeroed)
    (r := fun _ => ⟨Native.nulIds, Native.nulIds_weight_lt⟩) .object
    Native.generatedMessages_restores rfl rfl rfl rfl hexec hfull

/-- Two programs in protobuf mode that talk through the shared memory. -/
def protobufMemory : SharedMem.Config :=
  { clientReuse := false, serverReuse := false
    request := fun _ => Client.packet Native.generatedMessages .protobuf Native.zeroed Native.nulIds
    builder := Server.builder Native.generatedMessages .protobuf (fun _ => Native.zeroed)
      Native.pairTable.table }

/-- The client asks, the server copies and answers, the client reads. -/
def memoryCall : List SharedMem.Proc :=
  List.replicate 9 .client ++ List.replicate 19 .server ++ List.replicate 13 .client

theorem memoryCall_answered :
    ∃ tr s, Exec (SharedMem.conversation protobufMemory) tr s ∧ s.client.handed.length = 1 ∧
      s.client.handed.map (Client.parse Native.generatedMessages .protobuf) =
        (List.range s.client.handed.length).map fun _ =>
          .ok (Native.pairTable.answer ⟨Native.nulIds, Native.nulIds_weight_lt⟩) := by
  have hrun : ((SharedMem.conversation protobufMemory).runIf
      (fun s a => decide (SharedMem.ReadsAfterWrites s a)) memoryCall
      (SharedMem.conversation protobufMemory).init).map (fun s => s.client.handed.length) =
      some 1 := by decide +kernel
  obtain ⟨s, hs, hlen⟩ := Option.map_eq_some_iff.mp hrun
  obtain ⟨tr, hexec, hmeets⟩ := Exec.of_runIf hs
  have hreads : Meets SharedMem.ReadsAfterWrites tr := fun e he => of_decide_eq_true (hmeets e he)
  refine ⟨tr, s, hexec, hlen, ?_⟩
  exact sharedMem_answered (u := fun _ => Native.zeroed) (v := fun _ => Native.zeroed)
    (r := fun _ => ⟨Native.nulIds, Native.nulIds_weight_lt⟩) .protobuf
    Native.generatedMessages_restores rfl rfl hexec hreads

/-- One client asks for `nulIds`, the other one for `oneId`. -/
def nulOrOne (i : Bool) : StoredRequest :=
  if i then ⟨Native.nulIds, Native.nulIds_weight_lt⟩ else ⟨Native.oneId, Native.oneId_weight_lt⟩

/-- The client `i` makes its call, of `n` bytes with a reply of `m`, and the server goes on to
    the next instance. -/
def clientCall (i : Bool) (n m : Nat) : List (Pipes.ClientsAction Bool) :=
  [.server .run, .server .run, .client i .run, .client i .run, .client i .run, .server .run,
    .client i .run, .client i (.put (4 + n)), .client i .ret, .server (.take 4), .server .ret,
    .server (.take n), .server .ret, .server .run, .server (.put (4 + m)), .server .ret,
    .client i (.take 4), .client i .ret, .client i (.take m), .client i .ret, .client i .run,
    .client i .run, .server .run, .server .run, .server .run]

theorem clientCalls_answered :
    ∃ s, Reachable (Pipes.clients { objectPipe with reuse := false } fun i _ =>
        Client.packet Native.generatedMessages .object Native.zeroed (nulOrOne i).request) s ∧
      (s.client true).delivered.length = 1 ∧ (s.client false).delivered.length = 1 ∧
      ∀ i, (s.client i).delivered.map (Client.parse Native.generatedMessages .object) =
        (List.range (s.client i).delivered.length).map fun _ =>
          .ok (Native.pairTable.answer (nulOrOne i)) := by
  have hrun : ((Pipes.clients { objectPipe with reuse := false } fun i _ =>
      Client.packet Native.generatedMessages .object Native.zeroed (nulOrOne i).request).run
      (clientCall true 30 9 ++ clientCall false 25 4)).map
      (fun s => ((s.client true).delivered.length, (s.client false).delivered.length)) =
      some (1, 1) := by decide
  obtain ⟨s, hs, heq⟩ := Option.map_eq_some_iff.mp hrun
  obtain ⟨htrue, hfalse⟩ := Prod.mk.inj heq
  refine ⟨s, Exec.of_run hs, htrue, hfalse, ?_⟩
  intro i
  exact clients_answered (u := fun _ => Native.zeroed) (w := fun _ _ => Native.zeroed)
    (r := fun i _ => nulOrOne i) .object Native.generatedMessages_restores rfl rfl rfl rfl
    (Exec.of_run hs) i

end IpcWin
