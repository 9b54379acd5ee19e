/-
  IpcWin.Native.Session

  The two programs' builders as a transport calls them: with no more than the bytes
  that have come over.

  The server keeps its table from call to call, so that its builder is a function
  of all it has been handed (`Server.builder`).  But a lookup that adds an entry
  adds the one it returns, so that after any requests of clients in the mode of
  the server a reply depends on its own request alone (`Server.builder_packet`),
  and the client that made the request reads what the table of the start has for
  it (`Client.parse_builder`).
-/

import IpcWin.Native.Modes
import IpcWin.Wire.Packet

namespace IpcWin.Native

open IpcWin.Lib IpcWin.Wire

/-! ## The builders -/

/-- What goes out of a builder.  A call that stops the program puts nothing out; here it
    still puts out a packet without any data. -/
def built : Except Fault (Word × List Byte) → Packet
  | .ok (_, data) =>
      if h : data.length < 2 ^ 31 then { bytes := data, length_lt := h } else .empty
  | .error _ => .empty

namespace Client

/-- The client's request builder. -/
def build (pb : Messages) (mode : Mode) (u : Uninit) (r : CustomRequest) :
    Except Fault (Word × List Byte) :=
  match mode with
  | .object => reqObj u.clientJunk r
  | .protobuf => reqMsg pb u.clientJunk r

/-- The packet of a request. -/
def packet (pb : Messages) (mode : Mode) (u : Uninit) (r : CustomRequest) : Packet :=
  built (build pb mode u r)

/-- The client's response builder, on what it is handed; nothing can be read behind
    `NULL`. -/
def parse (pb : Messages) (mode : Mode) (reply : Received) : Except Fault CustomResponse :=
  match mode with
  | .object => respObj reply.1 (reply.2.getD [])
  | .protobuf => respMsg pb reply.1 (reply.2.getD [])

end Client

namespace Server

/-- One call of the server's builder: the reply and the table afterwards. -/
def reply (pb : Messages) (mode : Mode) (u : Uninit) (table : RespTable) (request : Received) :
    Except Fault ((Word × List Byte) × RespTable) :=
  match mode with
  | .object => respObj u.serverJunk u.idss u.typess table request.1 (request.2.getD [])
  | .protobuf => respMsg pb u.serverJunk table request.1 (request.2.getD [])

/-- The table after calls of the builder, the `k`-th with `u k` in memory. -/
def tableAfter (pb : Messages) (mode : Mode) :
    (Nat → Uninit) → RespTable → List Received → Except Fault RespTable
  | _, table, [] => .ok table
  | u, table, request :: requests => do
      let (_, table) ← reply pb mode (u 0) table request
      tableAfter pb mode (fun k => u (k + 1)) table requests

/-- The builder as a function of all that the server has been handed, with the table of
    the start. -/
def builder (pb : Messages) (mode : Mode) (u : Nat → Uninit) (start : RespTable)
    (requests : List Received) : Packet :=
  match requests.getLast? with
  | none => .empty
  | some request => built do
      let table ← tableAfter pb mode u start requests.dropLast
      let (q, _) ← reply pb mode (u (requests.length - 1)) table request
      pure q

end Server

/-! ## The bytes that go over -/

/-- A request in the encoding of a mode. -/
def encodedRequest (pb : Messages) (mode : Mode) (r : CustomRequest) : List Byte :=
  match mode with
  | .object => r.wireBytes
  | .protobuf => pb.request.serialize (Client.requestMessage r)

/-- A reply in the encoding of a mode. -/
def encodedReply (pb : Messages) (mode : Mode) (cresp : CustomResponse) : List Byte :=
  match mode with
  | .object => cresp.wireBytes
  | .protobuf => pb.response.serialize { data := cresp.mData }

/-- What the table of the start has for a request. -/
def StoredTable.answer (start : StoredTable) (r : StoredRequest) : CustomResponse :=
  start.table.entry Server.noItems r.request.itemsc

section Calls

variable {pb : Messages} (mode : Mode)

theorem encodedRequest_length_lt (hpb : pb.Restores) (r : StoredRequest) :
    (encodedRequest pb mode r.request).length < 2 ^ 31 := by
  cases mode with
  | object =>
      rw [encodedRequest, CustomRequest.wireBytes_length]
      exact r.request.wireLength_le_weight.trans_lt r.weight_lt
  | protobuf =>
      obtain ⟨hinit, hweight⟩ := CustomRequest.requestMessage_stored r.weight_lt
      exact hpb.request.fits _ hinit hweight

theorem encodedReply_length_lt (hpb : pb.Restores) {cresp : CustomResponse}
    (h : cresp.weight < 2 ^ 31) : (encodedReply pb mode cresp).length < 2 ^ 31 := by
  cases mode with
  | object =>
      rw [encodedReply, CustomResponse.wireBytes_length]
      exact cresp.wireLength_le_weight.trans_lt h
  | protobuf => exact hpb.response.fits _ rfl (CustomResponse.message_stored h)

/-- The client puts out the encoding of its request. -/
theorem Client.build_eq (hpb : pb.Restores) (u : Uninit) (r : StoredRequest) :
    build pb mode u r.request = .ok
      (BitVec.ofNat 32 (encodedRequest pb mode r.request).length,
        encodedRequest pb mode r.request) := by
  cases mode with
  | object =>
      have hfit := r.request.wireLength_le_weight.trans_lt r.weight_lt
      simp only [build, reqObj, CustomRequest.encode_of_lt u.clientJunk hfit, bind, Except.bind,
        pure, Except.pure, CustomRequest.getSize_fst, encodedRequest,
        CustomRequest.wireBytes_length]
  | protobuf =>
      obtain ⟨hinit, hweight⟩ := CustomRequest.requestMessage_stored r.weight_lt
      exact serializeMessage_eq hpb.request u.clientJunk hinit hweight

/-- The server puts out the encoding of what it looks up, and keeps the table that the
    lookup leaves. -/
theorem Server.reply_eq (hpb : pb.Restores) (start : StoredTable) {table : RespTable}
    (htable : table.entry noItems = start.table.entry noItems) (u : Uninit) (r : StoredRequest) :
    reply pb mode u table
        (BitVec.ofNat 32 (encodedRequest pb mode r.request).length,
          some (encodedRequest pb mode r.request)) =
      .ok ((BitVec.ofNat 32 (encodedReply pb mode (start.answer r)).length,
        encodedReply pb mode (start.answer r)), (table.lookup noItems r.request.itemsc).2) := by
  obtain ⟨hweight, -⟩ := start.entry_stored r.request.itemsc
  have hlookup : table.lookup noItems r.request.itemsc =
      (start.answer r, (table.lookup noItems r.request.itemsc).2) :=
    Prod.ext ((Table.lookup_fst _).trans (congrFun htable _)) rfl
  cases mode with
  | object =>
      have hfit := r.request.wireLength_le_weight.trans_lt r.weight_lt
      have hreply : (table.lookup noItems r.request.itemsc).1.wireLength < 2 ^ 31 := by
        rw [hlookup]
        exact (CustomResponse.wireLength_le_weight _).trans_lt hweight
      have hserver := respObj_wireBytes hfit u.serverJunk u.idss u.typess table
        (BitVec.ofNat 32 (encodedRequest pb .object r.request).length) hreply
      rw [hlookup] at hserver
      simp only [reply, encodedReply, encodedRequest, Option.getD_some,
        CustomResponse.wireBytes_length] at hserver ⊢
      rw [hserver, CustomResponse.getSize_eq]
  | protobuf => exact respMsg_eq hpb r.weight_lt u.serverJunk hlookup hweight

/-- The client reads back what the server has put out. -/
theorem Client.parse_eq (hpb : pb.Restores) {cresp : CustomResponse}
    (hweight : cresp.weight < 2 ^ 31) (hnul : cresp.NulFree) :
    parse pb mode
        (BitVec.ofNat 32 (encodedReply pb mode cresp).length, some (encodedReply pb mode cresp)) =
      .ok cresp := by
  cases mode with
  | object =>
      have hfit := cresp.wireLength_le_weight.trans_lt hweight
      have hdec := CustomResponse.fromArray_wireBytes_append hnul hfit CustomResponse.new []
      rw [List.append_nil] at hdec
      simp only [parse, respObj, encodedReply, Option.getD_some, hdec, bind, Except.bind]
      rfl
  | protobuf => exact respMsg_eq hpb hweight

/-! ## After any requests -/

theorem built_received {data : List Byte} (h : data.length < 2 ^ 31) (size : Word) :
    (built (.ok (size, data))).received = (BitVec.ofNat 32 data.length, some data) := by
  simp only [built, dif_pos h]
  rfl

/-- The packet of a request is its encoding, whatever is in memory. -/
theorem Client.packet_received (hpb : pb.Restores) (u : Uninit) (r : StoredRequest) :
    (packet pb mode u r.request).received =
      (BitVec.ofNat 32 (encodedRequest pb mode r.request).length,
        some (encodedRequest pb mode r.request)) := by
  rw [packet, build_eq mode hpb u r]
  exact built_received (encodedRequest_length_lt mode hpb r) _

/-- What has been received is the packet of some request. -/
def Requests (pb : Messages) (mode : Mode) (q : Received) : Prop :=
  ∃ r : StoredRequest, q = (BitVec.ofNat 32 (encodedRequest pb mode r.request).length,
    some (encodedRequest pb mode r.request))

/-- Any requests leave the entries of the start. -/
theorem Server.tableAfter_eq (hpb : pb.Restores) (start : StoredTable) {requests : List Received}
    (hrequests : ∀ q ∈ requests, Requests pb mode q) (u : Nat → Uninit) {table : RespTable}
    (htable : table.entry noItems = start.table.entry noItems) :
    ∃ table', tableAfter pb mode u table requests = .ok table' ∧
      table'.entry noItems = start.table.entry noItems := by
  induction requests generalizing u table with
  | nil => exact ⟨table, rfl, htable⟩
  | cons q requests ih =>
      obtain ⟨r, rfl⟩ := hrequests q List.mem_cons_self
      have hreply := reply_eq mode hpb start htable (u 0) r
      obtain ⟨table', hafter, htable'⟩ :=
        ih (fun q' hq' => hrequests q' (List.mem_cons_of_mem _ hq')) (fun k => u (k + 1))
          ((Table.entry_lookup r.request.itemsc).trans htable)
      refine ⟨table', ?_, htable'⟩
      rw [tableAfter, hreply]
      exact hafter

/-- After any requests, the reply to one more is the encoding of what the table of the
    start has for it. -/
theorem Server.builder_packet (hpb : pb.Restores) (start : StoredTable) {requests : List Received}
    (hrequests : ∀ q ∈ requests, Requests pb mode q) (u : Nat → Uninit) (r : StoredRequest) :
    (builder pb mode u start.table (requests ++
        [(BitVec.ofNat 32 (encodedRequest pb mode r.request).length,
          some (encodedRequest pb mode r.request))])).received =
      (BitVec.ofNat 32 (encodedReply pb mode (start.answer r)).length,
        some (encodedReply pb mode (start.answer r))) := by
  obtain ⟨table, hafter, htable⟩ := tableAfter_eq mode hpb start hrequests u rfl
  have hlt := encodedReply_length_lt mode hpb (start.entry_stored r.request.itemsc).1
  rw [builder, List.getLast?_concat, List.dropLast_concat, hafter]
  simp only [bind, Except.bind, reply_eq mode hpb start htable, pure, Except.pure]
  exact built_received hlt _

/-- After any requests, the client that makes one more reads what the table of the start
    has for it. -/
theorem Client.parse_builder (hpb : pb.Restores) (start : StoredTable) {requests : List Received}
    (hrequests : ∀ q ∈ requests, Requests pb mode q) (u : Nat → Uninit) (v : Uninit)
    (r : StoredRequest) :
    parse pb mode (Server.builder pb mode u start.table
        (requests ++ [(packet pb mode v r.request).received])).received = .ok (start.answer r) := by
  obtain ⟨hweight, hnul⟩ := start.entry_stored r.request.itemsc
  rw [packet_received mode hpb v r, Server.builder_packet mode hpb start hrequests u r]
  exact parse_eq mode hpb hweight hnul

end Calls

end IpcWin.Native
