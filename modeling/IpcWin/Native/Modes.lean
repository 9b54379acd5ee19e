/-
  IpcWin.Native.Modes

  The message builders of protobuf mode (`req_msg` and `resp_msg` of
  `NativeClient.cpp` and `NativeServer.cpp`), and both modes from a client's
  request to what it makes of the reply.

  The two encodings have nothing in common, and the server's lookup changes its
  table.  But the reply is chosen by two counts alone, which both encodings keep
  (an embedded NUL moves the strings of object mode, not their number), and an
  entry that a lookup adds is the one it would return anyway.  So both modes give
  the client what the table held at the start, after any history
  (`modes_agree`).
-/

import IpcWin.Native.Builders
import IpcWin.Protobuf.Messages

namespace IpcWin.Native

open IpcWin.Lib IpcWin.Wire
open IpcWin.Protobuf (Codec stringsWeight)

/-! ## The builders of protobuf mode -/

/-- `n = m.ByteSize(); p = malloc(n); m.SerializeToArray(p, n);` -/
def serializeMessage {M : Type} (pb : Codec M) (junk : Nat → Byte) (m : M) :
    Except Fault (Word × List Byte) :=
  let packetSize := pb.byteSize m
  match malloc junk packetSize with
  | none => .error .nullBuffer
  | some data =>
      ((OutBuf.start data).put (pb.serialize m)).map fun o => (packetSize, o.mem)

/-- The message classes that both programs are built with. -/
structure Messages where
  request : Codec Protobuf.Request
  response : Codec Protobuf.Response

/-- The generated code restores every message that it has serialised. -/
structure Messages.Restores (pb : Messages) : Prop where
  request : pb.request.Restores Protobuf.Request.isInitialized Protobuf.Request.weight
  response : pb.response.Restores Protobuf.Response.isInitialized Protobuf.Response.weight

namespace Client

/-- The message that `req_msg` makes of a request. -/
def requestMessage (cr : CustomRequest) : Protobuf.Request :=
  let r := Protobuf.Request.new.setName cr.mName
  let r := cr.mTypes.foldl Protobuf.Request.addTypes r
  cr.mIds.foldl Protobuf.Request.addIds r

/-- The client's `req_obj`: the length and the packet. -/
def reqObj (junk : Nat → Byte) (r : CustomRequest) : Except Fault (Word × List Byte) := do
  let rdata ← r.encode junk
  pure (r.getSize.1, rdata)

/-- The client's `req_msg`: the length and the packet. -/
def reqMsg (pb : Messages) (junk : Nat → Byte) (cr : CustomRequest) :
    Except Fault (Word × List Byte) :=
  serializeMessage pb.request junk (requestMessage cr)

/-- The client's `resp_msg`: the object that the parsed items are copied to. -/
def respMsg (pb : Messages) (size : Word) (respData : List Byte) :
    Except Fault CustomResponse := do
  let bytes ← readBlock respData size
  let (_, r) := pb.response.parseFromArray bytes
  pure { mData := r.data.foldl (fun data s => data ++ [s]) CustomResponse.new.mData }

end Client

namespace Server

/-- The message that `resp_msg` makes of a table entry. -/
def responseMessage (ccresp : CustomResponse) : Protobuf.Response :=
  ccresp.mData.foldl Protobuf.Response.addData Protobuf.Response.new

/-- The server's `resp_msg`: the reply and the table afterwards. -/
def respMsg (pb : Messages) (junk : Nat → Byte) (table : RespTable) (requestPacket : Word)
    (req : List Byte) : Except Fault ((Word × List Byte) × RespTable) := do
  let bytes ← readBlock req requestPacket
  let (_, cr) := pb.request.parseFromArray bytes
  let itemsc := BitVec.ofNat 32 cr.types.length * BitVec.ofNat 32 cr.ids.length
  let (ccresp, table) := table.lookup noItems itemsc
  let reply ← serializeMessage pb.response junk (responseMessage ccresp)
  pure (reply, table)

end Server

/-! ## A request and its reply -/

/-- The `-d` flag of both programs. -/
inductive Mode where
  | object
  | protobuf
deriving DecidableEq, Repr

/-- What one call finds in memory that nothing has been written to: the blocks of
    the client and of the server, and the two sizes of a new `custom_request`. -/
structure Uninit where
  clientJunk : Nat → Byte
  serverJunk : Nat → Byte
  idss : Word
  typess : Word

/-- A request in one mode, from the client's builder over the server's to what the
    client makes of the reply, with the table afterwards. -/
def ask (pb : Messages) (mode : Mode) (u : Uninit) (table : Server.RespTable)
    (r : CustomRequest) : Except Fault (CustomResponse × Server.RespTable) :=
  match mode with
  | .object => do
      let (size, rdata) ← Client.reqObj u.clientJunk r
      let ((packetSize, data), table) ←
        Server.respObj u.serverJunk u.idss u.typess table size rdata
      let cr ← Client.respObj packetSize data
      pure (cr, table)
  | .protobuf => do
      let (size, rdata) ← Client.reqMsg pb u.clientJunk r
      let ((packetSize, data), table) ← Server.respMsg pb u.serverJunk table size rdata
      let cr ← Client.respMsg pb packetSize data
      pure (cr, table)

/-- Requests in turn, each in a mode of its own: the table that is left. -/
def serve (pb : Messages) (table : Server.RespTable) :
    List (Mode × Uninit × CustomRequest) → Except Fault Server.RespTable
  | [] => .ok table
  | (mode, u, r) :: history => do
      let (_, table) ← ask pb mode u table r
      serve pb table history

/-- What the lookup of either mode takes from a request: the number of its pairs. -/
def CustomRequest.itemsc (r : CustomRequest) : Word :=
  BitVec.ofNat 32 (r.mIds.length * r.mTypes.length)

/-! ## What fits into memory -/

/-- A bound for what a request takes in memory, and for either of its encodings. -/
def CustomRequest.weight (r : CustomRequest) : Nat :=
  20 + stringsWeight r.mIds + stringsWeight r.mTypes + (r.mName.length + 6)

def CustomResponse.weight (r : CustomResponse) : Nat := 4 + stringsWeight r.mData

/-- A request in the memory of a Win32 process. -/
structure StoredRequest where
  request : CustomRequest
  weight_lt : request.weight < 2 ^ 31

/-- A reply table in the memory of a Win32 process, with items that hold no NUL. -/
structure StoredTable where
  table : Server.RespTable
  weight_lt : ∀ k cresp, table k = some cresp → cresp.weight < 2 ^ 31
  nulFree : ∀ k cresp, table k = some cresp → cresp.NulFree

theorem sectionLength_le_stringsWeight (ss : List Str) : sectionLength ss ≤ stringsWeight ss := by
  induction ss with
  | nil => exact Nat.le_refl 0
  | cons s ss ih =>
      rw [sectionLength_cons, stringsWeight]
      omega

theorem CustomRequest.wireLength_le_weight (r : CustomRequest) : r.wireLength ≤ r.weight := by
  have hids := sectionLength_le_stringsWeight r.mIds
  have htypes := sectionLength_le_stringsWeight r.mTypes
  rw [wireLength, requestLength, weight]
  omega

theorem CustomResponse.wireLength_le_weight (r : CustomResponse) : r.wireLength ≤ r.weight := by
  have hdata := sectionLength_le_stringsWeight r.mData
  rw [wireLength, responseLength, weight]
  omega

/-! ## Object mode -/

/-- Decoded again, a request has as many ids and types as before, whatever bytes are
    in them. -/
theorem CustomRequest.fromArray_wireBytes {r : CustomRequest} (hfit : r.wireLength < 2 ^ 31)
    (i t : Word) :
    ∃ d size, (CustomRequest.new i t).fromArray r.wireBytes = .ok (d, size) ∧
      d.mIds.length = r.mIds.length ∧ d.mTypes.length = r.mTypes.length := by
  obtain ⟨hcids, hctypes, hns⟩ := counts_lt hfit
  have hhead : headerAt r.wireBytes = requestHeader r.mIds r.mTypes r.mName :=
    headerAt_bytes_append _ _
  have hbody : r.wireBytes.drop 20 =
      [] ++ (terminated nul (r.mIds ++ r.mTypes) ++ (r.mName ++ [nul])) := by
    rw [List.nil_append, terminated_append, wireBytes, requestBytes,
      List.drop_left' (RequestHeader.bytes_length _), requestBody]
  obtain ⟨q, rest', hcut, hrest⟩ :=
    takeSegments_terminated_suffix (z := nul) (r.mIds ++ r.mTypes) [] (r.mName ++ [nul])
  rw [← hbody, List.length_append] at hcut
  -- both sections are there, and behind them at least the name
  have hids : loopCount (headerAt r.wireBytes).cids = r.mIds.length := by
    rw [hhead]
    exact loopCount_ofNat hcids
  have htypes : loopCount (headerAt r.wireBytes).ctypes = r.mTypes.length := by
    rw [hhead]
    exact loopCount_ofNat hctypes
  have hsome : (splitRequest r.wireBytes).isSome = true := by
    rw [splitRequest_isSome_iff, hids, htypes, ← takeSegments_isSome_iff, hcut]
    refine ⟨?_, rfl⟩
    rw [wireBytes_length, wireLength, requestLength]
    omega
  obtain ⟨⟨h, ids, types, rest⟩, hsplit⟩ := Option.isSome_iff_exists.mp hsome
  obtain ⟨-, rfl, hcutIds, hcutTypes⟩ := splitRequest_eq_some hsplit
  have hlen : r.mName.length + 1 ≤ rest.length := by
    have hrest' := splitRequest_rest hsplit
    rw [hids, htypes, dropSegments_of_takeSegments hcut] at hrest'
    rw [hrest']
    simpa using hrest.length_le
  have hneg : ¬ (headerAt r.wireBytes).ns.toInt < 0 := by
    rw [hhead, requestHeader, toInt_ofNat_of_lt hns]
    omega
  have hname : (headerAt r.wireBytes).ns.toNat ≤ rest.length := by
    rw [hhead, requestHeader, toNat_ofNat_of_lt hns]
    exact hlen
  have hdec : (CustomRequest.new i t).fromArray r.wireBytes =
      .ok ({ mIds := ids, mTypes := types, mName := []
             idss := (headerAt r.wireBytes).idss, typess := (headerAt r.wireBytes).typess },
        BitVec.ofNat 32
          (r.wireBytes.length - (rest.drop (headerAt r.wireBytes).ns.toNat).length)) := by
    rw [fromArray_eq, hsplit]
    simp only [hneg, if_false, if_pos hname]
    rfl
  refine ⟨_, _, hdec, ?_, ?_⟩
  · rw [← hids]
    exact (takeSegments_eq_some_iff.mp hcutIds).1
  · rw [← htypes]
    exact (takeSegments_eq_some_iff.mp hcutTypes).1

theorem Server.respObj_wireBytes {r : CustomRequest} (hfit : r.wireLength < 2 ^ 31)
    (junk : Nat → Byte) (i t : Word) (table : RespTable) (size : Word)
    (hreply : (table.lookup noItems r.itemsc).1.wireLength < 2 ^ 31) :
    respObj junk i t table size r.wireBytes =
      .ok (((table.lookup noItems r.itemsc).1.getSize,
        (table.lookup noItems r.itemsc).1.wireBytes),
        (table.lookup noItems r.itemsc).2) := by
  obtain ⟨d, size', hdec, hids, htypes⟩ := CustomRequest.fromArray_wireBytes hfit i t
  have hkey : BitVec.ofNat 32 d.mTypes.length * BitVec.ofNat 32 d.mIds.length =
      r.itemsc := by
    rw [hids, htypes, CustomRequest.itemsc, BitVec.ofNat_mul, BitVec.mul_comm]
  simp only [respObj, hdec, bind, Except.bind, hkey, CustomResponse.encode_of_lt junk hreply]
  rfl

/-- In object mode the client is handed the items that the lookup found. -/
theorem ask_object (pb : Messages) (u : Uninit) {table : Server.RespTable} {r : CustomRequest}
    (hfit : r.wireLength < 2 ^ 31) {cresp : CustomResponse} {table' : Server.RespTable}
    (hlookup : table.lookup Server.noItems r.itemsc = (cresp, table'))
    (hreply : cresp.wireLength < 2 ^ 31) (hnul : cresp.NulFree) :
    ask pb .object u table r = .ok (cresp, table') := by
  have hserver := Server.respObj_wireBytes hfit u.serverJunk u.idss u.typess table r.getSize.1
    (by rw [hlookup]; exact hreply)
  have hdec := CustomResponse.fromArray_wireBytes_append hnul hreply CustomResponse.new []
  rw [List.append_nil] at hdec
  rw [hlookup] at hserver
  simp only [ask, Client.reqObj, CustomRequest.encode_of_lt u.clientJunk hfit, bind, Except.bind,
    pure, Except.pure, hserver, Client.respObj, hdec]
  rfl

/-! ## Protobuf mode -/

theorem readBlock_whole {bs : List Byte} (h : bs.length < 2 ^ 31) :
    readBlock bs (BitVec.ofNat 32 bs.length) = .ok bs := by
  have hneg : ¬ ((bs.length : Int) < 0) := by omega
  rw [readBlock, toInt_ofNat_of_lt h, toNat_ofNat_of_lt h, if_neg hneg, if_pos (Nat.le_refl _),
    List.take_length]

theorem serializeMessage_eq {M : Type} {pb : Codec M} {isInitialized : M → Bool}
    {weight : M → Nat} (hpb : pb.Restores isInitialized weight) (junk : Nat → Byte) {m : M}
    (hinit : isInitialized m = true) (hlt : weight m < 2 ^ 31) :
    serializeMessage pb junk m =
      .ok (BitVec.ofNat 32 (pb.serialize m).length, pb.serialize m) := by
  have hlen := hpb.fits m hinit hlt
  obtain ⟨o, ho, hfilled⟩ := (OutBuf.filled_start
    ((List.range (pb.serialize m).length).map junk)).put (pb.serialize m) (by simp)
  have hmem : o.mem = pb.serialize m := hfilled.mem_eq (by simp)
  simp only [serializeMessage, hpb.byteSize m hinit hlt, malloc_of_lt hlen, ho, Except.map, hmem]

/-- Adding strings one by one adds the list. -/
theorem foldl_add {M : Type} {add : M → Str → M} (extend : M → List Str → M)
    (hnil : ∀ m, extend m [] = m) (hadd : ∀ m s ss, extend (add m s) ss = extend m (s :: ss))
    (ss : List Str) (m : M) : ss.foldl add m = extend m ss := by
  induction ss generalizing m with
  | nil => exact (hnil m).symm
  | cons s ss ih => rw [List.foldl_cons, ih, hadd]

theorem Client.requestMessage_eq (cr : CustomRequest) :
    requestMessage cr = { name := some cr.mName, ids := cr.mIds, types := cr.mTypes } := by
  have htypes : ∀ (ss : List Str) (r : Protobuf.Request),
      ss.foldl Protobuf.Request.addTypes r = { r with types := r.types ++ ss } :=
    foldl_add (fun (r : Protobuf.Request) ss => { r with types := r.types ++ ss }) (by simp)
      (by simp [Protobuf.Request.addTypes])
  have hids : ∀ (ss : List Str) (r : Protobuf.Request),
      ss.foldl Protobuf.Request.addIds r = { r with ids := r.ids ++ ss } :=
    foldl_add (fun (r : Protobuf.Request) ss => { r with ids := r.ids ++ ss }) (by simp)
      (by simp [Protobuf.Request.addIds])
  simp only [requestMessage, htypes, hids]
  simp [Protobuf.Request.new, Protobuf.Request.setName]

theorem Server.responseMessage_eq (cresp : CustomResponse) :
    responseMessage cresp = { data := cresp.mData } := by
  have hdata : ∀ (ss : List Str) (r : Protobuf.Response),
      ss.foldl Protobuf.Response.addData r = { r with data := r.data ++ ss } :=
    foldl_add (fun (r : Protobuf.Response) ss => { r with data := r.data ++ ss }) (by simp)
      (by simp [Protobuf.Response.addData])
  rw [responseMessage, hdata]
  simp [Protobuf.Response.new]

/-- The message of a request in memory is complete and in memory itself. -/
theorem CustomRequest.requestMessage_stored {r : CustomRequest} (hr : r.weight < 2 ^ 31) :
    (Client.requestMessage r).isInitialized = true ∧
      (Client.requestMessage r).weight < 2 ^ 31 := by
  rw [weight] at hr
  rw [Client.requestMessage_eq]
  refine ⟨rfl, ?_⟩
  simp only [Protobuf.Request.weight, Option.toList_some, stringsWeight]
  omega

theorem CustomResponse.message_stored {cresp : CustomResponse} (h : cresp.weight < 2 ^ 31) :
    Protobuf.Response.weight { data := cresp.mData } < 2 ^ 31 := by
  rw [weight] at h
  show stringsWeight cresp.mData < 2 ^ 31
  omega

theorem Server.respMsg_eq {pb : Messages} (hpb : pb.Restores) {r : CustomRequest}
    (hr : r.weight < 2 ^ 31) (junk : Nat → Byte) {table table' : RespTable} {cresp : CustomResponse}
    (hlookup : table.lookup Server.noItems r.itemsc = (cresp, table'))
    (hreply : cresp.weight < 2 ^ 31) :
    respMsg pb junk table (BitVec.ofNat 32 (pb.request.serialize (Client.requestMessage r)).length)
        (pb.request.serialize (Client.requestMessage r)) =
      .ok ((BitVec.ofNat 32 (pb.response.serialize { data := cresp.mData }).length,
        pb.response.serialize { data := cresp.mData }), table') := by
  obtain ⟨hinit, hweight⟩ := CustomRequest.requestMessage_stored hr
  have hblock := readBlock_whole (hpb.request.fits _ hinit hweight)
  have hparse := hpb.request.parse _ hinit hweight
  have hkey : BitVec.ofNat 32 (Client.requestMessage r).types.length *
      BitVec.ofNat 32 (Client.requestMessage r).ids.length =
      r.itemsc := by
    rw [Client.requestMessage_eq, CustomRequest.itemsc, BitVec.ofNat_mul, BitVec.mul_comm]
  have hserial := serializeMessage_eq hpb.response junk (m := { data := cresp.mData }) rfl
    (CustomResponse.message_stored hreply)
  simp only [respMsg, hblock, bind, Except.bind, hparse, hkey, hlookup, responseMessage_eq, hserial]
  rfl

theorem Client.respMsg_eq {pb : Messages} (hpb : pb.Restores) {cresp : CustomResponse}
    (hreply : cresp.weight < 2 ^ 31) :
    respMsg pb (BitVec.ofNat 32 (pb.response.serialize { data := cresp.mData }).length)
      (pb.response.serialize { data := cresp.mData }) = .ok cresp := by
  have hlt := CustomResponse.message_stored hreply
  have hblock := readBlock_whole (hpb.response.fits { data := cresp.mData } rfl hlt)
  have hparse := hpb.response.parse { data := cresp.mData } rfl hlt
  have hcopy : ∀ ss data : List Str, ss.foldl (fun data s => data ++ [s]) data = data ++ ss :=
    foldl_add (fun data ss => data ++ ss) (by simp) (by simp)
  simp only [respMsg, hblock, bind, Except.bind, hparse, hcopy]
  rfl

/-- In protobuf mode the client is handed the items that the lookup found. -/
theorem ask_protobuf {pb : Messages} (hpb : pb.Restores) (u : Uninit) {r : CustomRequest}
    (hr : r.weight < 2 ^ 31) {table table' : Server.RespTable} {cresp : CustomResponse}
    (hlookup : table.lookup Server.noItems r.itemsc = (cresp, table'))
    (hreply : cresp.weight < 2 ^ 31) :
    ask pb .protobuf u table r = .ok (cresp, table') := by
  obtain ⟨hinit, hweight⟩ := CustomRequest.requestMessage_stored hr
  have hrequest := serializeMessage_eq hpb.request u.clientJunk hinit hweight
  have hserver := Server.respMsg_eq hpb hr u.serverJunk hlookup hreply
  have hclient := Client.respMsg_eq hpb hreply
  simp only [ask, Client.reqMsg, hrequest, bind, Except.bind, hserver, hclient]
  rfl

/-! ## The table after a history -/

namespace Server

/-- The items that a table has for a number of pairs, none when it has no entry. -/
def RespTable.items (table : RespTable) (n : Nat) : List Str :=
  (Table.entry noItems table (BitVec.ofNat 32 n)).mData

end Server

/-- A new response is in memory and holds no NUL. -/
theorem CustomResponse.new_stored : CustomResponse.new.weight < 2 ^ 31 ∧
    CustomResponse.new.NulFree := by
  refine ⟨by decide, ?_⟩
  intro s hs
  cases hs

/-- What a lookup finds in a stored table is stored. -/
theorem StoredTable.entry_stored (start : StoredTable) (k : Word) :
    (start.table.entry Server.noItems k).weight < 2 ^ 31 ∧
      (start.table.entry Server.noItems k).NulFree := by
  rw [Table.entry]
  cases hk : start.table k with
  | none => exact CustomResponse.new_stored
  | some cresp => exact ⟨start.weight_lt k cresp hk, start.nulFree k cresp hk⟩

/-- In either mode, a request to a server with the entries of the start is answered from
    them, and leaves them as they were. -/
theorem ask_eq {pb : Messages} (hpb : pb.Restores) (start : StoredTable) {table : Server.RespTable}
    (htable : table.entry Server.noItems = start.table.entry Server.noItems) (mode : Mode)
    (u : Uninit) (r : StoredRequest) :
    ∃ table', ask pb mode u table r.request =
        .ok (start.table.entry Server.noItems r.request.itemsc, table') ∧
      table'.entry Server.noItems = start.table.entry Server.noItems := by
  obtain ⟨hweight, hnul⟩ := start.entry_stored r.request.itemsc
  have hlookup : table.lookup Server.noItems r.request.itemsc =
      (start.table.entry Server.noItems r.request.itemsc,
        (table.lookup Server.noItems r.request.itemsc).2) :=
    Prod.ext ((Table.lookup_fst _).trans (congrFun htable _)) rfl
  refine ⟨(table.lookup Server.noItems r.request.itemsc).2, ?_,
    (Table.entry_lookup _).trans htable⟩
  cases mode with
  | object =>
      exact ask_object pb u (r.request.wireLength_le_weight.trans_lt r.weight_lt) hlookup
        ((CustomResponse.wireLength_le_weight _).trans_lt hweight) hnul
  | protobuf => exact ask_protobuf hpb u r.weight_lt hlookup hweight

/-- Requests that fit into memory, each in a mode of its own. -/
abbrev History := List (Mode × Uninit × StoredRequest)

/-- The calls of a history. -/
def History.calls (history : History) : List (Mode × Uninit × CustomRequest) :=
  history.map fun (mode, u, r) => (mode, u, r.request)

/-- Every history is served, and leaves the entries of the start. -/
theorem serve_entry {pb : Messages} (hpb : pb.Restores) (start : StoredTable)
    (history : History) {table : Server.RespTable}
    (htable : table.entry Server.noItems = start.table.entry Server.noItems) :
    ∃ table', serve pb table history.calls = .ok table' ∧
      table'.entry Server.noItems = start.table.entry Server.noItems := by
  induction history generalizing table with
  | nil => exact ⟨table, rfl, htable⟩
  | cons call history ih =>
      obtain ⟨mode, u, r⟩ := call
      obtain ⟨next, hask, hnext⟩ := ask_eq hpb start htable mode u r
      obtain ⟨table', hserve, htable'⟩ := ih hnext
      refine ⟨table', ?_, htable'⟩
      show (do
        let (_, table) ← ask pb mode u table r.request
        serve pb table (History.calls history)) = .ok table'
      rw [hask]
      exact hserve

/-- After any history, the client is handed the same list in either mode: the one
    that the table of the start has for the number of pairs in the request. -/
theorem modes_agree {pb : Messages} (hpb : pb.Restores) (start : StoredTable) (history : History)
    (r : StoredRequest) (u u' : Uninit) :
    ∃ table byObject byProtobuf tableO tableP,
      serve pb start.table history.calls = .ok table ∧
      ask pb .object u table r.request = .ok (byObject, tableO) ∧
      ask pb .protobuf u' table r.request = .ok (byProtobuf, tableP) ∧
      byObject.mData = start.table.items (r.request.mIds.length * r.request.mTypes.length) ∧
      byProtobuf.mData = start.table.items (r.request.mIds.length * r.request.mTypes.length) := by
  obtain ⟨table, hserve, htable⟩ := serve_entry hpb start history rfl
  obtain ⟨tableO, hobject, -⟩ := ask_eq hpb start htable .object u r
  obtain ⟨tableP, hprotobuf, -⟩ := ask_eq hpb start htable .protobuf u' r
  exact ⟨table, _, _, tableO, tableP, hserve, hobject, hprotobuf, rfl, rfl⟩

/-- The generated classes of `Messages.proto`. -/
def generatedMessages : Messages :=
  { request := Protobuf.requestCodec, response := Protobuf.responseCodec }

theorem generatedMessages_restores : generatedMessages.Restores where
  request := Protobuf.requestCodec_restores
  response := Protobuf.responseCodec_restores

/-- The reply `"x"`, `"yz"`. -/
def twoItems : CustomResponse := { mData := [[0x78], [0x79, 0x7a]] }

theorem twoItems_stored : twoItems.weight < 2 ^ 31 ∧ twoItems.NulFree := by decide

/-- A table with `twoItems` for two pairs and nothing else. -/
def pairTable : StoredTable where
  table k := if k = 2 then some twoItems else none
  weight_lt k cresp h := by
    rw [← Option.some.inj (Option.ite_none_right_eq_some.mp h).2]
    exact twoItems_stored.1
  nulFree k cresp h := by
    rw [← Option.some.inj (Option.ite_none_right_eq_some.mp h).2]
    exact twoItems_stored.2

/-- Two ids with a NUL in each, and one type. -/
def nulIds : CustomRequest :=
  { mIds := [[0x41, nul], [nul, 0x42]], mTypes := [[0x54]], mName := [0x6e], idss := 0, typess := 0 }

theorem nulIds_weight_lt : nulIds.weight < 2 ^ 31 := by decide

/-- One id and one type. -/
def oneId : CustomRequest :=
  { mIds := [[0x41]], mTypes := [[0x54]], mName := [], idss := 0, typess := 0 }

theorem oneId_weight_lt : oneId.weight < 2 ^ 31 := by decide

def zeroed : Uninit :=
  { clientJunk := fun _ => 0, serverJunk := fun _ => 0, idss := 0, typess := 0 }

theorem nulIds_modes_agree :
    ∃ table byObject byProtobuf tableO tableP,
      serve generatedMessages pairTable.table
        (History.calls [(.object, zeroed, ⟨oneId, oneId_weight_lt⟩),
          (.protobuf, zeroed, ⟨nulIds, nulIds_weight_lt⟩)]) = .ok table ∧
      ask generatedMessages .object zeroed table nulIds = .ok (byObject, tableO) ∧
      ask generatedMessages .protobuf zeroed table nulIds = .ok (byProtobuf, tableP) ∧
      byObject.mData = pairTable.table.items (2 * 1) ∧
      byProtobuf.mData = pairTable.table.items (2 * 1) :=
  modes_agree generatedMessages_restores pairTable
    [(.object, zeroed, ⟨oneId, oneId_weight_lt⟩), (.protobuf, zeroed, ⟨nulIds, nulIds_weight_lt⟩)]
    ⟨nulIds, nulIds_weight_lt⟩ zeroed zeroed

end IpcWin.Native
