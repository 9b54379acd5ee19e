/-
  IpcWin.Interop.Session

  The managed client with the native server, in object mode over the pipe.

  `req_obj` and `resp_obj` of `ManagedClient/Program.cs` around the managed
  objects, and the message that `makePipeRequest` puts together of a request.  For
  a request over 7-bit characters the message is the native client's frame, byte
  for byte (`makeMessage_eq`), so that the server cannot tell the two apart, and the
  managed client reads what the server's table of the start has for its requests
  (`managed_answered`).
-/

import IpcWin.Interop.Encoders
import IpcWin.Interop.Decoders
import IpcWin.EndToEnd

namespace IpcWin.Interop

open IpcWin.Lib IpcWin.Wire
open IpcWin.Managed (ByteArr Exn arrayCopy asciiString newBytes)
open IpcWin.Native (Messages StoredRequest StoredTable Uninit)

/-! ## The managed client -/

/-- `req_obj`: the array and its size. -/
def reqObj (rs : Managed.CustomRequest) : Except Exn (ByteArr × Word) := do
  let (sizeP, rs) := rs.getSize
  let reqData ← rs.toArray sizeP
  pure (reqData, sizeP)

/-- `makePipeRequest`: the array that is handed to `WriteFile`. -/
def makeMessage (requestData : ByteArr) (rmessageSize : Word) : Except Exn ByteArr := do
  let msg ← newBytes (4 + rmessageSize)
  let msg ← arrayCopy (intBytes rmessageSize) msg 0
  arrayCopy requestData.bytes msg 4

/-- `resp_obj`, on the array that `ReadFile` has filled. -/
def respObj (respData : ByteArr) : Except Exn Managed.CustomResponse :=
  Managed.CustomResponse.new.fromArray respData

/-- The packet of a request.  A call that throws ends the program; here it still sends a
    frame, without any data. -/
def managedPacket (rs : Managed.CustomRequest) : Packet :=
  match reqObj rs with
  | .ok (b, _) => { bytes := b.bytes, length_lt := b.length_lt }
  | .error _ => .empty

/-- What the client makes of a reply: `new byte[responseSize]`, which `ReadFile` fills. -/
def managedParse (reply : Received) : Except Exn Managed.CustomResponse :=
  match reply.2 with
  | some bytes =>
      if h : bytes.length < 2 ^ 31 then respObj { bytes := bytes, length_lt := h }
      else .error .overflow
  | none => .error .overflow

/-! ## The same bytes -/

/-- `req_obj` puts out the bytes of the native client, with their number. -/
theorem reqObj_eq (q : Request7) (i t : Word) (hfit : (q.native i t).wireLength < 2 ^ 31) :
    ∃ b, reqObj q.managed = .ok (b, BitVec.ofNat 32 (q.native i t).wireLength) ∧
      b.bytes = (q.native i t).wireBytes := by
  have hlen := q.wireLength_managed i t
  obtain ⟨b, hb, hbytes⟩ := Managed.CustomRequest.toArray_getSize (hlen ▸ hfit)
  refine ⟨b, ?_, hbytes.trans (q.wireBytes_managed i t)⟩
  rw [← hlen, ← Managed.CustomRequest.getSize_fst]
  simp only [reqObj, hb, bind, Except.bind, pure, Except.pure]

/-- The message is the frame of the native client. -/
theorem makeMessage_eq (q : Request7) (i t : Word) (hfit : (q.native i t).wireLength + 4 < 2 ^ 31)
    {b : ByteArr} {size : Word} (h : reqObj q.managed = .ok (b, size)) {m : Packet}
    (hm : m.bytes = (q.native i t).wireBytes) :
    ∃ msg, makeMessage b size = .ok msg ∧ msg.bytes = Pipes.frame m := by
  obtain ⟨b', hb', hbytes⟩ := reqObj_eq q i t (by omega)
  obtain ⟨rfl, rfl⟩ := Prod.mk.inj (Except.ok.inj (hb'.symm.trans h))
  have hlen : b'.bytes.length = (q.native i t).wireLength := by
    rw [hbytes, Native.CustomRequest.wireBytes_length]
  have hsize : 4 + BitVec.ofNat 32 (q.native i t).wireLength =
      BitVec.ofNat 32 (4 + (q.native i t).wireLength) := by
    rw [BitVec.ofNat_add]
    rfl
  obtain ⟨m₀, h₀, f₀⟩ := Managed.newBytes_of_lt
    (show 4 + (q.native i t).wireLength < 2 ^ 31 by omega)
  obtain ⟨m₁, h₁, f₁⟩ := f₀.arrayCopy (intBytes (BitVec.ofNat 32 (q.native i t).wireLength)) 0
    rfl (by simp)
  obtain ⟨m₂, h₂, f₂⟩ := f₁.arrayCopy b'.bytes 4 (by simp) (by simp [hlen])
  refine ⟨m₂, ?_, ?_⟩
  · simp only [makeMessage, hsize, h₀, h₁, bind, Except.bind]
    exact h₂
  · have hout := f₂.bytes
    rw [hout, Pipes.frame, Packet.size, hm, hbytes, Native.CustomRequest.wireBytes_length]
    simp

/-- A request over 7-bit characters in the memory of a Win32 process. -/
structure StoredRequest7 where
  request : Request7
  weight_lt : (request.native 0 0).weight < 2 ^ 31

/-- The request as a native client would hold it. -/
def StoredRequest7.native (q : StoredRequest7) : StoredRequest :=
  { request := q.request.native 0 0, weight_lt := q.weight_lt }

/-- On the wire the managed client's packet is the native client's. -/
theorem managedPacket_received (pb : Messages) (q : StoredRequest7) :
    (managedPacket q.request.managed).received =
      (BitVec.ofNat 32 (Native.encodedRequest pb .object q.native.request).length,
        some (Native.encodedRequest pb .object q.native.request)) := by
  have hfit := (Native.CustomRequest.wireLength_le_weight _).trans_lt q.weight_lt
  obtain ⟨b, hb, hbytes⟩ := reqObj_eq q.request 0 0 hfit
  simp only [managedPacket, hb, Packet.received, Packet.size, hbytes]
  rfl

/-- The managed client reads the items, as characters. -/
theorem managedParse_eq (pb : Messages) {cresp : Native.CustomResponse}
    (hweight : cresp.weight < 2 ^ 31) (hnul : cresp.NulFree) :
    managedParse (BitVec.ofNat 32 (Native.encodedReply pb .object cresp).length,
        some (Native.encodedReply pb .object cresp)) =
      .ok { mData := cresp.mData.map asciiString } := by
  have hfit := cresp.wireLength_le_weight.trans_lt hweight
  have hlen : cresp.wireBytes.length < 2 ^ 31 := by
    rw [Native.CustomResponse.wireBytes_length]
    exact hfit
  have hnative := Native.CustomResponse.fromArray_wireBytes_append hnul hfit .new []
  rw [List.append_nil] at hnative
  obtain ⟨hiff, hsame⟩ := responseDecoders_agree { bytes := cresp.wireBytes, length_lt := hlen }
  have hret : Returns (Managed.CustomResponse.new.fromArray
      { bytes := cresp.wireBytes, length_lt := hlen }) := by
    rw [hiff, hnative]
    simp [Native.LeavesPacket]
  obtain ⟨d, d', sizeP, hd, hd', hdata⟩ := hsame hret
  -- the native decoder gives back the items, so the managed one gives them as characters
  obtain ⟨rfl, -⟩ := Prod.mk.inj (Except.ok.inj (hnative.symm.trans hd'))
  simp only [managedParse, Native.encodedReply, dif_pos hlen, respObj, hd]
  cases d with
  | mk data =>
      simp only at hdata
      rw [hdata]
      simp [Native.CustomResponse.absorb, Native.CustomResponse.new]

/-- If the calls of a managed client have gone through in turn, it reads what the native
    server's table of the start has for its requests. -/
theorem parsed_of_inTurn {pb : Messages} (hpb : pb.Restores) {start : StoredTable}
    {u : Nat → Uninit} {r : Nat → StoredRequest7} {t : Calls}
    (h : t.InTurn (fun k => managedPacket (r k).request.managed)
      (Native.Server.builder pb .object u start.table)) :
    t.handed.map managedParse = (List.range t.handed.length).map fun k =>
      .ok { mData := (start.answer (r k).native).mData.map asciiString } := by
  rw [h.handed, List.map_map, List.length_map, List.length_range]
  apply List.map_congr_left
  intro k _
  obtain ⟨hweight, hnul⟩ := start.entry_stored (r k).native.request.itemsc
  show managedParse (replyTo _ _ k).received = _
  rw [replyTo, List.range_succ, List.map_append, List.map_singleton,
    managedPacket_received pb (r k), Native.Server.builder_packet .object hpb start ?_ u (r k).native]
  · exact managedParse_eq pb hweight hnul
  · intro q hq
    obtain ⟨i, -, rfl⟩ := List.mem_map.mp hq
    exact ⟨(r i).native, managedPacket_received pb (r i)⟩

/-- Over one pipe that is kept, a managed client reads what the native server's table of
    the start has for each of its requests. -/
theorem managed_answered (pb : Messages) (hpb : pb.Restores) {start : StoredTable}
    {u : Nat → Uninit} {r : Nat → StoredRequest7} {cfg : Pipes.Config}
    (hr : cfg.reuse = true) (ho : cfg.oneway = false)
    (hrequest : cfg.request = fun k => managedPacket (r k).request.managed)
    (hbuilder : cfg.builder = Native.Server.builder pb .object u start.table)
    {tr : List (Pipes.State × Pipes.Action)} {s : Pipes.State}
    (h : Exec (Pipes.conversation cfg) tr s) (hfull : Meets Pipes.FullReads tr) :
    s.client.delivered.map managedParse =
      (List.range s.client.delivered.length).map fun k =>
        .ok { mData := (start.answer (r k).native).mData.map asciiString } := by
  have hturn := Pipes.inTurn_of_fullReads hr ho h hfull s (by simp)
  rw [hrequest, hbuilder] at hturn
  exact parsed_of_inTurn hpb hturn

/-! ## A managed call -/

/-- Two ids with a U+0000 in each, and one type, as in `Native.nulIds`. -/
def nulIds7 : StoredRequest7 where
  request := { ids := [[0x41, 0], [0, 0x42]], types := [[0x54]], name := [0x6e] }
  weight_lt := by decide

/-- The pipe of `objectPipe`, with a managed client that asks for them. -/
def managedPipe : Pipes.Config :=
  { objectPipe with request := fun _ => managedPacket nulIds7.request.managed }

theorem managedCall_answered :
    ∃ tr s, Exec (Pipes.conversation managedPipe) tr s ∧ s.client.delivered.length = 1 ∧
      s.client.delivered.map managedParse =
        (List.range s.client.delivered.length).map fun _ =>
          .ok { mData := (Native.pairTable.answer nulIds7.native).mData.map asciiString } := by
  have hrun : ((Pipes.conversation managedPipe).runIf (fun s a => decide (Pipes.FullReads s a))
      pipeCall (Pipes.conversation managedPipe).init).map (fun s => s.client.delivered.length) =
      some 1 := by decide +kernel
  obtain ⟨s, hs, hlen⟩ := Option.map_eq_some_iff.mp hrun
  obtain ⟨tr, hexec, hmeets⟩ := Exec.of_runIf hs
  have hfull : Meets Pipes.FullReads tr := fun e he => of_decide_eq_true (hmeets e he)
  refine ⟨tr, s, hexec, hlen, ?_⟩
  exact managed_answered (u := fun _ => Native.zeroed) (r := fun _ => nulIds7)
    Native.generatedMessages Native.generatedMessages_restores rfl rfl rfl rfl hexec hfull

end IpcWin.Interop
