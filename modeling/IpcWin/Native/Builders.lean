/-
  IpcWin.Native.Builders

  The message builders of object mode: the client's `req_obj` and `resp_obj`
  (`NativeClient.cpp`) and the server's `resp_obj` (`NativeServer.cpp`), with
  the reply table it looks up and, by `operator[]`, extends.
-/

import IpcWin.Lib.Tables
import IpcWin.Native.Codec

namespace IpcWin.Native

open IpcWin.Lib IpcWin.Wire

namespace Server

/-- `std::map<int,custom_response> reqRespObj`. -/
abbrev RespTable := Table Word CustomResponse

/-- An entry that is added by a subscript. -/
def noItems (_ : Word) : CustomResponse := CustomResponse.new

/-- The server's `resp_obj`: the reply packet and the table afterwards.  The
    length `requestPacket` that the caller passes is not used; `request` is what
    is readable behind the pointer, `i` and `t` what the new object holds. -/
def respObj (junk : Nat → Byte) (i t : Word) (table : RespTable) (_requestPacket : Word)
    (request : List Byte) : Except Fault ((Word × List Byte) × RespTable) := do
  let (cr, _sizeOfReq) ← (CustomRequest.new i t).fromArray request
  let itemsc := BitVec.ofNat 32 cr.mTypes.length * BitVec.ofNat 32 cr.mIds.length
  let (cresp, table) := table.lookup noItems itemsc
  let packetSize := cresp.getSize
  let data ← cresp.encode junk
  pure ((packetSize, data), table)

end Server

namespace Client

/-- The client's `resp_obj`: the local object that the reply is decoded into.
    The length `size` that the caller passes is not used. -/
def respObj (_size : Word) (respData : List Byte) : Except Fault CustomResponse := do
  let (r, _readS) ← CustomResponse.new.fromArray respData
  pure r

end Client

end IpcWin.Native
