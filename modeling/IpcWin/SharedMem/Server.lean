/-
  IpcWin.SharedMem.Server

  The server of shared memory mode: `init_mem`, `init_mem_read` and
  `replySharedMem` (`NativeServer/NativeServer.cpp`), called again and again, one
  step for each call they make and each copy.
-/

import IpcWin.SharedMem.Kernel

namespace IpcWin.SharedMem

open IpcWin.Lib IpcWin.Wire

/-- What a conversation is run with: the `-r` flag of each program, the client's
    requests in turn, the server's builder as a function of all it has been handed so
    far, and the address space of each program. -/
structure Config where
  clientReuse : Bool
  serverReuse : Bool
  request : Nat → Packet
  builder : List Received → Packet
  clientSpace : Space := .endless
  serverSpace : Space := .endless

/-- The builder's reply to the `k`-th request. -/
def Config.reply (cfg : Config) : Nat → Packet := replyTo cfg.request cfg.builder

/-- Where the server is. -/
inductive ServerPc where
  /-- with `-r`, once: `init_mem_read` -/
  | startOpenSize
  | startOpenData
  /-- with `-r`, once: `init_mem(5000*kb)` -/
  | startCreateSize
  | startCreateData
  /-- the loop around `OpenEvent(.., "ClientMadeRequestEvent")` -/
  | openMade
  | waitMade
  /-- `init_mem_read` -/
  | openSize
  | openData
  | mapRequestSize
  /-- `requestPacket = *(long*) requestSizeMapView` -/
  | readSize
  | mapRequestData
  /-- `memcpy(request,requestDataView,requestPacket)` -/
  | readData
  | createRead
  | setRead
  /-- the builder `b` -/
  | build
  /-- `init_mem(packetSize)` -/
  | createSize
  | createData
  | mapSize
  | mapData
  /-- `memcpy(sizeMapView,&packetSize,sizeof(long))` -/
  | writeSize
  /-- `memcpy(dataView,resp_data,packetSize)` -/
  | writeData
  | createResponse
  | setResponse
  /-- the loop around `OpenEvent(.., "ClientReadResponseEvent")` -/
  | openReadResponse
  | waitReadResponse
deriving DecidableEq, Repr

/-- The server's globals and locals.  Of a handle or a view only `NULL` or not
    matters; `mapped` lists the bytes of all views so far, of which none is ever
    unmapped, and `received` the arguments of every call of the builder. -/
structure Server where
  pc : ServerPc
  crashed : Bool
  requestSizeMap : Bool
  requestDataMap : Bool
  sizeMap : Bool
  dataMap : Bool
  requestSizeMapView : Bool
  requestDataView : Bool
  sizeMapView : Bool
  dataView : Bool
  mapped : List Nat
  requestPacket : Word
  request : List Byte
  response : Packet
  received : List Received
deriving DecidableEq, Repr

def Server.start (cfg : Config) : Server :=
  { pc := if cfg.serverReuse then .startOpenSize else .openMade
    crashed := false
    requestSizeMap := false, requestDataMap := false, sizeMap := false, dataMap := false
    requestSizeMapView := false, requestDataView := false, sizeMapView := false
    dataView := false, mapped := []
    requestPacket := 0, request := [], response := .empty
    received := [] }

namespace Server

/-- A copy through a `NULL` view ends the program. -/
def crash (s : Server) : Server := { s with crashed := true }

/-- The wait for a request is over: `init_mem_read` is called unless the handles
    are kept.  The code asks for `requestDataMap`, not for its absence. -/
def released (cfg : Config) (s : Server) : Server :=
  { s with
    pc := if !cfg.serverReuse || !s.requestSizeMap || s.requestDataMap then .openSize
      else .mapRequestSize }

/-- The reply is built. -/
def build (cfg : Config) (s : Server) : Server :=
  let received := s.received ++ [(s.requestPacket, some s.request)]
  { s with
    pc := if cfg.serverReuse then .mapSize else .createSize
    received := received, response := cfg.builder received }

/-- `replySharedMem` and the start-up before it, one call or copy at a time. -/
def step (cfg : Config) (s : Server) (k : Kernel) : Option (Server × Kernel) :=
  if s.crashed then none else
  match s.pc with
  | .startOpenSize =>
      some ({ s with pc := .startOpenData, requestSizeMap := k.sizeOfDataRequest.isSome }, k)
  | .startOpenData =>
      some ({ s with pc := .startCreateSize, requestDataMap := k.clientMessageData.isSome }, k)
  | .startCreateSize =>
      let sec := createFileMapping 4 k.sizeOfData
      some ({ s with pc := .startCreateData, sizeMap := sec.isSome }, { k with sizeOfData := sec })
  | .startCreateData =>
      let sec := createFileMapping (5000 * 1024) k.serverMessageData
      some ({ s with pc := .openMade, dataMap := sec.isSome }, { k with serverMessageData := sec })
  | .openMade =>
      if k.clientMadeRequestEvent.isSome then some ({ s with pc := .waitMade }, k) else none
  | .waitMade =>
      -- `WaitForSingleObject(.., INFINITE)`: no step while the event is not signalled
      if signalled k.clientMadeRequestEvent then
        some (s.released cfg,
          { k with clientMadeRequestEvent := waitEvent k.clientMadeRequestEvent })
      else none
  | .openSize =>
      some ({ s with pc := .openData, requestSizeMap := k.sizeOfDataRequest.isSome }, k)
  | .openData =>
      some ({ s with pc := .mapRequestSize, requestDataMap := k.clientMessageData.isSome }, k)
  | .mapRequestSize =>
      let view := mapViewOfFile cfg.serverSpace s.mapped s.requestSizeMap k.sizeOfDataRequest 4
      some ({ s with
        pc := .readSize, requestSizeMapView := view.isSome
        mapped := s.mapped ++ view.toList }, k)
  | .readSize =>
      match copyFrom s.requestSizeMapView k.sizeOfDataRequest 4 with
      | none => some (s.crash, k)
      | some bs => some ({ s with pc := .mapRequestData, requestPacket := bytesInt bs }, k)
  | .mapRequestData =>
      let view := mapViewOfFile cfg.serverSpace s.mapped s.requestDataMap k.clientMessageData
        s.requestPacket.toNat
      some ({ s with
        pc := .readData, requestDataView := view.isSome
        mapped := s.mapped ++ view.toList }, k)
  | .readData =>
      match copyFrom s.requestDataView k.clientMessageData s.requestPacket.toNat with
      | none => some (s.crash, k)
      | some bs => some ({ s with pc := .createRead, request := bs }, k)
  | .createRead =>
      -- an auto-reset event, unless there already is one
      some ({ s with pc := .setRead },
        { k with serverReadRequestEvent := createEvent false k.serverReadRequestEvent })
  | .setRead =>
      some ({ s with pc := .build },
        { k with serverReadRequestEvent := setEvent k.serverReadRequestEvent })
  | .build => some (s.build cfg, k)
  | .createSize =>
      let sec := createFileMapping 4 k.sizeOfData
      some ({ s with pc := .createData, sizeMap := sec.isSome }, { k with sizeOfData := sec })
  | .createData =>
      let sec := createFileMapping s.response.bytes.length k.serverMessageData
      some ({ s with pc := .mapSize, dataMap := sec.isSome }, { k with serverMessageData := sec })
  | .mapSize =>
      let view := mapViewOfFile cfg.serverSpace s.mapped s.sizeMap k.sizeOfData 4
      some ({ s with
        pc := .mapData, sizeMapView := view.isSome
        mapped := s.mapped ++ view.toList }, k)
  | .mapData =>
      let view := mapViewOfFile cfg.serverSpace s.mapped s.dataMap k.serverMessageData
        s.response.bytes.length
      some ({ s with
        pc := .writeSize, dataView := view.isSome
        mapped := s.mapped ++ view.toList }, k)
  | .writeSize =>
      match copyTo s.sizeMapView k.sizeOfData (intBytes s.response.size) with
      | none => some (s.crash, k)
      | some sec => some ({ s with pc := .writeData }, { k with sizeOfData := sec })
  | .writeData =>
      match copyTo s.dataView k.serverMessageData s.response.bytes with
      | none => some (s.crash, k)
      | some sec => some ({ s with pc := .createResponse }, { k with serverMessageData := sec })
  | .createResponse =>
      -- a manual-reset event, which nothing resets
      some ({ s with pc := .setResponse },
        { k with serverMadeResponse := createEvent true k.serverMadeResponse })
  | .setResponse =>
      some ({ s with pc := .openReadResponse },
        { k with serverMadeResponse := setEvent k.serverMadeResponse })
  | .openReadResponse =>
      if k.clientReadResponseEvent.isSome then some ({ s with pc := .waitReadResponse }, k)
      else none
  | .waitReadResponse =>
      if signalled k.clientReadResponseEvent then
        some ({ s with pc := .openMade },
          { k with clientReadResponseEvent := waitEvent k.clientReadResponseEvent })
      else none

end Server

end IpcWin.SharedMem
