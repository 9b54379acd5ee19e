/-
  IpcWin.SharedMem.Client

  The client of shared memory mode: `init_mem`, `init_mem_open` and
  `makeSharedMemoryRequest` (`NativeClient/NativeClient.cpp`), called again and
  again, one step for each call they make and each copy.
-/

import IpcWin.SharedMem.Server

namespace IpcWin.SharedMem

open IpcWin.Lib IpcWin.Wire

/-- Where the client is. -/
inductive ClientPc where
  /-- with `-r`, once: `init_mem(3000*kb)` -/
  | startCreateSize
  | startCreateData
  /-- with `-r`, once: `init_mem_open` -/
  | startOpenSize
  | startOpenData
  /-- the builder `b` -/
  | build
  /-- `init_mem(rmessageSize)` -/
  | createSize
  | createData
  | mapRequestSize
  | mapRequestData
  /-- `memcpy(rsizeMapView,&rmessageSize,sizeof(long))` -/
  | writeSize
  /-- `memcpy(rdataView,rdata,rmessageSize)` -/
  | writeData
  | createMade
  | setMade
  /-- the loop around `OpenEvent(.., "ServerReadRequestEvent")` -/
  | openRead
  | waitRead
  /-- the loop around `OpenEvent(.., "ServerMadeResponse")` -/
  | openResponse
  | waitResponse
  /-- `init_mem_open` -/
  | openSize
  | openData
  | mapSize
  /-- `packet = *(long*) sizeMapView` -/
  | readSize
  | mapData
  /-- `memcpy_s(msg,packet, dataView ,packet)` -/
  | readData
  | createReadResponse
  | setReadResponse
  /-- the builder `br` is handed the reply -/
  | deliver
deriving DecidableEq, Repr

/-- The client's globals and locals; `mapped` lists the bytes of all views so far, of
    which none is ever unmapped, and `handed` the arguments of every call of the
    response builder. -/
structure Client where
  pc : ClientPc
  crashed : Bool
  rsizeMap : Bool
  rdataMap : Bool
  sizeMap : Bool
  dataMap : Bool
  rsizeMapView : Bool
  rdataView : Bool
  sizeMapView : Bool
  dataView : Bool
  mapped : List Nat
  rdata : Packet
  packet : Word
  data : List Byte
  handed : List Received
deriving DecidableEq, Repr

def Client.start (cfg : Config) : Client :=
  { pc := if cfg.clientReuse then .startCreateSize else .build
    crashed := false
    rsizeMap := false, rdataMap := false, sizeMap := false, dataMap := false
    rsizeMapView := false, rdataView := false, sizeMapView := false, dataView := false
    mapped := []
    rdata := .empty, packet := 0, data := [], handed := [] }

namespace Client

/-- A copy through a `NULL` view ends the program. -/
def crash (c : Client) : Client := { c with crashed := true }

/-- The next request is built. -/
def build (cfg : Config) (c : Client) : Client :=
  { c with
    pc := if cfg.clientReuse then .mapRequestSize else .createSize
    rdata := cfg.request c.handed.length }

/-- The wait for a response is over: `init_mem_open` is called unless the handles
    are kept. -/
def released (cfg : Config) (c : Client) : Client :=
  { c with
    pc := if !cfg.clientReuse || !c.dataMap || !c.sizeMap then .openSize else .mapSize }

/-- `makeSharedMemoryRequest` and the start-up before it, one call or copy at a time. -/
def step (cfg : Config) (c : Client) (k : Kernel) : Option (Client × Kernel) :=
  if c.crashed then none else
  match c.pc with
  | .startCreateSize =>
      let sec := createFileMapping 4 k.sizeOfDataRequest
      some ({ c with pc := .startCreateData, rsizeMap := sec.isSome },
        { k with sizeOfDataRequest := sec })
  | .startCreateData =>
      let sec := createFileMapping (3000 * 1024) k.clientMessageData
      some ({ c with pc := .startOpenSize, rdataMap := sec.isSome },
        { k with clientMessageData := sec })
  | .startOpenSize =>
      some ({ c with pc := .startOpenData, sizeMap := k.sizeOfData.isSome }, k)
  | .startOpenData =>
      some ({ c with pc := .build, dataMap := k.serverMessageData.isSome }, k)
  | .build => some (c.build cfg, k)
  | .createSize =>
      let sec := createFileMapping 4 k.sizeOfDataRequest
      some ({ c with pc := .createData, rsizeMap := sec.isSome },
        { k with sizeOfDataRequest := sec })
  | .createData =>
      let sec := createFileMapping c.rdata.bytes.length k.clientMessageData
      some ({ c with pc := .mapRequestSize, rdataMap := sec.isSome },
        { k with clientMessageData := sec })
  | .mapRequestSize =>
      let view := mapViewOfFile cfg.clientSpace c.mapped c.rsizeMap k.sizeOfDataRequest 4
      some ({ c with
        pc := .mapRequestData, rsizeMapView := view.isSome
        mapped := c.mapped ++ view.toList }, k)
  | .mapRequestData =>
      let view := mapViewOfFile cfg.clientSpace c.mapped c.rdataMap k.clientMessageData
        c.rdata.bytes.length
      some ({ c with
        pc := .writeSize, rdataView := view.isSome
        mapped := c.mapped ++ view.toList }, k)
  | .writeSize =>
      match copyTo c.rsizeMapView k.sizeOfDataRequest (intBytes c.rdata.size) with
      | none => some (c.crash, k)
      | some sec => some ({ c with pc := .writeData }, { k with sizeOfDataRequest := sec })
  | .writeData =>
      match copyTo c.rdataView k.clientMessageData c.rdata.bytes with
      | none => some (c.crash, k)
      | some sec => some ({ c with pc := .createMade }, { k with clientMessageData := sec })
  | .createMade =>
      -- an auto-reset event, unless there already is one
      some ({ c with pc := .setMade },
        { k with clientMadeRequestEvent := createEvent false k.clientMadeRequestEvent })
  | .setMade =>
      some ({ c with pc := .openRead },
        { k with clientMadeRequestEvent := setEvent k.clientMadeRequestEvent })
  | .openRead =>
      -- an attempt that fails is made again
      if k.serverReadRequestEvent.isSome then some ({ c with pc := .waitRead }, k) else none
  | .waitRead =>
      if signalled k.serverReadRequestEvent then
        some ({ c with pc := .openResponse },
          { k with serverReadRequestEvent := waitEvent k.serverReadRequestEvent })
      else none
  | .openResponse =>
      if k.serverMadeResponse.isSome then some ({ c with pc := .waitResponse }, k) else none
  | .waitResponse =>
      if signalled k.serverMadeResponse then
        some (c.released cfg, { k with serverMadeResponse := waitEvent k.serverMadeResponse })
      else none
  | .openSize => some ({ c with pc := .openData, sizeMap := k.sizeOfData.isSome }, k)
  | .openData => some ({ c with pc := .mapSize, dataMap := k.serverMessageData.isSome }, k)
  | .mapSize =>
      let view := mapViewOfFile cfg.clientSpace c.mapped c.sizeMap k.sizeOfData 4
      some ({ c with
        pc := .readSize, sizeMapView := view.isSome
        mapped := c.mapped ++ view.toList }, k)
  | .readSize =>
      match copyFrom c.sizeMapView k.sizeOfData 4 with
      | none => some (c.crash, k)
      | some bs => some ({ c with pc := .mapData, packet := bytesInt bs }, k)
  | .mapData =>
      let view := mapViewOfFile cfg.clientSpace c.mapped c.dataMap k.serverMessageData
        c.packet.toNat
      some ({ c with
        pc := .readData, dataView := view.isSome
        mapped := c.mapped ++ view.toList }, k)
  | .readData =>
      match copyFrom c.dataView k.serverMessageData c.packet.toNat with
      | none => some (c.crash, k)
      | some bs => some ({ c with pc := .createReadResponse, data := bs }, k)
  | .createReadResponse =>
      -- a manual-reset event, which nothing resets
      some ({ c with pc := .setReadResponse },
        { k with clientReadResponseEvent := createEvent true k.clientReadResponseEvent })
  | .setReadResponse =>
      some ({ c with pc := .deliver },
        { k with clientReadResponseEvent := setEvent k.clientReadResponseEvent })
  | .deliver =>
      some ({ c with pc := .build, handed := c.handed ++ [(c.packet, some c.data)] }, k)

end Client

end IpcWin.SharedMem
