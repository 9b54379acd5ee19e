/-
  IpcWin.Native.Objects

  The native `custom_request` and `custom_response` (`entities/objects.h`,
  `entities/objects.cpp`): `getSize`, `toArray` and `fromArray` as the code
  computes them, with the sizes cached in the object, the decoding appended to
  what the object holds, and the name copied into a block that is dropped.
-/

import IpcWin.Native.Memory

namespace IpcWin.Native

open IpcWin.Lib IpcWin.Wire

/-! ## custom_request -/

/-- `class custom_request`. -/
structure CustomRequest where
  mIds : List Str
  mTypes : List Str
  mName : Str
  idss : Word
  typess : Word
deriving DecidableEq, Repr

/-- A newly constructed request: the class has no constructor, so its two sizes
    hold whatever was in their place. -/
def CustomRequest.new (idss typess : Word) : CustomRequest :=
  { mIds := [], mTypes := [], mName := [], idss := idss, typess := typess }

/-- The size loop of a string list: `size += (*it).length()+1`. -/
def stringsSize : List Str → Word → Word
  | [], size => size
  | s :: ss, size => stringsSize ss (size + BitVec.ofNat 32 (s.length + 1))

/-- `custom_request::getSize`: returns the size and sets the cached sizes. -/
def CustomRequest.getSize (r : CustomRequest) : Word × CustomRequest :=
  let idss := stringsSize r.mIds 0
  let typess := stringsSize r.mTypes 0
  let size := 0 + idss + typess + BitVec.ofNat 32 (r.mName.length + 1) + (4 * 3 + 2 * 4)
  (size, { r with idss := idss, typess := typess })

/-- `custom_request::fromArray`: the object afterwards and `*sizeP`. -/
def CustomRequest.fromArray (d : CustomRequest) (buffer : List Byte) :
    Except Fault (CustomRequest × Word) := do
  let init := buffer
  let idss ← readInt buffer
  let buffer := buffer.drop 4
  let cids ← readInt buffer
  let buffer := buffer.drop 4
  let typess ← readInt buffer
  let buffer := buffer.drop 4
  let ctypes ← readInt buffer
  let buffer := buffer.drop 4
  let ns ← readInt buffer
  let buffer := buffer.drop 4
  let (mIds, buffer) ← readStrings (loopCount cids) d.mIds buffer
  let (mTypes, buffer) ← readStrings (loopCount ctypes) d.mTypes buffer
  -- the name goes into a fresh block `n` that no member ever points to
  let _n ← readBlock buffer ns
  let buffer := buffer.drop ns.toNat
  pure ({ d with mIds := mIds, mTypes := mTypes, idss := idss, typess := typess },
    BitVec.ofNat 32 (init.length - buffer.length))

/-- `custom_request::toArray`; `size` is only subtracted from the local pointer
    after the last write. -/
def CustomRequest.toArray (r : CustomRequest) (buffer : List Byte) (_size : Word) :
    Except Fault OutBuf := do
  let o := OutBuf.start buffer
  let o ← o.put (intBytes r.idss)
  let cids := BitVec.ofNat 32 r.mIds.length
  let o ← o.put (intBytes cids)
  let o ← o.put (intBytes r.typess)
  let ctypes := BitVec.ofNat 32 r.mTypes.length
  let o ← o.put (intBytes ctypes)
  let ns := BitVec.ofNat 32 (r.mName.length + 1)
  let o ← o.put (intBytes ns)
  let o ← o.putStrings r.mIds
  let o ← o.putStrings r.mTypes
  o.put (r.mName ++ [nul])

/-! ## custom_response -/

/-- `class custom_response`. -/
structure CustomResponse where
  mData : List Str
deriving DecidableEq, Repr

/-- A newly constructed response. -/
def CustomResponse.new : CustomResponse := { mData := [] }

/-- `custom_response::getSize`. -/
def CustomResponse.getSize (r : CustomResponse) : Word := stringsSize r.mData (0 + 4)

/-- `custom_response::toArray`. -/
def CustomResponse.toArray (r : CustomResponse) (buffer : List Byte) (_size : Word) :
    Except Fault OutBuf := do
  let o := OutBuf.start buffer
  let ic := BitVec.ofNat 32 r.mData.length
  let o ← o.put (intBytes ic)
  o.putStrings r.mData

/-- `custom_response::fromArray`: the object afterwards and `*sizeP`. -/
def CustomResponse.fromArray (d : CustomResponse) (buffer : List Byte) :
    Except Fault (CustomResponse × Word) := do
  let init := buffer
  let size ← readInt buffer
  let buffer := buffer.drop 4
  let (mData, buffer) ← readStrings (loopCount size) d.mData buffer
  pure ({ mData := mData }, BitVec.ofNat 32 (init.length - buffer.length))

/-! ## The callers' encoding sequence -/

/-- `n = r.getSize(); p = malloc(n); r.toArray(p, n);` as `req_obj` does it. -/
def CustomRequest.encode (junk : Nat → Byte) (r : CustomRequest) : Except Fault (List Byte) :=
  let (size, r') := r.getSize
  match malloc junk size with
  | none => .error .nullBuffer
  | some data => (r'.toArray data size).map OutBuf.mem

/-- `n = r.getSize(); p = malloc(n); r.toArray(p, n);` for a response, as the server's
    `resp_obj` does it. -/
def CustomResponse.encode (junk : Nat → Byte) (r : CustomResponse) : Except Fault (List Byte) :=
  let size := r.getSize
  match malloc junk size with
  | none => .error .nullBuffer
  | some data => (r.toArray data size).map OutBuf.mem

end IpcWin.Native
