/-
  IpcWin.Managed.Objects

  The managed `custom_request` and `custom_response`
  (`ManagedCommon/objects.cs`): `getSize`, `toArray` and `fromArray` as the
  code computes them.  Sizes are counted in UTF-16 units, terminators are the
  zeros that a new array is filled with, and the name is cut out by its length.
-/

import IpcWin.Managed.Runtime

namespace IpcWin.Managed

open IpcWin.Lib IpcWin.Wire

/-! ## custom_request -/

/-- `class custom_request`, its strings non-null. -/
structure CustomRequest where
  mIds : List Str
  mTypes : List Str
  mName : Str
  idss : Word
  typess : Word
deriving DecidableEq, Repr

/-- A newly constructed request; C# sets its two `int` fields to zero. -/
def CustomRequest.new : CustomRequest :=
  { mIds := [], mTypes := [], mName := [], idss := 0, typess := 0 }

/-- The size loop of a string list: `size += it.Length + 1`. -/
def stringsSize : List Str → Word → Word
  | [], size => size
  | it :: ss, size => stringsSize ss (size + (BitVec.ofNat 32 it.length + 1))

/-- `custom_request.getSize`: returns the size and sets the cached sizes. -/
def CustomRequest.getSize (r : CustomRequest) : Word × CustomRequest :=
  let idss := stringsSize r.mIds 0
  let size := 0 + idss
  let typess := stringsSize r.mTypes 0
  let size := size + typess
  let size := size + (BitVec.ofNat 32 r.mName.length + 1)
  let size := size + (4 * 3 + 2 * 4)
  (size, { r with idss := idss, typess := typess })

/-- `custom_request.fromArray`: the object afterwards. -/
def CustomRequest.fromArray (d : CustomRequest) (buffer : ByteArr) :
    Except Exn CustomRequest := do
  let pointer := 0
  let idss ← toInt32 buffer 0
  let pointer := pointer + 4
  let cids ← toInt32 buffer pointer
  let pointer := pointer + 4
  let typess ← toInt32 buffer pointer
  let pointer := pointer + 4
  let ctypess ← toInt32 buffer pointer
  let pointer := pointer + 4
  let ns ← toInt32 buffer pointer
  let pointer := pointer + 4
  let (mIds, pointer) ← readStrings buffer (loopCount cids) d.mIds pointer
  let (mTypes, pointer) ← readStrings buffer (loopCount ctypess) d.mTypes pointer
  let mName ← getString buffer pointer (ns - 1)
  pure { mIds := mIds, mTypes := mTypes, mName := mName, idss := idss, typess := typess }

/-- `custom_request.toArray`: the array that the `out` parameter is set to. -/
def CustomRequest.toArray (r : CustomRequest) (size : Word) : Except Exn ByteArr := do
  let pointer := 0
  let buffer ← newBytes size
  let buffer ← arrayCopy (intBytes r.idss) buffer pointer
  let pointer := pointer + 4
  let cids := BitVec.ofNat 32 r.mIds.length
  let buffer ← arrayCopy (intBytes cids) buffer pointer
  let pointer := pointer + 4
  let buffer ← arrayCopy (intBytes r.typess) buffer pointer
  let pointer := pointer + 4
  let ctypes := BitVec.ofNat 32 r.mTypes.length
  let buffer ← arrayCopy (intBytes ctypes) buffer pointer
  let pointer := pointer + 4
  let sn := asciiBytes r.mName
  let ns := BitVec.ofNat 32 sn.length + 1
  let buffer ← arrayCopy (intBytes ns) buffer pointer
  let pointer := pointer + 4
  let (buffer, pointer) ← putStrings r.mIds buffer pointer
  let (buffer, pointer) ← putStrings r.mTypes buffer pointer
  arrayCopy sn buffer pointer

/-! ## custom_response -/

/-- `class custom_response`; the managed side only ever decodes it. -/
structure CustomResponse where
  mData : List Str
deriving DecidableEq, Repr

/-- A newly constructed response. -/
def CustomResponse.new : CustomResponse := { mData := [] }

/-- `custom_response.fromArray`: the object afterwards. -/
def CustomResponse.fromArray (d : CustomResponse) (buffer : ByteArr) :
    Except Exn CustomResponse := do
  let pointer := 0
  let size ← toInt32 buffer 0
  let pointer := pointer + 4
  let (mData, _pointer) ← readStrings buffer (loopCount size) d.mData pointer
  pure { mData := mData }

end IpcWin.Managed
