/-
  IpcWin.Interop.Encoders

  The native and the managed request encoder side by side.

  A request over 7-bit characters is built as a native and as a managed object.
  Each encoder has been shown to put out the wire bytes of the strings it holds;
  what is left is that the two objects hold the same bytes.
-/

import IpcWin.Native.Codec
import IpcWin.Managed.Codec

namespace IpcWin.Interop

open IpcWin.Lib IpcWin.Wire

/-- A 7-bit character, U+0000 included. -/
abbrev Char7 := BitVec 7

/-- A request whose text is 7-bit. -/
structure Request7 where
  ids : List (List Char7)
  types : List (List Char7)
  name : List Char7
deriving DecidableEq, Repr

/-- The text as a `std::string`: one byte a character. -/
def nativeStr (s : List Char7) : Native.Str := s.map fun c => c.zeroExtend 8

/-- The text as a C# `string`: one unit a character. -/
def managedStr (s : List Char7) : Managed.Str := s.map fun c => c.zeroExtend 16

/-- The request built as a C++ `custom_request`, its two sizes uninitialised. -/
def Request7.native (q : Request7) (idss typess : Word) : Native.CustomRequest :=
  { Native.CustomRequest.new idss typess with
    mIds := q.ids.map nativeStr, mTypes := q.types.map nativeStr, mName := nativeStr q.name }

/-- The request built as a C# `custom_request`. -/
def Request7.managed (q : Request7) : Managed.CustomRequest :=
  { Managed.CustomRequest.new with
    mIds := q.ids.map managedStr, mTypes := q.types.map managedStr, mName := managedStr q.name }

/-! ## The two objects hold the same bytes -/

/-- `Encoding.ASCII` gives a 7-bit character the byte that C++ stores for it. -/
theorem asciiByte_zeroExtend (c : Char7) :
    Managed.asciiByte (c.zeroExtend 16) = c.zeroExtend 8 := by
  have hlt := c.isLt
  have hunit : (c.zeroExtend 16).toNat = c.toNat := by
    rw [BitVec.zeroExtend_eq_setWidth, BitVec.toNat_setWidth]
    omega
  rw [Managed.asciiByte, if_pos (by omega)]
  apply BitVec.eq_of_toNat_eq
  rw [BitVec.truncate_eq_setWidth, BitVec.toNat_setWidth, hunit, BitVec.zeroExtend_eq_setWidth,
    BitVec.toNat_setWidth]

theorem asciiBytes_managedStr (s : List Char7) :
    Managed.asciiBytes (managedStr s) = nativeStr s := by
  rw [Managed.asciiBytes, managedStr, List.map_map, nativeStr]
  apply List.map_congr_left
  intro c _
  exact asciiByte_zeroExtend c

theorem map_asciiBytes_managedStr (ss : List (List Char7)) :
    (ss.map managedStr).map Managed.asciiBytes = ss.map nativeStr := by
  rw [List.map_map]
  apply List.map_congr_left
  intro s _
  exact asciiBytes_managedStr s

theorem Request7.wireLength_managed (q : Request7) (idss typess : Word) :
    q.managed.wireLength = (q.native idss typess).wireLength := by
  show requestLength _ _ _ = requestLength _ _ _
  simp only [managed, native, map_asciiBytes_managedStr, asciiBytes_managedStr]

theorem Request7.wireBytes_managed (q : Request7) (idss typess : Word) :
    q.managed.wireBytes = (q.native idss typess).wireBytes := by
  show requestBytes _ _ _ = requestBytes _ _ _
  simp only [managed, native, map_asciiBytes_managedStr, asciiBytes_managedStr]

/-- The two sizes are the same `int`, also where the length does not fit one. -/
theorem Request7.getSize_eq (q : Request7) (idss typess : Word) :
    (q.native idss typess).getSize.1 = q.managed.getSize.1 := by
  rw [Native.CustomRequest.getSize_fst, Managed.CustomRequest.getSize_fst,
    wireLength_managed q idss typess]

/-! ## The two encoders -/

/-- When the encoded size is an `int`, both `getSize` return it, and both
    `toArray` put out the same bytes: the native one into a buffer of that size
    whatever it held before, the managed one as a new array. -/
theorem Request7.encoders_agree (q : Request7) (idss typess : Word) (buffer : List Byte)
    (hfit : q.managed.wireLength < 2 ^ 31) (hbuffer : buffer.length = q.managed.wireLength) :
    (q.native idss typess).getSize.1 = q.managed.getSize.1 ∧
      q.managed.getSize.1.toInt = q.managed.wireLength ∧
      ∃ o b,
        (q.native idss typess).getSize.2.toArray buffer (q.native idss typess).getSize.1 = .ok o ∧
        q.managed.getSize.2.toArray q.managed.getSize.1 = .ok b ∧
        o.mem.length = q.managed.wireLength ∧ o.mem = b.bytes := by
  have hlen := wireLength_managed q idss typess
  obtain ⟨o, ho, hmem, -⟩ := Native.CustomRequest.toArray_getSize (q.native idss typess) buffer
    (q.native idss typess).getSize.1 (by rw [hbuffer, hlen])
  obtain ⟨b, hb, hbytes⟩ := Managed.CustomRequest.toArray_getSize hfit
  have hsize : q.managed.getSize.1.toInt = q.managed.wireLength := by
    rw [Managed.CustomRequest.getSize_fst, toInt_ofNat_of_lt hfit]
  refine ⟨getSize_eq q idss typess, hsize, o, b, ho, hb, ?_, ?_⟩
  · rw [hmem, Native.CustomRequest.wireBytes_length, hlen]
  · rw [hmem, hbytes, wireBytes_managed q idss typess]

/-- An id with an embedded U+0000 and a name. -/
def nulRequest7 : Request7 := { ids := [[0x41, 0, 0x42]], types := [], name := [0x4E] }

theorem nulRequest7_encoders_agree :
    (nulRequest7.native 5 6).getSize.1 = nulRequest7.managed.getSize.1 ∧
      nulRequest7.managed.getSize.1.toInt = nulRequest7.managed.wireLength ∧
      ∃ o b,
        (nulRequest7.native 5 6).getSize.2.toArray (List.replicate 26 0xCD)
            (nulRequest7.native 5 6).getSize.1 = .ok o ∧
        nulRequest7.managed.getSize.2.toArray nulRequest7.managed.getSize.1 = .ok b ∧
        o.mem.length = nulRequest7.managed.wireLength ∧ o.mem = b.bytes :=
  nulRequest7.encoders_agree 5 6 (List.replicate 26 0xCD) (by decide) (by decide)

end IpcWin.Interop
