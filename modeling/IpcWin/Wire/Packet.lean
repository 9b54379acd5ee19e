/-
  IpcWin.Wire.Packet

  A message as both transports carry it: bytes with their number in a `long`.
-/

import IpcWin.Wire.Format

namespace IpcWin.Wire

open IpcWin.Lib

/-- A message in the memory of a Win32 process: its length is a `long`. -/
@[ext] structure Packet where
  bytes : List Byte
  length_lt : bytes.length < 2 ^ 31
deriving Repr

instance : DecidableEq Packet := fun _ _ => decidable_of_iff _ Packet.ext_iff.symm

/-- The packet that nothing has been put into. -/
def Packet.empty : Packet := { bytes := [], length_lt := by decide }

/-- A packet of one byte. -/
def Packet.ofByte (b : Byte) : Packet :=
  { bytes := [b], length_lt := by rw [List.length_singleton]; decide }

/-- The length of a packet as it is sent. -/
def Packet.size (m : Packet) : Word := BitVec.ofNat 32 m.bytes.length

theorem Packet.size_toNat (m : Packet) : m.size.toNat = m.bytes.length :=
  toNat_ofNat_of_lt m.length_lt

/-- A message as a builder is handed it: the `long`, and the block that the
    pointer leads to, `none` for `NULL`. -/
abbrev Received := Word × Option (List Byte)

/-- A packet received whole. -/
def Packet.received (m : Packet) : Received := (m.size, some m.bytes)

/-- The replies of a builder, as a function of all it has been handed, to a
    sequence of requests that it is handed whole and in turn. -/
def replyTo (request : Nat → Packet) (builder : List Received → Packet) (k : Nat) : Packet :=
  builder ((List.range (k + 1)).map fun i => (request i).received)

/-- One more item of a list that is given by its indices. -/
theorem snoc_eq_map_range {β : Type} {l : List β} {f : Nat → β}
    (h : l = (List.range l.length).map f) {x : β} (hx : x = f l.length) :
    l ++ [x] = (List.range (l ++ [x]).length).map f := by
  rw [List.length_append, List.length_singleton, List.range_succ, List.map_append, ← h, hx]
  rfl

theorem map_range_prefix {β : Type} (f : Nat → β) {m n : Nat} (h : m ≤ n) :
    (List.range m).map f <+: (List.range n).map f := by
  have htake : (List.range n).take m = List.range m := by
    rw [List.take_range, Nat.min_eq_left h]
  rw [← htake]
  exact (List.take_prefix m _).map f

end IpcWin.Wire
