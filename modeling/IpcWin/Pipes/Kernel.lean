/-
  IpcWin.Pipes.Kernel

  The named pipe as the operating system keeps it: one instance with a queue of
  bytes in each direction, and what `ReadFile` and `WriteFile` do to a queue.

  A call that blocks is several steps.  `ReadFile` takes the bytes it is given
  piece by piece and then returns; `WriteFile` queues its bytes piece by piece
  as far as the queue has room.  The instance is the one that the server created
  last: a client handle from an earlier instance finds the state of this one
  different from `connected`.
-/

import IpcWin.Lib.Channel
import IpcWin.Wire.Packet

namespace IpcWin.Pipes

open IpcWin.Lib IpcWin.Wire

/-! ## Frames -/

/-- What goes over the pipe for a packet: the length word and the payload. -/
def frame (m : Packet) : List Byte := intBytes m.size ++ m.bytes

theorem frame_length (m : Packet) : (frame m).length = 4 + m.bytes.length := by
  rw [frame, List.length_append, intBytes_length]

theorem frame_ne_nil (m : Packet) : frame m ≠ [] := by
  intro h
  have hlen := frame_length m
  rw [h, List.length_nil] at hlen
  omega

/-! ## The instance -/

/-- What state the server's pipe instance is in. -/
inductive PipeState where
  /-- there is no instance -/
  | absent
  /-- created, and not yet opened by a client -/
  | listening
  /-- a client has it open -/
  | connected
  /-- the client has closed its handle -/
  | closing
  /-- disconnected by the server, and not yet closed -/
  | disconnected
deriving DecidableEq, Repr

/-- The instance with its two byte queues. -/
structure Pipe where
  state : PipeState
  toServer : Channel Byte
  toClient : Channel Byte
deriving DecidableEq, Repr

/-- Before the server creates its first instance. -/
def Pipe.absent : Pipe := { state := .absent, toServer := .empty, toClient := .empty }

/-- `CreateNamedPipe`: a new instance, which a client can open from now on. -/
def Pipe.create : Pipe := { state := .listening, toServer := .empty, toClient := .empty }

/-- `DisconnectNamedPipe` discards what is still queued. -/
def Pipe.disconnect (p : Pipe) : Pipe :=
  { state := .disconnected
    toServer := { p.toServer with queue := [] }
    toClient := { p.toClient with queue := [] } }

/-- Neither end finds the other one at the pipe any more. -/
def Pipe.gone (p : Pipe) : Bool := p.state != .connected

/-! ## ReadFile and WriteFile -/

/-- How a party moves: a step of its own or a call that returns at once, or a
    piece or the return of a blocking transfer. -/
inductive Io where
  | run
  | take (j : Nat)
  | ret
  | put (j : Nat)
deriving DecidableEq, Repr

/-- A piece of a `ReadFile` for `m` bytes that has taken `got`: some of the bytes
    that are queued, never more than are wanted. -/
def readPiece (m : Nat) (got : List Byte) (ch : Channel Byte) (j : Nat) :
    Option (List Byte × Channel Byte) :=
  if 1 ≤ j ∧ j ≤ ch.queue.length ∧ got.length + j ≤ m then
    some (got ++ ch.queue.take j, ch.take j)
  else none

/-- `ReadFile` for `m` bytes can return: the buffer is full, or the call returns
    short with at least one byte, or the other end has gone and nothing is left. -/
def readReturns (shortReads gone : Bool) (m : Nat) (got : List Byte) (ch : Channel Byte) : Bool :=
  got.length == m || (shortReads && !got.isEmpty) || (gone && ch.queue.isEmpty)

/-- A piece of a `WriteFile` that has `pending` left, into a queue of `room` bytes. -/
def writePiece (room : Nat) (pending : List Byte) (ch : Channel Byte) (j : Nat) :
    Option (List Byte × Channel Byte) :=
  if 1 ≤ j ∧ j ≤ pending.length ∧ ch.queue.length + j ≤ room then
    some (pending.drop j, ch.put (pending.take j))
  else none

/-- `WriteFile` can return: all is queued, or the other end has gone. -/
def writeReturns (gone : Bool) (pending : List Byte) : Bool := pending.isEmpty || gone

/-- The value of a `long` that was zero before `got` was read into it: what a
    short read leaves out stays zero. -/
def sizeWord (got : List Byte) : Word := bytesInt (got ++ List.replicate (4 - got.length) 0)

/-- A block after `got` was read into it: the rest of it stays as it was. -/
def readInto (got block : List Byte) : List Byte := got ++ block.drop got.length

theorem readPiece_eq_some {m j : Nat} {got got' : List Byte} {ch ch' : Channel Byte} :
    readPiece m got ch j = some (got', ch') ↔
      1 ≤ j ∧ j ≤ ch.queue.length ∧ got.length + j ≤ m ∧
        got' = got ++ ch.queue.take j ∧ ch' = ch.take j := by
  unfold readPiece
  split_ifs with h
  · simp only [Option.some.injEq, Prod.mk.injEq, eq_comm (a := got'), eq_comm (a := ch')]
    tauto
  · simp only [false_iff]
    tauto

theorem writePiece_eq_some {room j : Nat} {pending pending' : List Byte} {ch ch' : Channel Byte} :
    writePiece room pending ch j = some (pending', ch') ↔
      1 ≤ j ∧ j ≤ pending.length ∧ ch.queue.length + j ≤ room ∧
        pending' = pending.drop j ∧ ch' = ch.put (pending.take j) := by
  unfold writePiece
  split_ifs with h
  · simp only [Option.some.injEq, Prod.mk.injEq, eq_comm (a := pending'), eq_comm (a := ch')]
    tauto
  · simp only [false_iff]
    tauto

/-- A `ReadFile` that can neither take a byte nor return waits for one. -/
theorem read_blocked {shortReads gone : Bool} {m : Nat} {got : List Byte} {ch : Channel Byte}
    (hle : got.length ≤ m) (htake : readPiece m got ch 1 = none)
    (hret : ¬ readReturns shortReads gone m got ch = true) :
    ch.queue = [] ∧ got.length < m := by
  have hne : got.length ≠ m := by
    intro hfull
    exact hret (by simp [readReturns, hfull])
  have hlt : got.length < m := by omega
  refine ⟨?_, hlt⟩
  by_contra hqueue
  have hpos := List.length_pos_of_ne_nil hqueue
  rw [readPiece, if_pos ⟨Nat.le_refl 1, hpos, hlt⟩] at htake
  cases htake

/-- A `WriteFile` that can neither queue a byte nor return waits for room. -/
theorem write_blocked {gone : Bool} {room : Nat} {pending : List Byte} {ch : Channel Byte}
    (hroom : 0 < room) (hput : writePiece room pending ch 1 = none)
    (hret : ¬ writeReturns gone pending = true) : pending ≠ [] ∧ ch.queue ≠ [] := by
  have hpending : pending ≠ [] := by
    intro hnil
    exact hret (by simp [writeReturns, hnil])
  refine ⟨hpending, ?_⟩
  intro hqueue
  have hpos := List.length_pos_of_ne_nil hpending
  rw [writePiece, if_pos ⟨Nat.le_refl 1, hpos, by rw [hqueue]; exact hroom⟩] at hput
  cases hput

/-- A length word that was read whole. -/
theorem sizeWord_intBytes (x : Word) : sizeWord (intBytes x) = x := by
  simp [sizeWord]

/-- A block that was filled whole. -/
theorem readInto_full {got block : List Byte} (h : got.length = block.length) :
    readInto got block = got := by
  rw [readInto, h, List.drop_length, List.append_nil]

end IpcWin.Pipes
