/-
  IpcWin.Native.Memory

  The raw memory operations that the native translation functions are made of.

  A pointer into a packet is the list of bytes readable from it on: advancing
  the pointer drops bytes, and a read that needs a byte the list does not have
  is a read past the packet.  A buffer being filled is a list of cells with the
  position of the moving pointer and the offsets written so far.
-/

import IpcWin.Lib.Outcome
import IpcWin.Wire.Format

namespace IpcWin.Native

open IpcWin.Lib IpcWin.Wire

/-- A `std::string`: any bytes, NULs included. -/
abbrev Str := List Byte

/-- What goes wrong when a raw pointer leaves its block. -/
inductive Fault where
  /-- a byte at or behind the end of the packet is read -/
  | readPast
  /-- `memcpy` is given a negative `int`, a `size_t` of `2 ^ 31` or more -/
  | negativeLength
  /-- a byte behind the end of the buffer is written -/
  | writePast
  /-- the buffer is `NULL` -/
  | nullBuffer
deriving DecidableEq, Repr

/-! ## Reading through a pointer -/

/-- `memcpy(&x, buffer, sizeof(int));` -/
def readInt (buffer : List Byte) : Except Fault Word :=
  if 4 ≤ buffer.length then .ok (bytesInt (buffer.take 4)) else .error .readPast

/-- `std::string s((char*)buffer);` scans for the terminating NUL. -/
def readString (buffer : List Byte) : Except Fault Str :=
  match takeSegment nul buffer with
  | some s => .ok s
  | none => .error .readPast

/-- `memcpy(n, buffer, ns);` with `ns` an `int`. -/
def readBlock (buffer : List Byte) (ns : Word) : Except Fault (List Byte) :=
  if ns.toInt < 0 then .error .negativeLength
  else if ns.toNat ≤ buffer.length then .ok (buffer.take ns.toNat)
  else .error .readPast

/-- The decoding loop of a string list, run `n` times: each string is appended
    to what the list holds, and the pointer steps over its terminator. -/
def readStrings : Nat → List Str → List Byte → Except Fault (List Str × List Byte)
  | 0, acc, buffer => .ok (acc, buffer)
  | n + 1, acc, buffer => do
      let s ← readString buffer
      readStrings n (acc ++ [s]) (buffer.drop (s.length + 1))

/-- The loop appends the segments that the bytes split into. -/
theorem readStrings_eq (n : Nat) (acc : List Str) (buffer : List Byte) :
    readStrings n acc buffer =
      match takeSegments nul n buffer with
      | some (ss, r) => .ok (acc ++ ss, r)
      | none => .error .readPast := by
  induction n generalizing acc buffer with
  | zero => simp [readStrings]
  | succ n ih =>
      rw [readStrings, readString, takeSegments]
      cases takeSegment nul buffer with
      | none => rfl
      | some s =>
          simp only [Option.bind_some]
          -- the string has been appended, and the pointer is behind its NUL
          change readStrings n (acc ++ [s]) (buffer.drop (s.length + 1)) = _
          rw [ih]
          cases takeSegments nul n (buffer.drop (s.length + 1)) with
          | none => rfl
          | some q => simp

/-! ## Writing through a pointer -/

/-- A buffer being filled: its cells, the offset of the moving pointer, and the
    offsets written so far, in order. -/
structure OutBuf where
  mem : List Byte
  pos : Nat
  written : List Nat
deriving DecidableEq, Repr

/-- A buffer as `malloc` hands it out, with the pointer at its start. -/
def OutBuf.start (buffer : List Byte) : OutBuf := { mem := buffer, pos := 0, written := [] }

/-- `memcpy(buffer, src, n); buffer += n;` -/
def OutBuf.put (o : OutBuf) (src : List Byte) : Except Fault OutBuf :=
  if o.pos + src.length ≤ o.mem.length then
    .ok { mem := o.mem.take o.pos ++ src ++ o.mem.drop (o.pos + src.length)
          pos := o.pos + src.length
          written := o.written ++ List.range' o.pos src.length }
  else .error .writePast

/-- The encoding loop of a string list: `memcpy_s(buffer, l, s.c_str(), l)` with
    `l = s.length() + 1` copies the terminator too. -/
def OutBuf.putStrings : List Str → OutBuf → Except Fault OutBuf
  | [], o => .ok o
  | s :: ss, o => do
      let o ← o.put (s ++ [nul])
      putStrings ss o

/-- A buffer of `size` cells whose first bytes have been written, once each and
    in order, with the pointer behind them. -/
structure OutBuf.Filled (o : OutBuf) (out : List Byte) (size : Nat) : Prop where
  pos : o.pos = out.length
  prefix_eq : o.mem.take out.length = out
  length : o.mem.length = size
  written : o.written = List.range out.length

theorem OutBuf.filled_start (buffer : List Byte) :
    (OutBuf.start buffer).Filled [] buffer.length :=
  ⟨rfl, rfl, rfl, rfl⟩

/-- One copy extends what has been written, if it fits. -/
theorem OutBuf.Filled.put {o : OutBuf} {out : List Byte} {size : Nat}
    (h : o.Filled out size) (src : List Byte) (hfit : out.length + src.length ≤ size) :
    ∃ o', o.put src = .ok o' ∧ o'.Filled (out ++ src) size := by
  have hfit' : o.pos + src.length ≤ o.mem.length := by rw [h.pos, h.length]; exact hfit
  have htake : (o.mem.take o.pos).length = out.length := by
    rw [List.length_take, h.pos, h.length]
    omega
  refine ⟨_, if_pos hfit', ?_, ?_, ?_, ?_⟩
  · simp [h.pos]
  · rw [h.pos, h.prefix_eq, List.append_assoc, ← List.append_assoc, ← List.length_append]
    exact List.take_left
  · simp only [List.length_append, htake, List.length_drop, h.length]
    rw [h.pos]
    omega
  · have happend := List.range'_append_1 (s := 0) (m := out.length) (n := src.length)
    simp only [h.written, h.pos, List.length_append, List.range_eq_range']
    simpa using happend

theorem OutBuf.Filled.putStrings {o : OutBuf} {out : List Byte} {size : Nat}
    (h : o.Filled out size) (ss : List Str) (hfit : out.length + sectionLength ss ≤ size) :
    ∃ o', OutBuf.putStrings ss o = .ok o' ∧ o'.Filled (out ++ terminated nul ss) size := by
  induction ss generalizing o out with
  | nil => exact ⟨o, rfl, by simpa using h⟩
  | cons s ss ih =>
      rw [sectionLength_cons] at hfit
      obtain ⟨o₁, ho₁, h₁⟩ := h.put (s ++ [nul]) (by
        simp only [List.length_append, List.length_cons, List.length_nil]
        omega)
      obtain ⟨o₂, ho₂, h₂⟩ := ih h₁ (by
        simp only [List.length_append, List.length_cons, List.length_nil]
        omega)
      refine ⟨o₂, ?_, ?_⟩
      · simp only [OutBuf.putStrings, ho₁]
        exact ho₂
      · simpa using h₂

/-- A copy that succeeded stayed within the buffer. -/
theorem OutBuf.put_eq_ok {o o' : OutBuf} {src : List Byte} (h : o.put src = .ok o') :
    o'.pos = o.pos + src.length ∧ o'.pos ≤ o'.mem.length ∧ o'.mem.length = o.mem.length := by
  by_cases hfit : o.pos + src.length ≤ o.mem.length
  · rw [OutBuf.put, if_pos hfit, Except.ok.injEq] at h
    subst h
    have hlen : (o.mem.take o.pos ++ src ++ o.mem.drop (o.pos + src.length)).length =
        o.mem.length := by
      simp only [List.length_append, List.length_take, List.length_drop]
      omega
    exact ⟨rfl, hlen ▸ hfit, hlen⟩
  · rw [OutBuf.put, if_neg hfit] at h
    cases h

theorem OutBuf.putStrings_eq_ok {ss : List Str} {o o' : OutBuf} (hpos : o.pos ≤ o.mem.length)
    (h : OutBuf.putStrings ss o = .ok o') :
    o'.pos = o.pos + sectionLength ss ∧ o'.pos ≤ o'.mem.length ∧
      o'.mem.length = o.mem.length := by
  induction ss generalizing o with
  | nil =>
      obtain rfl : o = o' := by simpa [OutBuf.putStrings] using h
      exact ⟨by simp, hpos, rfl⟩
  | cons s ss ih =>
      obtain ⟨o₁, h₁, hrest⟩ := bind_eq_ok.mp h
      obtain ⟨hpos₁, hle₁, hlen₁⟩ := OutBuf.put_eq_ok h₁
      -- the first copy stayed within the buffer, which is all that the rest needs
      obtain ⟨hpos₂, hle₂, hlen₂⟩ := ih hle₁ hrest
      simp only [List.length_append, List.length_cons, List.length_nil] at hpos₁
      refine ⟨?_, hle₂, hlen₂.trans hlen₁⟩
      rw [hpos₂, hpos₁, sectionLength_cons]
      omega

/-- Filling a buffer can only fail by leaving it. -/
theorem OutBuf.put_eq_error {o : OutBuf} {src : List Byte} {e : Fault}
    (h : o.put src = .error e) : e = .writePast := by
  unfold OutBuf.put at h
  split at h <;> simp_all

theorem OutBuf.putStrings_eq_error {ss : List Str} {o : OutBuf} {e : Fault}
    (h : OutBuf.putStrings ss o = .error e) : e = .writePast := by
  induction ss generalizing o with
  | nil => simp [OutBuf.putStrings] at h
  | cons s ss ih =>
      rcases bind_eq_error.mp h with hput | ⟨o₁, -, hrest⟩
      · exact OutBuf.put_eq_error hput
      · exact ih hrest

/-- A completely filled buffer holds exactly what was written. -/
theorem OutBuf.Filled.mem_eq {o : OutBuf} {out : List Byte} {size : Nat}
    (h : o.Filled out size) (hsize : out.length = size) : o.mem = out := by
  have htake : o.mem.take out.length = o.mem := by
    rw [hsize, ← h.length, List.take_length]
  rw [← htake, h.prefix_eq]

/-! ## Allocation -/

/-- `malloc(n)` for an `int` of bytes, with whatever `junk` the block holds; a
    negative count is a `size_t` of `2 ^ 31` or more, for which there is no block. -/
def malloc (junk : Nat → Byte) (n : Word) : Option (List Byte) :=
  if n.toInt < 0 then none else some ((List.range n.toNat).map junk)

theorem malloc_of_lt {junk : Nat → Byte} {n : Nat} (h : n < 2 ^ 31) :
    malloc junk (BitVec.ofNat 32 n) = some ((List.range n).map junk) := by
  -- below `2 ^ 31` the word is the count, as an `int` and as a `size_t`
  rw [malloc, toInt_ofNat_of_lt h, toNat_ofNat_of_lt h]
  simp

end IpcWin.Native
