/-
  IpcWin.Native.Bytes

  Requests and replies that are nothing but bytes: `req_bytes` of
  `NativeClient.cpp`, `resp_bytes` of `NativeServer.cpp`, and the table `reqResp`
  that the server takes the length of a reply from.

  Both put a greeting in front of what their block holds, and copy more than the
  greeting from where it stands, so that what is behind it in memory goes over as
  well.  The server copies 1024 bytes whatever the block holds.  A reply is sent only
  if the table has the length of the request (`respBytes_eq`); for any other length
  the lookup makes an entry of 0 and the copy stops the program.  The table is read
  by subscript alone, and so it stays as `_tmain` has filled it
  (`bytes_served_iff`).
-/

import IpcWin.Lib.Tables
import IpcWin.Native.Session

namespace IpcWin.Native

open IpcWin.Lib IpcWin.Wire

/-- `const int kb`. -/
def kb : Nat := 1024

/-- The characters of a narrow literal. -/
def chars (s : String) : Str := s.toList.map fun c => BitVec.ofNat 8 c.toNat

/-- A narrow literal with its NUL. -/
def literal (s : String) : List Byte := chars s ++ [nul]

/-- `n` bytes from where a literal stands; `behind` is what is in memory behind it. -/
def fromLiteral (s : String) (behind : Nat → Byte) (n : Nat) : List Byte :=
  (literal s ++ (List.range n).map behind).take n

/-- `memcpy_s` of `n` bytes from a literal to the start of a block: the block afterwards.
    Where it is too short there is no going on: `memcpy_s` stops the program. -/
def copyLiteral (s : String) (behind : Nat → Byte) (n : Nat) (data : List Byte) :
    Except Fault (List Byte) :=
  ((OutBuf.start data).put (fromLiteral s behind n)).map OutBuf.mem

/-- `req_bytes`. -/
def Client.reqBytes (junk behind : Nat → Byte) (size : Word) : Except Fault (Word × List Byte) :=
  match malloc junk size with
  | none => .error .nullBuffer
  | some reqData => do
      let reqData ← copyLiteral "Hello from client!!!" behind 50 reqData
      pure (size, reqData)

namespace Server

/-- `std::map<int,int> reqResp`. -/
abbrev SizeTable := Table Word Word

/-- An entry that is added by a subscript. -/
def noSize (_ : Word) : Word := 0

/-- `resp_bytes`: the reply and the table afterwards. -/
def respBytes (junk behind : Nat → Byte) (table : SizeTable) (requestPacket : Word) :
    Except Fault ((Word × List Byte) × SizeTable) :=
  let (packetSize, table) := table.lookup noSize requestPacket
  match malloc junk packetSize with
  | none => .error .nullBuffer
  | some data => do
      let data ← copyLiteral "Hello from server!!!" behind 1024 data
      pure ((packetSize, data), table)

/-- The lengths that `_tmain` puts into the table, with the length of the reply to each. -/
def sizes : List (Nat × Nat) :=
  [(500 * kb, 5000 * kb), (100 * kb, 1000 * kb), (50 * kb, 500 * kb), (10 * kb, 100 * kb),
    (1 * kb, 10 * kb), (kb / 10, 1 * kb)]

/-- The table after start-up. -/
def startSizes : SizeTable :=
  sizes.foldl (fun table p => table.insert (BitVec.ofNat 32 p.1) (BitVec.ofNat 32 p.2))
    fun _ => none

/-- The length of the reply to a request, 0 where there is none. -/
def respSize (n : Nat) : Nat := (sizes.lookup n).getD 0

/-- The table after calls of the builder, the `k`-th with `u k` in memory.  `keys k` are
    those of the subscripts in front of it: `pipe_init` has one with an `outbuf` that
    nothing has been written to. -/
def sizesAfter (behind : Nat → Byte) :
    (Nat → Uninit) → (Nat → List Word) → SizeTable → List Received → Except Fault SizeTable
  | _, _, table, [] => .ok table
  | u, keys, table, request :: requests => do
      let table := table.lookups noSize (keys 0)
      let (_, table) ← respBytes (u 0).serverJunk behind table request.1
      sizesAfter behind (fun k => u (k + 1)) (fun k => keys (k + 1)) table requests

/-- The builder as a function of all that the server has been handed, with the table of
    the start. -/
def bytesBuilder (behind : Nat → Byte) (u : Nat → Uninit) (keys : Nat → List Word)
    (start : SizeTable) (requests : List Received) : Packet :=
  match requests.getLast? with
  | none => .empty
  | some request => built do
      let table ← sizesAfter behind u keys start requests.dropLast
      let table := table.lookups noSize (keys (requests.length - 1))
      let (q, _) ← respBytes (u (requests.length - 1)).serverJunk behind table request.1
      pure q

end Server

/-! ## The copies -/

section Copies

variable {s : String} {behind : Nat → Byte} {n : Nat} {data : List Byte}

theorem fromLiteral_length : (fromLiteral s behind n).length = n := by
  rw [fromLiteral, List.length_take, List.length_append, List.length_map, List.length_range]
  omega

theorem copyLiteral_error (h : data.length < n) :
    copyLiteral s behind n data = .error .writePast := by
  have hfit : ¬ 0 + (fromLiteral s behind n).length ≤ data.length := by
    rw [fromLiteral_length]
    omega
  rw [copyLiteral, OutBuf.put, OutBuf.start, if_neg hfit]
  rfl

/-- A copy that fits leaves the block as long as it was, with the literal in front. -/
theorem copyLiteral_eq (behind : Nat → Byte) (hliteral : (literal s).length ≤ n)
    (hfit : n ≤ data.length) :
    ∃ data', copyLiteral s behind n data = .ok data' ∧ data'.length = data.length ∧
      literal s <+: data' := by
  refine ⟨fromLiteral s behind n ++ data.drop n, ?_, ?_, ?_⟩
  · have hput : 0 + (fromLiteral s behind n).length ≤ data.length := by
      rw [fromLiteral_length]
      omega
    rw [copyLiteral, OutBuf.put, OutBuf.start, if_pos hput, fromLiteral_length, Nat.zero_add]
    rfl
  · rw [List.length_append, fromLiteral_length, List.length_drop]
    omega
  · refine List.IsPrefix.trans ?_ (List.prefix_append _ _)
    rw [fromLiteral, List.prefix_take_iff]
    exact ⟨List.prefix_append _ _, hliteral⟩

/-- What the client asks with: as many bytes as it is told, with the greeting in front. -/
theorem Client.reqBytes_eq (junk behind : Nat → Byte) (hn : 50 ≤ n) (hlt : n < 2 ^ 31) :
    ∃ data, reqBytes junk behind (BitVec.ofNat 32 n) = .ok (BitVec.ofNat 32 n, data) ∧
      data.length = n ∧ literal "Hello from client!!!" <+: data := by
  have hfit : 50 ≤ ((List.range n).map junk).length := by simpa using hn
  obtain ⟨data, hcopy, hlen, hgreeting⟩ := copyLiteral_eq behind
    (by decide : (literal "Hello from client!!!").length ≤ 50) hfit
  refine ⟨data, ?_, by simpa using hlen, hgreeting⟩
  rw [reqBytes, malloc_of_lt hlt]
  simp only [hcopy]
  rfl

end Copies

namespace Server

/-! ## The table of the lengths -/

section Sizes

variable {table : SizeTable} {n : Nat}

theorem foldl_insert_sizes (ps : List (Nat × Nat)) (hps : ∀ p ∈ ps, p.1 < 2 ^ 32)
    (table : SizeTable) (hn : n < 2 ^ 32) :
    ps.foldl (fun table p => table.insert (BitVec.ofNat 32 p.1) (BitVec.ofNat 32 p.2)) table
        (BitVec.ofNat 32 n) =
      (table (BitVec.ofNat 32 n)).or ((ps.lookup n).map (BitVec.ofNat 32)) := by
  induction ps generalizing table with
  | nil => simp
  | cons p ps ih =>
      have hp : p.1 < 2 ^ 32 := hps p List.mem_cons_self
      have hkey : BitVec.ofNat 32 n = BitVec.ofNat 32 p.1 ↔ n = p.1 := by
        rw [BitVec.toNat_inj.symm, BitVec.toNat_ofNat, BitVec.toNat_ofNat]
        omega
      rw [List.foldl_cons, ih (fun p' hp' => hps p' (List.mem_cons_of_mem p hp')),
        Table.insert_apply, List.lookup_cons]
      by_cases heq : n = p.1
      · simp [heq]
      · simp [hkey, heq, beq_false_of_ne heq]

/-- The table has the length of the reply to each length that `_tmain` has put into it. -/
theorem startSizes_entry (k : Word) :
    startSizes.entry noSize k = BitVec.ofNat 32 (respSize k.toNat) := by
  have hk := foldl_insert_sizes sizes (by decide) (fun _ => none) k.isLt
  rw [BitVec.ofNat_toNat, BitVec.setWidth_eq, Option.none_or] at hk
  rw [Table.entry, startSizes, hk, respSize]
  cases sizes.lookup k.toNat with
  | none => rfl
  | some m => rfl

/-- A reply is as long as its greeting is copied. -/
theorem respSize_of_ne_zero (h : respSize n ≠ 0) : 1024 ≤ respSize n ∧ respSize n < 2 ^ 31 := by
  rw [respSize] at h ⊢
  cases hlookup : sizes.lookup n with
  | none =>
      rw [hlookup] at h
      exact absurd rfl h
  | some m =>
      obtain ⟨l, l', hsplit, -⟩ := List.lookup_eq_some_iff.mp hlookup
      have hmem : (n, m) ∈ sizes := by
        rw [hsplit]
        simp
      have hall : ∀ p ∈ sizes, 1024 ≤ p.2 ∧ p.2 < 2 ^ 31 := by decide
      exact hall (n, m) hmem

end Sizes

/-! ## One call, and any number of them -/

section Replies

variable {table : SizeTable} {junk behind : Nat → Byte} {k : Word}

/-- With the entries of the start, a request of a length in the table is answered. -/
theorem respBytes_eq (junk behind : Nat → Byte)
    (htable : table.entry noSize = startSizes.entry noSize) (h : respSize k.toNat ≠ 0) :
    ∃ data, respBytes junk behind table k =
        .ok ((BitVec.ofNat 32 (respSize k.toNat), data), (table.lookup noSize k).2) ∧
      data.length = respSize k.toNat ∧ literal "Hello from server!!!" <+: data := by
  obtain ⟨hle, hlt⟩ := respSize_of_ne_zero h
  have hsize : (table.lookup noSize k).1 = BitVec.ofNat 32 (respSize k.toNat) := by
    rw [Table.lookup_fst, htable, startSizes_entry]
  have hfit : 1024 ≤ ((List.range (respSize k.toNat)).map junk).length := by simpa using hle
  obtain ⟨data, hcopy, hlen, hgreeting⟩ := copyLiteral_eq behind
    (by decide : (literal "Hello from server!!!").length ≤ 1024) hfit
  refine ⟨data, ?_, by simpa using hlen, hgreeting⟩
  simp only [respBytes, hsize, malloc_of_lt hlt, hcopy]
  rfl

/-- A request of any other length stops the program. -/
theorem respBytes_error (htable : table.entry noSize = startSizes.entry noSize)
    (h : respSize k.toNat = 0) : respBytes junk behind table k = .error .writePast := by
  have hsize : (table.lookup noSize k).1 = BitVec.ofNat 32 0 := by
    rw [Table.lookup_fst, htable, startSizes_entry, h]
  -- `reqResp[k]` is zero, so that 1024 bytes go into a block without any
  have hshort : ((List.range 0).map junk).length < 1024 := by simp
  have hcopy : copyLiteral "Hello from server!!!" behind 1024 ((List.range 0).map junk) =
      .error .writePast := copyLiteral_error hshort
  have hmalloc : malloc junk (BitVec.ofNat 32 0) = some ((List.range 0).map junk) :=
    malloc_of_lt (by decide)
  simp only [respBytes, hsize, hmalloc, hcopy, bind, Except.bind]

/-- Calls with lengths in the table leave its entries as they were, and with another
    length among them the program has stopped. -/
theorem sizesAfter_eq (behind : Nat → Byte) (requests : List Received) (u : Nat → Uninit)
    (keys : Nat → List Word) (htable : table.entry noSize = startSizes.entry noSize) :
    (∀ q ∈ requests, respSize q.1.toNat ≠ 0) ∧
      (∃ table', sizesAfter behind u keys table requests = .ok table' ∧
        table'.entry noSize = startSizes.entry noSize) ∨
    (∃ q ∈ requests, respSize q.1.toNat = 0) ∧
      sizesAfter behind u keys table requests = .error .writePast := by
  induction requests generalizing u keys table with
  | nil => exact .inl ⟨by simp, table, rfl, htable⟩
  | cons q requests ih =>
      -- the subscripts before the call leave the entries as they were
      have hkeys : (table.lookups noSize (keys 0)).entry noSize = startSizes.entry noSize :=
        (Table.entry_lookups (keys 0)).trans htable
      by_cases hq : respSize q.1.toNat = 0
      · refine .inr ⟨⟨q, List.mem_cons_self, hq⟩, ?_⟩
        simp only [sizesAfter, respBytes_error hkeys hq, bind, Except.bind]
      · obtain ⟨data, hreply, -⟩ := respBytes_eq (u 0).serverJunk behind hkeys hq
        have hnext := (Table.entry_lookup q.1).trans hkeys
        simp only [sizesAfter, hreply, bind, Except.bind]
        rcases ih (fun k => u (k + 1)) (fun k => keys (k + 1)) hnext with
          ⟨hall, htable'⟩ | ⟨⟨q', hq', hzero⟩, herror⟩
        · exact .inl ⟨by simpa [hq] using hall, htable'⟩
        · exact .inr ⟨⟨q', List.mem_cons_of_mem q hq', hzero⟩, herror⟩

/-- After requests of lengths in the table, one more of such a length is answered by its
    length alone. -/
theorem bytesBuilder_eq (behind : Nat → Byte) (u : Nat → Uninit) (keys : Nat → List Word)
    {requests : List Received} (hrequests : ∀ q ∈ requests, respSize q.1.toNat ≠ 0) {q : Received}
    (hq : respSize q.1.toNat ≠ 0) :
    (bytesBuilder behind u keys startSizes (requests ++ [q])).bytes.length = respSize q.1.toNat ∧
      literal "Hello from server!!!" <+:
        (bytesBuilder behind u keys startSizes (requests ++ [q])).bytes := by
  have hafter : ∃ table', sizesAfter behind u keys startSizes requests = .ok table' ∧
      table'.entry noSize = startSizes.entry noSize := by
    rcases sizesAfter_eq behind requests u keys rfl with ⟨-, hok⟩ | ⟨⟨q', hq', hzero⟩, -⟩
    · exact hok
    · exact absurd hzero (hrequests q' hq')
  obtain ⟨table', hsizes, htable'⟩ := hafter
  have hkeys := (Table.entry_lookups (keys ((requests ++ [q]).length - 1))).trans htable'
  obtain ⟨data, hreply, hlen, hgreeting⟩ :=
    respBytes_eq (u ((requests ++ [q]).length - 1)).serverJunk behind hkeys hq
  have hlt : data.length < 2 ^ 31 := hlen ▸ (respSize_of_ne_zero hq).2
  have hbytes : (bytesBuilder behind u keys startSizes (requests ++ [q])).bytes = data := by
    rw [bytesBuilder, List.getLast?_concat, List.dropLast_concat, hsizes]
    simp only [bind, Except.bind, hreply, pure, Except.pure, built, dif_pos hlt]
  rw [hbytes]
  exact ⟨hlen, hgreeting⟩

/-- The program lives through any requests exactly if their lengths are in the table; then
    each reply has the length that the table has for it, with the greeting in front. -/
theorem bytes_served_iff (behind : Nat → Byte) (u : Nat → Uninit) (keys : Nat → List Word)
    (requests : List Received) (q : Received) :
    ((∃ table, sizesAfter behind u keys startSizes (requests ++ [q]) = .ok table) ↔
      ∀ p ∈ requests ++ [q], respSize p.1.toNat ≠ 0) ∧
    ((∀ p ∈ requests ++ [q], respSize p.1.toNat ≠ 0) →
      (bytesBuilder behind u keys startSizes (requests ++ [q])).bytes.length =
          respSize q.1.toNat ∧
      literal "Hello from server!!!" <+:
        (bytesBuilder behind u keys startSizes (requests ++ [q])).bytes) := by
  refine ⟨?_, ?_⟩
  · rcases sizesAfter_eq behind (requests ++ [q]) u keys rfl with
      ⟨hall, table, hok, -⟩ | ⟨⟨p, hp, hzero⟩, herror⟩
    · exact iff_of_true ⟨table, hok⟩ hall
    · refine iff_of_false ?_ (fun hall => hall p hp hzero)
      rintro ⟨table, hok⟩
      cases hok.symm.trans herror
  · intro hall
    exact bytesBuilder_eq behind u keys (fun p hp => hall p (List.mem_append_left _ hp))
      (hall q (by simp))

end Replies

end Server

end IpcWin.Native
