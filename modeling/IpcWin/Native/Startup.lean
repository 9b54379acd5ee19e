/-
  IpcWin.Native.Startup

  The reply table that `_tmain` of `NativeServer.cpp` fills before its main loop,
  and the requests that it answers with one item for each pair of id and type.

  The table is filled for the five sizes of the benchmark.  A lookup of any other
  number finds no entry and makes an empty one, so that a request is answered as
  it should be exactly when it has no pair or is of one of these sizes
  (`answersPairs_iff`).
-/

import IpcWin.Native.Modes

namespace IpcWin.Native

open IpcWin.Lib IpcWin.Wire
open IpcWin.Protobuf (stringsWeight)

namespace Server

/-- `"123456789 123456789"`. -/
def itemText : Str :=
  [0x31, 0x32, 0x33, 0x34, 0x35, 0x36, 0x37, 0x38, 0x39, 0x20,
    0x31, 0x32, 0x33, 0x34, 0x35, 0x36, 0x37, 0x38, 0x39]

/-- The loop of `insert`, with `reqc` turns to go. -/
def insertItems : Nat → CustomResponse → CustomResponse
  | 0, cresp => cresp
  | reqc + 1, cresp => insertItems reqc { mData := cresp.mData ++ [itemText] }

/-- `insert`; an entry that is there stays. -/
def insert (reqc : Word) (table : RespTable) : RespTable :=
  table.insert reqc (insertItems (loopCount reqc) CustomResponse.new)

/-- The table after start-up with any builder but `resp_bytes`. -/
def startTable : RespTable :=
  let reqRespObj : RespTable := fun _ => none
  let reqRespObj := insert (5000 * 10) reqRespObj
  let reqRespObj := insert (2500 * 10) reqRespObj
  let reqRespObj := insert (500 * 10) reqRespObj
  let reqRespObj := insert (50 * 10) reqRespObj
  insert (5 * 10) reqRespObj

/-! ## What the table holds -/

/-- The numbers of items that the server has replies for. -/
def benchmarkSizes : List Nat := [50000, 25000, 5000, 500, 50]

theorem insertItems_eq (reqc : Nat) (cresp : CustomResponse) :
    insertItems reqc cresp = { mData := cresp.mData ++ List.replicate reqc itemText } := by
  induction reqc generalizing cresp with
  | zero => simp [insertItems]
  | succ reqc ih => rw [insertItems, ih, List.append_assoc, List.replicate_succ]; rfl

theorem insert_apply {n : Nat} (hn : n < 2 ^ 31) (table : RespTable) (k : Word) :
    insert (BitVec.ofNat 32 n) table k =
      (table k).or (if k = BitVec.ofNat 32 n then some { mData := List.replicate n itemText }
        else none) := by
  have hitems : insertItems (loopCount (BitVec.ofNat 32 n)) CustomResponse.new =
      { mData := List.replicate n itemText } := by
    rw [loopCount_ofNat hn, insertItems_eq]
    rfl
  rw [insert, hitems, Table.insert_apply]

/-- Inserting sizes one after the other leaves an entry for each. -/
theorem foldl_insert_apply (sizes : List Nat) (hsizes : ∀ n ∈ sizes, n < 2 ^ 31)
    (table : RespTable) {m : Nat} (hm : m < 2 ^ 32) :
    sizes.foldl (fun table n => insert (BitVec.ofNat 32 n) table) table (BitVec.ofNat 32 m) =
      (table (BitVec.ofNat 32 m)).or
        (if m ∈ sizes then some { mData := List.replicate m itemText } else none) := by
  induction sizes generalizing table with
  | nil => simp
  | cons n sizes ih =>
      have hn : n < 2 ^ 31 := hsizes n List.mem_cons_self
      have hkey : BitVec.ofNat 32 m = BitVec.ofNat 32 n ↔ m = n := by
        rw [BitVec.toNat_inj.symm, BitVec.toNat_ofNat, BitVec.toNat_ofNat]
        omega
      rw [List.foldl_cons, ih (fun n' hn' => hsizes n' (List.mem_cons_of_mem n hn')),
        insert_apply hn]
      by_cases heq : m = n
      · subst heq
        simp
      · simp [hkey, heq]

theorem startTable_eq : startTable =
    benchmarkSizes.foldl (fun table n => insert (BitVec.ofNat 32 n) table) (fun _ => none) := rfl

/-- For a size of the benchmark there are as many items, else no entry. -/
theorem startTable_apply {m : Nat} (hm : m < 2 ^ 32) :
    startTable (BitVec.ofNat 32 m) =
      if m ∈ benchmarkSizes then some { mData := List.replicate m itemText } else none := by
  rw [startTable_eq, foldl_insert_apply benchmarkSizes (by decide) _ hm]
  exact Option.none_or

/-- An entry of the table at start-up has at most 50000 items, all of them the text. -/
theorem startTable_entry {k : Word} {cresp : CustomResponse} (h : startTable k = some cresp) :
    ∃ m ≤ 50000, cresp = { mData := List.replicate m itemText } := by
  have hk := startTable_apply k.isLt
  rw [BitVec.ofNat_toNat, BitVec.setWidth_eq, h] at hk
  obtain ⟨hsize, hitems⟩ := Option.ite_none_right_eq_some.mp hk.symm
  refine ⟨k.toNat, ?_, (Option.some.inj hitems).symm⟩
  simp only [benchmarkSizes, List.mem_cons, List.not_mem_nil, or_false] at hsize
  omega

/-- The table at start-up has as many items as pairs for none and for the benchmark's
    sizes. -/
theorem startTable_items_length_iff {n : Nat} (hn : n < 2 ^ 31) :
    (RespTable.items startTable n).length = n ↔ n = 0 ∨ n ∈ benchmarkSizes := by
  rw [RespTable.items, Table.entry, startTable_apply (by omega)]
  split_ifs with hsize
  · simp [hsize]
  · show 0 = n ↔ _
    simp only [hsize, or_false]
    exact eq_comm

theorem stringsWeight_replicate (n : Nat) (s : Str) :
    stringsWeight (List.replicate n s) = n * (s.length + 6) := by
  induction n with
  | zero => simp [stringsWeight]
  | succ n ih =>
      rw [List.replicate_succ, stringsWeight, ih, Nat.succ_mul]
      omega

theorem startTable_stored {k : Word} {cresp : CustomResponse} (h : startTable k = some cresp) :
    cresp.weight < 2 ^ 31 ∧ cresp.NulFree := by
  obtain ⟨m, hm, rfl⟩ := startTable_entry h
  refine ⟨?_, ?_⟩
  · rw [CustomResponse.weight, stringsWeight_replicate]
    show 4 + m * 25 < 2 ^ 31
    omega
  · intro s hs
    rw [List.eq_of_mem_replicate hs]
    decide

/-- The table at start-up, with what it takes in memory. -/
def stored : StoredTable where
  table := startTable
  weight_lt _ _ h := (startTable_stored h).1
  nulFree _ _ h := (startTable_stored h).2

end Server

/-! ## One item for each pair -/

/-- The client gets an item for each pair of an id and a type that it asked for. -/
def AnswersPairs (pb : Messages) (mode : Mode) (u : Uninit) (table : Server.RespTable)
    (r : CustomRequest) : Prop :=
  ∃ cresp table', ask pb mode u table r = .ok (cresp, table') ∧
    cresp.mData.length = r.mIds.length * r.mTypes.length

/-- After any history a request is answered with an item for each of its pairs, in
    either mode, exactly if it has none or a number that the benchmark sends. -/
theorem answersPairs_iff {pb : Messages} (hpb : pb.Restores) (history : History)
    (r : StoredRequest) (hpairs : r.request.mIds.length * r.request.mTypes.length < 2 ^ 31) :
    ∃ table, serve pb Server.startTable history.calls = .ok table ∧
      ∀ mode u, AnswersPairs pb mode u table r.request ↔
        r.request.mIds.length * r.request.mTypes.length = 0 ∨
          r.request.mIds.length * r.request.mTypes.length ∈ Server.benchmarkSizes := by
  obtain ⟨table, hserve, htable⟩ := serve_entry hpb Server.stored history rfl
  refine ⟨table, hserve, ?_⟩
  intro mode u
  obtain ⟨table', hask, -⟩ := ask_eq hpb Server.stored htable mode u r
  rw [← Server.startTable_items_length_iff hpairs]
  constructor
  · rintro ⟨cresp, next, hask', hlen⟩
    obtain ⟨rfl, -⟩ := Prod.mk.inj (Except.ok.inj (hask.symm.trans hask'))
    exact hlen
  · intro hlen
    exact ⟨_, table', hask, hlen⟩

/-- Ten ids and five types. -/
def fiftyPairs : CustomRequest :=
  { mIds := List.replicate 10 [0x41], mTypes := List.replicate 5 [0x54], mName := [], idss := 0
    typess := 0 }

theorem fiftyPairs_weight_lt : fiftyPairs.weight < 2 ^ 31 := by decide

theorem fiftyPairs_answersPairs_iff :
    ∃ table, serve generatedMessages Server.startTable
        (History.calls [(.protobuf, zeroed, ⟨oneId, oneId_weight_lt⟩)]) = .ok table ∧
      ∀ mode u, AnswersPairs generatedMessages mode u table fiftyPairs ↔
        10 * 5 = 0 ∨ 10 * 5 ∈ Server.benchmarkSizes :=
  answersPairs_iff generatedMessages_restores [(.protobuf, zeroed, ⟨oneId, oneId_weight_lt⟩)]
    ⟨fiftyPairs, fiftyPairs_weight_lt⟩ (by decide)

/-- One id and one type make one pair, and the first reply to them is empty in either
    mode. -/
theorem oneId_unanswered :
    oneId.mIds.length * oneId.mTypes.length = 1 ∧
      ∀ mode, (∃ table', ask generatedMessages mode zeroed Server.startTable oneId =
          .ok (CustomResponse.new, table')) ∧
        ¬ AnswersPairs generatedMessages mode zeroed Server.startTable oneId := by
  refine ⟨rfl, ?_⟩
  intro mode
  have hstart : Server.startTable.entry Server.noItems =
      Server.stored.table.entry Server.noItems := rfl
  obtain ⟨table', hask, -⟩ := ask_eq generatedMessages_restores Server.stored hstart mode zeroed
    ⟨oneId, oneId_weight_lt⟩
  have hnone : Server.startTable oneId.itemsc = none :=
    Server.startTable_apply (m := 1) (by decide)
  have hempty : ask generatedMessages mode zeroed Server.startTable oneId =
      .ok (CustomResponse.new, table') := by
    rw [hask]
    show Except.ok ((Server.startTable oneId.itemsc).getD CustomResponse.new, table') = _
    rw [hnone]
    rfl
  refine ⟨⟨table', hempty⟩, ?_⟩
  rintro ⟨cresp, next, hask', hlen⟩
  obtain ⟨rfl, -⟩ := Prod.mk.inj (Except.ok.inj (hempty.symm.trans hask'))
  exact absurd hlen (by decide)

end IpcWin.Native
