/-
  IpcWin.Native.Benchmark

  What `_tmain` of `NativeClient.cpp` asks for: the requests that `init_reqs` keeps
  under their sizes, and the calls of its loops.

  The requests are read by subscript, so that for a size that nothing is kept under
  a new request without ids and types goes out.  With `-o` the sizes are multiplied
  by ten after the requests have been put under them, and so only two of the five
  are found there, under sizes that were meant for others (`startReqs_entry`).

  Without `-o` each call asks for as many pairs as the server has a reply for
  (`answer_benchmarkRequest`).
-/

import Mathlib.Data.List.GetD
import IpcWin.Native.Bytes
import IpcWin.Native.CommandLine
import IpcWin.Native.Startup

namespace IpcWin.Native

open IpcWin.Lib IpcWin.Wire
open IpcWin.Protobuf (stringsWeight)

namespace Client

/-- `std::map<int,custom_request> req`. -/
abbrev ReqTable := Table Word CustomRequest

/-- The client's `name`, `id` and `type`. -/
def name : Str := chars "cool data"
def id : Str := chars "very very cool id"
def type : Str := chars "very very cool type"

/-- A loop of `init_reqs`: `n` copies of `s` at the end. -/
def pushCopies {α : Type} (s : α) : Nat → List α → List α
  | 0, ss => ss
  | n + 1, ss => pushCopies s n (ss ++ [s])

/-- A new request for a key; `junk` is what its two sizes hold. -/
def newRequest (junk : Word → Word × Word) (k : Word) : CustomRequest :=
  CustomRequest.new (junk k).1 (junk k).2

/-- `init_reqs`. -/
def initReqs (junk : Word → Word × Word) (reqSize ids types : Nat) (req : ReqTable) : ReqTable :=
  let sc := newRequest junk (BitVec.ofNat 32 reqSize)
  let sc := { sc with mName := name }
  let sc := { sc with mIds := pushCopies id ids sc.mIds }
  let sc := { sc with mTypes := pushCopies type types sc.mTypes }
  req.insert (BitVec.ofNat 32 reqSize) sc

/-- The table when the calls begin, with any builder but `req_bytes`. -/
def startReqs (junk : Word → Word × Word) (oneway : Bool) : ReqTable :=
  let req : ReqTable := fun _ => none
  if !oneway then
    let req := initReqs junk (100 * kb) 5000 10 req
    let req := initReqs junk (50 * kb) 2500 10 req
    let req := initReqs junk (10 * kb) 500 10 req
    let req := initReqs junk (1 * kb) 50 10 req
    initReqs junk (kb / 10) 5 10 req
  else
    let req := initReqs junk (100 * kb) 50000 10 req
    let req := initReqs junk (50 * kb) 25000 10 req
    let req := initReqs junk (10 * kb) 5000 10 req
    let req := initReqs junk (1 * kb) 500 10 req
    initReqs junk (kb / 10) 50 10 req

/-- The variables `req_size100`, `req_size50`, `req_size10`, `req_size1` and `req_size0_1`. -/
inductive ReqSize where
  | size100 | size50 | size10 | size1 | size0_1
  deriving DecidableEq, Repr

def ReqSize.initial : ReqSize → Nat
  | .size100 => 100 * kb
  | .size50 => 50 * kb
  | .size10 => 10 * kb
  | .size1 => 1 * kb
  | .size0_1 => kb / 10

/-- Their values when the calls begin. -/
def ReqSize.value (oneway : Bool) (s : ReqSize) : Nat :=
  if oneway then s.initial * 10 else s.initial

/-- Where the loops use the builder: to print how long a request is, and in a call. -/
inductive Use where
  | print (s : ReqSize)
  | call (s : ReqSize)

/-- One of the loops. -/
def loop (s : ReqSize) (n : Nat) : List Use := .print s :: List.replicate n (.call s)

/-- The loops of `_tmain`. -/
def benchmark : List Use :=
  loop .size100 5 ++ loop .size50 10 ++ loop .size10 50 ++ loop .size1 500 ++
    loop .size0_1 1000 ++ loop .size100 5 ++ loop .size50 10 ++ loop .size10 50 ++
    loop .size1 500 ++ loop .size0_1 1000

/-- The requests of the calls. -/
def requests (junk : Word → Word × Word) (oneway : Bool) : List Use → ReqTable → List CustomRequest
  | [], _ => []
  | .print s :: uses, req =>
      let (_, req) := req.lookup (newRequest junk) (BitVec.ofNat 32 (s.value oneway))
      requests junk oneway uses req
  | .call s :: uses, req =>
      let (r, req) := req.lookup (newRequest junk) (BitVec.ofNat 32 (s.value oneway))
      r :: requests junk oneway uses req

/-- The sizes of the calls. -/
def called : List Use → List ReqSize
  | [] => []
  | .print _ :: uses => called uses
  | .call s :: uses => s :: called uses

/-- The size of the `k`-th call; behind the last one it does not matter. -/
def sizeAt (k : Nat) : ReqSize := (called benchmark).getD k .size100

theorem called_append (uses uses' : List Use) :
    called (uses ++ uses') = called uses ++ called uses' := by
  induction uses with
  | nil => rfl
  | cons use uses ih =>
      cases use with
      | print s => exact ih
      | call s => exact congrArg (s :: ·) ih

theorem called_loop (s : ReqSize) (n : Nat) : called (loop s n) = List.replicate n s := by
  show called (List.replicate n (.call s)) = _
  induction n with
  | zero => rfl
  | succ n ih => exact congrArg (s :: ·) ih

/-- The loops make 3130 calls, and take for all of them what each size takes as often as it
    is called for. -/
theorem sum_called (f : ReqSize → Nat) : ((called benchmark).map f).sum =
    10 * f .size100 + 20 * f .size50 + 100 * f .size10 + 1000 * f .size1 + 2000 * f .size0_1 := by
  simp only [benchmark, called_append, called_loop, List.map_append, List.sum_append,
    List.map_replicate, List.sum_replicate_nat]
  omega

theorem length_called : (called benchmark).length = 3130 := by
  simp only [benchmark, called_append, called_loop, List.length_append, List.length_replicate]

/-- What the calls take one after the other. -/
theorem sum_sizeAt (f : ReqSize → Nat) :
    ((List.range (called benchmark).length).map fun i => f (sizeAt i)).sum =
      ((called benchmark).map f).sum := by
  refine congrArg List.sum ?_
  apply List.ext_getElem
  · rw [List.length_map, List.length_range, List.length_map]
  · intro i hi hi'
    rw [List.length_map] at hi'
    rw [List.getElem_map, List.getElem_range, List.getElem_map, sizeAt,
      List.getD_eq_getElem _ _ hi']

/-! ## What is kept under the sizes -/

/-- The numbers of the pairs that the calls for a size ask for. -/
def pairs (oneway : Bool) (s : ReqSize) : Nat :=
  if oneway then
    match s with
    | .size10 => 50000 * 10
    | .size1 => 5000 * 10
    | .size100 | .size50 | .size0_1 => 0
  else
    match s with
    | .size100 => 5000 * 10
    | .size50 => 2500 * 10
    | .size10 => 500 * 10
    | .size1 => 50 * 10
    | .size0_1 => 5 * 10

section Requests

variable (junk : Word → Word × Word)

theorem pushCopies_eq {α : Type} (s : α) (n : Nat) (ss : List α) :
    pushCopies s n ss = ss ++ List.replicate n s := by
  induction n generalizing ss with
  | zero => simp [pushCopies]
  | succ n ih => rw [pushCopies, ih, List.append_assoc, List.replicate_succ]; rfl

/-- Any reading of the table finds what it has held when the calls began. -/
theorem requests_eq (oneway : Bool) (uses : List Use) (req : ReqTable) :
    requests junk oneway uses req = (called uses).map fun s =>
      req.entry (newRequest junk) (BitVec.ofNat 32 (s.value oneway)) := by
  induction uses generalizing req with
  | nil => rfl
  | cons use uses ih =>
      cases use with
      | print s => simp only [requests, ih, Table.entry_lookup, called]
      | call s =>
          simp only [requests, ih, Table.entry_lookup, Table.lookup_fst, called, List.map_cons]

/-- A request of `ids` ids and `types` types, or of nothing at all. -/
structure Plain (r : CustomRequest) (ids types : Nat) : Prop where
  mIds : r.mIds = List.replicate ids id
  mTypes : r.mTypes = List.replicate types type
  mName : r.mName = if types = 0 then [] else name

theorem plain_newRequest (k : Word) : Plain (newRequest junk k) 0 0 := ⟨rfl, rfl, rfl⟩

/-- What `init_reqs` has kept under a size. -/
theorem initReqs_apply (reqSize ids : Nat) (req : ReqTable) (k : Word) :
    ∃ r, Plain r ids 10 ∧ initReqs junk reqSize ids 10 req k =
      (req k).or (if k = BitVec.ofNat 32 reqSize then some r else none) := by
  refine ⟨_, ?_, Table.insert_apply _ _ _⟩
  refine ⟨?_, ?_, rfl⟩
  · exact pushCopies_eq id ids []
  · exact pushCopies_eq type 10 []

/-- The sizes and the numbers of ids that `_tmain` calls `init_reqs` with. -/
def inits (oneway : Bool) : List (Nat × Nat) :=
  if !oneway then
    [(100 * kb, 5000), (50 * kb, 2500), (10 * kb, 500), (1 * kb, 50), (kb / 10, 5)]
  else
    [(100 * kb, 50000), (50 * kb, 25000), (10 * kb, 5000), (1 * kb, 500), (kb / 10, 50)]

theorem startReqs_eq (oneway : Bool) : startReqs junk oneway =
    (inits oneway).foldl (fun req p => initReqs junk p.1 p.2 10 req) (fun _ => none) := by
  cases oneway <;> rfl

/-- What is kept under a size stays. -/
theorem foldl_initReqs_of_some (ps : List (Nat × Nat)) {req : ReqTable} {k : Word}
    {r : CustomRequest} (h : req k = some r) :
    ps.foldl (fun req p => initReqs junk p.1 p.2 10 req) req k = some r := by
  induction ps generalizing req with
  | nil => exact h
  | cons p ps ih =>
      obtain ⟨r', -, happly⟩ := initReqs_apply junk p.1 p.2 req k
      have hkept : initReqs junk p.1 p.2 10 req k = some r := by rw [happly, h, Option.some_or]
      exact ih hkept

theorem foldl_initReqs (ps : List (Nat × Nat)) (hps : ∀ p ∈ ps, p.1 < 2 ^ 32) (req : ReqTable)
    {n : Nat} (hn : n < 2 ^ 32) (h : req (BitVec.ofNat 32 n) = none) :
    ∃ r, Plain r ((ps.lookup n).getD 0) (if (ps.lookup n).isSome then 10 else 0) ∧
      (ps.foldl (fun req p => initReqs junk p.1 p.2 10 req) req).entry (newRequest junk)
        (BitVec.ofNat 32 n) = r := by
  induction ps generalizing req with
  | nil => exact ⟨_, plain_newRequest junk _, by rw [List.foldl_nil, Table.entry, h]; rfl⟩
  | cons p ps ih =>
      obtain ⟨size, ids⟩ := p
      have hsize : size < 2 ^ 32 := hps (size, ids) List.mem_cons_self
      have hkey : BitVec.ofNat 32 n = BitVec.ofNat 32 size ↔ n = size := by
        rw [BitVec.toNat_inj.symm, BitVec.toNat_ofNat, BitVec.toNat_ofNat]
        omega
      -- the first entry for a size stays, for `insert` does not overwrite
      obtain ⟨r, hr, happly⟩ := initReqs_apply junk size ids req (BitVec.ofNat 32 n)
      rw [h, Option.none_or] at happly
      by_cases heq : n = size
      · subst heq
        rw [if_pos rfl] at happly
        have hkept := foldl_initReqs_of_some junk ps happly
        rw [List.lookup_cons_self]
        exact ⟨r, hr, congrArg (fun o => o.getD (newRequest junk (BitVec.ofNat 32 n))) hkept⟩
      · rw [if_neg (mt hkey.mp heq)] at happly
        have hskip : ((size, ids) :: ps).lookup n = ps.lookup n := by
          rw [List.lookup_cons, beq_false_of_ne heq]
        rw [hskip]
        exact ih (fun p' hp' => hps p' (List.mem_cons_of_mem _ hp')) _ happly

/-- What a call asks for. -/
theorem startReqs_entry (oneway : Bool) (s : ReqSize) : ∃ ids types,
    ids ≤ 50000 ∧ (types = 0 ∨ types = 10) ∧ ids * types = pairs oneway s ∧
    Plain ((startReqs junk oneway).entry (newRequest junk) (BitVec.ofNat 32 (s.value oneway)))
      ids types := by
  have hinits : ∀ p ∈ inits oneway, p.1 < 2 ^ 32 := by cases oneway <;> decide
  have hvalue : s.value oneway < 2 ^ 32 := by cases oneway <;> cases s <;> decide
  obtain ⟨r, hr, hentry⟩ := foldl_initReqs junk (inits oneway) hinits (fun _ => none) hvalue rfl
  rw [startReqs_eq, hentry]
  refine ⟨_, _, ?_, ?_, ?_, hr⟩
  · cases oneway <;> cases s <;> decide
  · cases oneway <;> cases s <;> decide
  · cases oneway <;> cases s <;> decide

/-! ## What goes out, and what comes back -/

theorem Plain.weight_lt {r : CustomRequest} {ids types : Nat} (h : Plain r ids types)
    (hids : ids ≤ 50000) (htypes : types = 0 ∨ types = 10) : r.weight < 2 ^ 31 := by
  have hname : r.mName.length ≤ 9 := by
    rw [h.mName]
    split_ifs <;> decide
  rw [CustomRequest.weight, h.mIds, h.mTypes, Server.stringsWeight_replicate,
    Server.stringsWeight_replicate]
  have hid : id.length = 17 := by decide
  have htype : type.length = 19 := by decide
  rw [hid, htype]
  omega

/-- The request of the `k`-th call. -/
def requestAt (oneway : Bool) (k : Nat) : CustomRequest :=
  (requests junk oneway benchmark (startReqs junk oneway)).getD k
    ((startReqs junk oneway).entry (newRequest junk)
      (BitVec.ofNat 32 (ReqSize.size100.value oneway)))

theorem requestAt_eq (oneway : Bool) (k : Nat) : requestAt junk oneway k =
    (startReqs junk oneway).entry (newRequest junk)
      (BitVec.ofNat 32 ((sizeAt k).value oneway)) := by
  rw [requestAt, requests_eq, List.getD_eq_getElem?_getD, List.getElem?_map, sizeAt,
    List.getD_eq_getElem?_getD]
  cases (called benchmark)[k]? with
  | none => rfl
  | some s => rfl

theorem requestAt_weight_lt (oneway : Bool) (k : Nat) :
    (requestAt junk oneway k).weight < 2 ^ 31 := by
  obtain ⟨ids, types, hids, htypes, -, hplain⟩ := startReqs_entry junk oneway (sizeAt k)
  rw [requestAt_eq]
  exact hplain.weight_lt hids htypes

/-- The request of the `k`-th call, with what it takes in memory. -/
def benchmarkRequest (oneway : Bool) (k : Nat) : StoredRequest :=
  ⟨requestAt junk oneway k, requestAt_weight_lt junk oneway k⟩

/-- The server answers with an item for each pair, if the number of the pairs is one that
    it has been given a reply for. -/
def items (oneway : Bool) (k : Nat) : Nat :=
  if pairs oneway (sizeAt k) ∈ Server.benchmarkSizes then pairs oneway (sizeAt k) else 0

theorem answer_benchmarkRequest (oneway : Bool) (k : Nat) :
    Server.stored.answer (benchmarkRequest junk oneway k) =
      { mData := List.replicate (items oneway k) Server.itemText } := by
  obtain ⟨ids, types, hids, htypes, hpairs, hplain⟩ := startReqs_entry junk oneway (sizeAt k)
  have hlen : ((requestAt junk oneway k).mIds.length * (requestAt junk oneway k).mTypes.length) =
      pairs oneway (sizeAt k) := by
    rw [requestAt_eq, hplain.mIds, hplain.mTypes, List.length_replicate, List.length_replicate,
      hpairs]
  have hlt : pairs oneway (sizeAt k) < 2 ^ 32 := by
    cases oneway <;> cases sizeAt k <;> decide
  rw [StoredTable.answer, CustomRequest.itemsc]
  show (Server.startTable (BitVec.ofNat 32 ((requestAt junk oneway k).mIds.length *
    (requestAt junk oneway k).mTypes.length))).getD CustomResponse.new = _
  rw [hlen, Server.startTable_apply hlt, items]
  split_ifs with hsize
  · rfl
  · rfl

/-- Without `-o` there is an item for each pair. -/
theorem items_twoWay (k : Nat) : items false k = pairs false (sizeAt k) := by
  have hsizes : ∀ s, pairs false s ∈ Server.benchmarkSizes := by
    intro s
    cases s <;> decide
  rw [items, if_pos (hsizes (sizeAt k))]

end Requests

end Client

end IpcWin.Native
