/-
  IpcWin.Wire.Format

  The byte layout that the request and response objects are translated to, in
  its own terms: what an encoder lays out, and what a decoder can make of an
  arbitrary byte string.  No language and no buffer appears here; the native
  and the managed code are both compared with this module.

  A request is five 32-bit words (size of the id section, number of ids, size
  of the type section, number of types, size of the name), the id strings, the
  type strings, and the name, every string followed by a NUL byte.  A response
  is one word (number of items) and the item strings.
-/

import IpcWin.Lib.LittleEndian
import IpcWin.Lib.Segments

namespace IpcWin.Wire

open IpcWin.Lib

/-- A 32-bit word: `int`, `long` and `size_t` of the Win32 target, and C# `int`. -/
abbrev Word := BitVec 32

/-- The byte that ends a string. -/
def nul : Byte := 0

/-! ## Words -/

/-- The four bytes of a word in memory. -/
def intBytes (x : Word) : List Byte := wordBytes 4 x

/-- The word that the four bytes hold. -/
def bytesInt (bs : List Byte) : Word := bytesWord 4 bs

@[simp] theorem intBytes_length (x : Word) : (intBytes x).length = 4 :=
  wordBytes_length (w := 4) x

@[simp] theorem bytesInt_intBytes (x : Word) : bytesInt (intBytes x) = x :=
  bytesWord_wordBytes (w := 4) x

theorem intBytes_bytesInt {bs : List Byte} (h : bs.length = 4) : intBytes (bytesInt bs) = bs :=
  wordBytes_bytesWord h

theorem intBytes_injective : Function.Injective intBytes := wordBytes_injective (w := 4)

/-- How often the body of `for (i = 0; i < n; i++)` runs; never for negative `n`. -/
def loopCount (n : Word) : Nat := n.toInt.toNat

/-- A count below `2 ^ 31` survives its conversion to `int`. -/
theorem loopCount_ofNat {n : Nat} (h : n < 2 ^ 31) : loopCount (BitVec.ofNat 32 n) = n := by
  have hmod : n % 2 ^ 32 = n := Nat.mod_eq_of_lt (by omega)
  simp only [loopCount, BitVec.toInt_eq_toNat_cond, BitVec.toNat_ofNat, hmod]
  rw [if_pos (by omega)]
  omega

/-- A non-negative `int` converted to `size_t` keeps its value. -/
theorem toNat_ofNat_of_lt {n : Nat} (h : n < 2 ^ 31) : (BitVec.ofNat 32 n).toNat = n := by
  simp only [BitVec.toNat_ofNat]
  exact Nat.mod_eq_of_lt (by omega)

theorem toInt_ofNat_of_lt {n : Nat} (h : n < 2 ^ 31) : (BitVec.ofNat 32 n).toInt = n := by
  have hmod : n % 2 ^ 32 = n := Nat.mod_eq_of_lt (by omega)
  simp only [BitVec.toInt_eq_toNat_cond, BitVec.toNat_ofNat, hmod]
  rw [if_pos (by omega)]

/-! ## Layout -/

/-- The size of a section: every string takes its bytes and one terminator. -/
def sectionLength (ss : List (List Byte)) : Nat := (terminated nul ss).length

@[simp] theorem sectionLength_nil : sectionLength [] = 0 := rfl

@[simp] theorem length_terminated (ss : List (List Byte)) :
    (terminated nul ss).length = sectionLength ss := rfl

@[simp] theorem sectionLength_cons (s : List Byte) (ss : List (List Byte)) :
    sectionLength (s :: ss) = s.length + 1 + sectionLength ss := by
  simp only [sectionLength, terminated_cons, List.length_append, List.length_cons]
  omega

/-- The five header words of a request, in the order of the wire. -/
structure RequestHeader where
  idss : Word
  cids : Word
  typess : Word
  ctypes : Word
  ns : Word
deriving DecidableEq, Repr

/-- The twenty header bytes. -/
def RequestHeader.bytes (h : RequestHeader) : List Byte :=
  intBytes h.idss ++ intBytes h.cids ++ intBytes h.typess ++ intBytes h.ctypes ++ intBytes h.ns

@[simp] theorem RequestHeader.bytes_length (h : RequestHeader) : h.bytes.length = 20 := by
  simp [RequestHeader.bytes]

/-- The header that describes a request. -/
def requestHeader (ids types : List (List Byte)) (name : List Byte) : RequestHeader where
  idss := BitVec.ofNat 32 (sectionLength ids)
  cids := BitVec.ofNat 32 ids.length
  typess := BitVec.ofNat 32 (sectionLength types)
  ctypes := BitVec.ofNat 32 types.length
  ns := BitVec.ofNat 32 (name.length + 1)

/-- The strings of a request behind its header. -/
def requestBody (ids types : List (List Byte)) (name : List Byte) : List Byte :=
  terminated nul ids ++ terminated nul types ++ (name ++ [nul])

/-- A request as it goes over the wire. -/
def requestBytes (ids types : List (List Byte)) (name : List Byte) : List Byte :=
  (requestHeader ids types name).bytes ++ requestBody ids types name

/-- The number of bytes of a request on the wire. -/
def requestLength (ids types : List (List Byte)) (name : List Byte) : Nat :=
  20 + sectionLength ids + sectionLength types + (name.length + 1)

theorem requestBytes_length (ids types : List (List Byte)) (name : List Byte) :
    (requestBytes ids types name).length = requestLength ids types name := by
  simp only [requestBytes, requestBody, requestLength, length_terminated, List.length_append,
    RequestHeader.bytes_length, List.length_cons, List.length_nil]
  omega

/-- A response as it goes over the wire. -/
def responseBytes (data : List (List Byte)) : List Byte :=
  intBytes (BitVec.ofNat 32 data.length) ++ terminated nul data

/-- The number of bytes of a response on the wire. -/
def responseLength (data : List (List Byte)) : Nat := 4 + sectionLength data

theorem responseBytes_length (data : List (List Byte)) :
    (responseBytes data).length = responseLength data := by
  simp [responseBytes, responseLength]

/-- A section is at least as long as it has strings. -/
theorem length_le_sectionLength (ss : List (List Byte)) : ss.length ≤ sectionLength ss := by
  induction ss with
  | nil => simp
  | cons s ss ih =>
      simp only [List.length_cons, sectionLength_cons]
      omega

/-- A run of strings that is cut off at an offset ends a section further on. -/
theorem drop_of_takeSegments {n k : Nat} {p r : List Byte} {ss : List (List Byte)}
    (h : takeSegments nul n (p.drop k) = some (ss, r)) : p.drop (k + sectionLength ss) = r := by
  rw [← List.drop_drop, (takeSegments_eq_some_iff.mp h).2.2,
    List.drop_left' (length_terminated ss)]

theorem length_of_takeSegments {n k : Nat} {p r : List Byte} {ss : List (List Byte)}
    (h : takeSegments nul n (p.drop k) = some (ss, r)) (hk : k ≤ p.length) :
    k + sectionLength ss + r.length = p.length := by
  have hsum := congrArg List.length (takeSegments_eq_some_iff.mp h).2.2
  simp only [List.length_drop, List.length_append, length_terminated] at hsum
  omega

/-! ## Splitting arbitrary bytes -/

/-- The header words that the first twenty bytes hold. -/
def headerAt (p : List Byte) : RequestHeader where
  idss := bytesInt (p.take 4)
  cids := bytesInt ((p.drop 4).take 4)
  typess := bytesInt ((p.drop 8).take 4)
  ctypes := bytesInt ((p.drop 12).take 4)
  ns := bytesInt ((p.drop 16).take 4)

/-- The header is read back from in front of any bytes. -/
theorem headerAt_bytes_append (h : RequestHeader) (r : List Byte) :
    headerAt (h.bytes ++ r) = h := by
  have hsplit : h.bytes ++ r = intBytes h.idss ++ (intBytes h.cids ++ (intBytes h.typess ++
      (intBytes h.ctypes ++ (intBytes h.ns ++ r)))) := by
    simp [RequestHeader.bytes]
  have hdrop : ∀ (x : Word) (l : List Byte), (intBytes x ++ l).drop 4 = l :=
    fun x l => List.drop_left' (intBytes_length x)
  have htake : ∀ (x : Word) (l : List Byte), (intBytes x ++ l).take 4 = intBytes x :=
    fun x l => List.take_left' (intBytes_length x)
  have h8 : ∀ l : List Byte, l.drop 8 = (l.drop 4).drop 4 := fun l => by rw [List.drop_drop]
  have h12 : ∀ l : List Byte, l.drop 12 = (l.drop 8).drop 4 := fun l => by rw [List.drop_drop]
  have h16 : ∀ l : List Byte, l.drop 16 = (l.drop 12).drop 4 := fun l => by rw [List.drop_drop]
  rw [hsplit]
  simp only [headerAt, h16, h12, h8, hdrop, htake, bytesInt_intBytes]

/-- A byte string cut into a request's header, ids and types, and what is left
    for the name; `none` when the bytes end before the last counted NUL. -/
def splitRequest (p : List Byte) :
    Option (RequestHeader × List (List Byte) × List (List Byte) × List Byte) :=
  if 20 ≤ p.length then
    (takeSegments nul (loopCount (headerAt p).cids) (p.drop 20)).bind fun q =>
      (takeSegments nul (loopCount (headerAt p).ctypes) q.2).map fun q' =>
        (headerAt p, q.1, q'.1, q'.2)
  else none

/-- A byte string cut into a response's items and what is left behind them. -/
def splitResponse (p : List Byte) : Option (List (List Byte) × List Byte) :=
  if 4 ≤ p.length then takeSegments nul (loopCount (bytesInt (p.take 4))) (p.drop 4)
  else none

/-- A request is split the same whatever follows it. -/
theorem splitRequest_requestBytes {ids types : List (List Byte)} {name : List Byte}
    (hids : ∀ s ∈ ids, nul ∉ s) (htypes : ∀ s ∈ types, nul ∉ s)
    (hcids : ids.length < 2 ^ 31) (hctypes : types.length < 2 ^ 31) (r : List Byte) :
    splitRequest (requestBytes ids types name ++ r) =
      some (requestHeader ids types name, ids, types, name ++ nul :: r) := by
  have hbytes : requestBytes ids types name ++ r =
      (requestHeader ids types name).bytes ++
        (terminated nul ids ++ (terminated nul types ++ (name ++ nul :: r))) := by
    simp [requestBytes, requestBody]
  have hlen : 20 ≤ (requestBytes ids types name ++ r).length := by
    simp only [hbytes, List.length_append, RequestHeader.bytes_length]
    omega
  rw [splitRequest, if_pos hlen, hbytes, headerAt_bytes_append,
    List.drop_left' (RequestHeader.bytes_length _)]
  simp only [requestHeader, loopCount_ofNat hcids, loopCount_ofNat hctypes,
    takeSegments_append hids, takeSegments_append htypes, Option.bind_some, Option.map_some]

/-- Two counted loops of segments succeed exactly when one loop of both counts does. -/
theorem splitRequest_isSome_iff {p : List Byte} :
    (splitRequest p).isSome ↔
      20 ≤ p.length ∧
        loopCount (headerAt p).cids + loopCount (headerAt p).ctypes ≤ (p.drop 20).count nul := by
  by_cases hlen : 20 ≤ p.length
  · rw [splitRequest, if_pos hlen, ← takeSegments_isSome_iff, takeSegments_add]
    cases takeSegments nul (loopCount (headerAt p).cids) (p.drop 20) with
    | none => simp
    | some q => simp [hlen]
  · simp [splitRequest, hlen]

/-- What a successful split says about the bytes. -/
theorem splitRequest_eq_some {p rest : List Byte} {h : RequestHeader}
    {ids types : List (List Byte)} (hsplit : splitRequest p = some (h, ids, types, rest)) :
    20 ≤ p.length ∧ h = headerAt p ∧
      takeSegments nul (loopCount h.cids) (p.drop 20) = some (ids, terminated nul types ++ rest) ∧
      takeSegments nul (loopCount h.ctypes) (terminated nul types ++ rest) = some (types, rest) := by
  by_cases hlen : 20 ≤ p.length
  · rw [splitRequest, if_pos hlen] at hsplit
    obtain ⟨q, hq, hmap⟩ := Option.bind_eq_some_iff.mp hsplit
    obtain ⟨q', hq', heq⟩ := Option.map_eq_some_iff.mp hmap
    simp only [Prod.mk.injEq] at heq
    obtain ⟨rfl, rfl, rfl, rfl⟩ := heq
    have hmid : q.2 = terminated nul q'.1 ++ q'.2 := (takeSegments_eq_some_iff.mp hq').2.2
    refine ⟨hlen, rfl, ?_, ?_⟩
    · rw [← hmid]
      exact hq
    · rw [← hmid]
      exact hq'
  · simp [splitRequest, hlen] at hsplit

/-- The bytes left for the name stand behind the last counted NUL. -/
theorem splitRequest_rest {p rest : List Byte} {h : RequestHeader}
    {ids types : List (List Byte)} (hsplit : splitRequest p = some (h, ids, types, rest)) :
    rest = dropSegments nul (loopCount h.cids + loopCount h.ctypes) (p.drop 20) := by
  -- the ids and the types are cut off as one run of both counts
  obtain ⟨-, -, hids, htypes⟩ := splitRequest_eq_some hsplit
  have hboth : takeSegments nul (loopCount h.cids + loopCount h.ctypes) (p.drop 20) =
      some (ids ++ types, rest) := by
    rw [takeSegments_add, hids, Option.bind_some, htypes, Option.map_some]
  exact (dropSegments_of_takeSegments hboth).symm

/-- A response is split the same whatever follows it. -/
theorem splitResponse_responseBytes {data : List (List Byte)}
    (hdata : ∀ s ∈ data, nul ∉ s) (hcount : data.length < 2 ^ 31) (r : List Byte) :
    splitResponse (responseBytes data ++ r) = some (data, r) := by
  have hbytes : responseBytes data ++ r =
      intBytes (BitVec.ofNat 32 data.length) ++ (terminated nul data ++ r) := by
    simp [responseBytes]
  have hlen : 4 ≤ (responseBytes data ++ r).length := by
    simp only [hbytes, List.length_append, intBytes_length]
    omega
  rw [splitResponse, if_pos hlen, hbytes, List.take_left' (intBytes_length _),
    List.drop_left' (intBytes_length _), bytesInt_intBytes, loopCount_ofNat hcount]
  exact takeSegments_append hdata r

/-- What a successful split of a response says about the bytes. -/
theorem splitResponse_eq_some {p rest : List Byte} {data : List (List Byte)}
    (hsplit : splitResponse p = some (data, rest)) :
    4 ≤ p.length ∧
      takeSegments nul (loopCount (bytesInt (p.take 4))) (p.drop 4) = some (data, rest) := by
  by_cases hlen : 4 ≤ p.length
  · rw [splitResponse, if_pos hlen] at hsplit
    exact ⟨hlen, hsplit⟩
  · simp [splitResponse, hlen] at hsplit

theorem splitResponse_isSome_iff {p : List Byte} :
    (splitResponse p).isSome ↔
      4 ≤ p.length ∧ loopCount (bytesInt (p.take 4)) ≤ (p.drop 4).count nul := by
  by_cases hlen : 4 ≤ p.length
  · rw [splitResponse, if_pos hlen, takeSegments_isSome_iff]
    simp [hlen]
  · simp [splitResponse, hlen]

end IpcWin.Wire
