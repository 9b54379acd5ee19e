/-
  IpcWin.Protobuf.Merging

  One message behind the other: what the generated parsers make of an array that
  begins with a whole message.

  The loop of a message goes field by field (`round`).  A field that has been read
  is read the same whatever stands behind it (`round_append`), so the loop over two
  arrays is the loop over the first and then, from the message it has come to, the
  loop over the second (`mergeLoop_append`); and going on from a message is merging
  into it what a new message would have become (`mergeLoop_merge`).
-/

import IpcWin.Protobuf.Messages

namespace IpcWin.Protobuf

open IpcWin.Lib IpcWin.Wire

/-! ## What has been read is read the same with more behind it -/

theorem readBase128_append {w n : Nat} {bs rest : List Byte}
    (h : readBase128 w bs = some (n, rest)) (r : List Byte) :
    readBase128 w (bs ++ r) = some (n, rest ++ r) ∧ rest.length < bs.length := by
  induction w generalizing n bs with
  | zero => simp [readBase128] at h
  | succ w ih =>
      cases bs with
      | nil => simp [readBase128] at h
      | cons b bs =>
          rw [List.cons_append, readBase128]
          rw [readBase128] at h
          split_ifs at h ⊢ with hb
          · obtain ⟨rfl, rfl⟩ := Prod.mk.inj (Option.some.inj h)
            exact ⟨rfl, by simp⟩
          · obtain ⟨⟨k, rest'⟩, hq, heq⟩ := Option.map_eq_some_iff.mp h
            obtain ⟨rfl, rfl⟩ := Prod.mk.inj heq
            obtain ⟨happ, hlt⟩ := ih hq
            refine ⟨by rw [happ]; rfl, ?_⟩
            rw [List.length_cons]
            exact Nat.lt_succ_of_lt hlt

theorem readVarint32_append {x : Word} {bs rest : List Byte}
    (h : readVarint32 bs = some (x, rest)) (r : List Byte) :
    readVarint32 (bs ++ r) = some (x, rest ++ r) ∧ rest.length < bs.length := by
  obtain ⟨⟨n, rest'⟩, hn, heq⟩ := Option.map_eq_some_iff.mp h
  obtain ⟨rfl, rfl⟩ := Prod.mk.inj heq
  obtain ⟨happ, hlt⟩ := readBase128_append hn r
  exact ⟨by rw [readVarint32, happ]; rfl, hlt⟩

/-- A tag that is not zero has been read. -/
theorem readTag_append {bs : List Byte} (h : (readTag bs).1 ≠ 0) (r : List Byte) :
    readTag (bs ++ r) = ((readTag bs).1, (readTag bs).2 ++ r) ∧
      (readTag bs).2.length < bs.length := by
  cases hq : readVarint32 bs with
  | none => simp [readTag, hq] at h
  | some q =>
      obtain ⟨x, rest⟩ := q
      obtain ⟨happ, hlt⟩ := readVarint32_append hq r
      rw [readTag, readTag, hq, happ]
      exact ⟨rfl, hlt⟩

/-- A block of `n` bytes that is there is there with more behind it. -/
theorem drop_append {n : Nat} {bs : List Byte} (h : n ≤ bs.length) (r : List Byte) :
    n ≤ (bs ++ r).length ∧ (bs ++ r).drop n = bs.drop n ++ r ∧
      (bs.drop n).length ≤ bs.length := by
  refine ⟨?_, List.drop_append_of_le_length h, by simp⟩
  rw [List.length_append]
  exact h.trans (Nat.le_add_right _ _)

theorem readBytes_append {size : Word} {bs s rest : List Byte}
    (h : readBytes size bs = (s, some rest)) (r : List Byte) :
    readBytes size (bs ++ r) = (s, some (rest ++ r)) ∧ rest.length ≤ bs.length := by
  unfold readBytes at h
  split_ifs at h with hneg hle
  · cases h
  · obtain ⟨rfl, hrest⟩ := Prod.mk.inj h
    obtain rfl := Option.some.inj hrest
    obtain ⟨hle', hdrop, hlen⟩ := drop_append hle r
    rw [readBytes, if_neg hneg, if_pos hle', List.take_append_of_le_length hle, hdrop]
    exact ⟨rfl, hlen⟩
  · cases h

theorem readString_append {bs s rest : List Byte} (h : readString bs = (s, some rest))
    (r : List Byte) :
    readString (bs ++ r) = (s, some (rest ++ r)) ∧ rest.length ≤ bs.length := by
  rw [readString] at h ⊢
  split at h
  · cases h
  · rename_i size bs' hsize
    obtain ⟨hvar, hlt⟩ := readVarint32_append hsize r
    obtain ⟨hbytes, hle⟩ := readBytes_append h r
    rw [hvar]
    exact ⟨hbytes, hle.trans hlt.le⟩

/-- The tag that ends a group is not zero. -/
theorem makeTag_endGroup_ne (tag : Word) : makeTag (fieldNumber tag) 4 ≠ 0 := by
  intro hzero
  have hlt : tag.toNat < 2 ^ 32 := tag.isLt
  have hnat := congrArg BitVec.toNat hzero
  have hnil : (0 : Word).toNat = 0 := rfl
  rw [makeTag, BitVec.toNat_ofNat, hnil, fieldNumber] at hnat
  omega

/-- A field that is skipped with `fuel` is skipped with more behind it and more fuel. -/
def FieldStable (fuel : Nat) : Prop :=
  ∀ fuel' depth tag bs rest, fuel ≤ fuel' → skipField fuel depth tag bs = some rest → ∀ r,
    skipField fuel' depth tag (bs ++ r) = some (rest ++ r) ∧ rest.length ≤ bs.length

/-- The fields of a group that are skipped with `fuel`, up to the tag that ends it. -/
def GroupStable (fuel : Nat) : Prop :=
  ∀ fuel' depth last bs rest, fuel ≤ fuel' → last ≠ 0 →
    skipMessage fuel depth bs = some (last, rest) → ∀ r,
      skipMessage fuel' depth (bs ++ r) = some (last, rest ++ r) ∧ rest.length ≤ bs.length

theorem FieldStable.succ {fuel : Nat} (hgroup : GroupStable fuel) : FieldStable (fuel + 1) := by
  intro fuel' depth tag bs rest hfuel h r
  -- the group ends with its own tag, or begins with a field and goes on behind it
  obtain ⟨fuel', rfl⟩ : ∃ n, fuel' = n + 1 := ⟨fuel' - 1, by omega⟩
  rw [skipField] at h ⊢
  split at h
  · -- a varint
    obtain ⟨⟨n, rest'⟩, hn, rfl⟩ := Option.map_eq_some_iff.mp h
    obtain ⟨happ, hlt⟩ := readBase128_append hn r
    simp only [happ, Option.map_some]
    exact ⟨trivial, hlt.le⟩
  · -- eight bytes
    split_ifs at h with hle
    obtain rfl := Option.some.inj h
    obtain ⟨hle', hdrop, hlen⟩ := drop_append hle r
    simp only [if_pos hle', hdrop]
    exact ⟨trivial, hlen⟩
  · -- a string
    have hread : readString bs = ((readString bs).1, some rest) := Prod.ext rfl h
    obtain ⟨happ, hlen⟩ := readString_append hread r
    simp only [happ]
    exact ⟨trivial, hlen⟩
  · -- a group
    split_ifs at h with hdepth
    obtain ⟨⟨last, rest'⟩, hskip, hend⟩ := Option.bind_eq_some_iff.mp h
    split_ifs at hend with hlast
    obtain rfl := Option.some.inj hend
    have hlast' : last = makeTag (fieldNumber tag) 4 := hlast
    obtain ⟨happ, hlen⟩ := hgroup fuel' (depth + 1) last bs rest' (Nat.le_of_succ_le_succ hfuel)
      (hlast' ▸ makeTag_endGroup_ne tag) hskip r
    simp only [if_pos hdepth, happ, Option.bind_some, if_pos hlast']
    exact ⟨trivial, hlen⟩
  · -- four bytes
    split_ifs at h with hle
    obtain rfl := Option.some.inj h
    obtain ⟨hle', hdrop, hlen⟩ := drop_append hle r
    simp only [if_pos hle', hdrop]
    exact ⟨trivial, hlen⟩
  · cases h

theorem GroupStable.succ {fuel : Nat} (hfield : FieldStable fuel) (hgroup : GroupStable fuel) :
    GroupStable (fuel + 1) := by
  intro fuel' depth last bs rest hfuel hne h r
  obtain ⟨fuel', rfl⟩ : ∃ n, fuel' = n + 1 := ⟨fuel' - 1, by omega⟩
  have hle := Nat.le_of_succ_le_succ hfuel
  rw [skipMessage] at h ⊢
  by_cases hzero : (readTag bs).1 = 0
  · simp only [hzero, if_true, Option.some.injEq] at h
    exact absurd (hzero ▸ congrArg Prod.fst h).symm hne
  · obtain ⟨htag, hlt⟩ := readTag_append hzero r
    simp only [hzero, if_false, htag] at h ⊢
    by_cases hend : wireType (readTag bs).1 = 4
    · rw [if_pos hend] at h ⊢
      have hq := Option.some.inj h
      rw [← show (readTag bs).2 = rest from congrArg Prod.snd hq,
        ← show (readTag bs).1 = last from congrArg Prod.fst hq]
      exact ⟨rfl, hlt.le⟩
    · rw [if_neg hend] at h ⊢
      obtain ⟨rest', hskip, hmore⟩ := Option.bind_eq_some_iff.mp h
      obtain ⟨happ, hlen⟩ := hfield fuel' depth _ _ _ hle hskip r
      obtain ⟨happ', hlen'⟩ := hgroup fuel' depth _ _ _ hle hne hmore r
      rw [happ, Option.bind_some]
      exact ⟨happ', hlen'.trans (hlen.trans hlt.le)⟩

theorem stable (fuel : Nat) : FieldStable fuel ∧ GroupStable fuel := by
  induction fuel with
  | zero =>
      refine ⟨?_, ?_⟩
      · intro fuel' depth tag bs rest _ h
        simp [skipField] at h
      · intro fuel' depth last bs rest _ _ h
        simp [skipMessage] at h
  | succ fuel ih => exact ⟨.succ ih.2, .succ ih.1 ih.2⟩

/-! ## The rounds of the loop -/

/-- What a round of the loop comes to: it goes on behind a field with what the field does to
    the message, or returns. -/
inductive Round (M : Type) where
  | next (put : M → M) (rest : List Byte)
  | done (ok atEnd : Bool) (put : M → M)

/-- What a field with this tag puts into the message, if it is a string that the message
    knows. -/
def known {M : Type} (set : Nat → Option (M → List Byte → M)) (tag : Word) :
    Option (M → List Byte → M) :=
  if wireType tag = 2 then set (fieldNumber tag) else none

/-- The round of the loop that begins at `bs`. -/
def round {M : Type} (set : Nat → Option (M → List Byte → M)) (bs : List Byte) : Round M :=
  let q := readTag bs
  if q.1 = 0 then .done true bs.isEmpty id
  else
    match known set q.1 with
    | some put =>
        match readString q.2 with
        | (s, some rest) => .next (fun m => put m s) rest
        | (s, none) => .done false false fun m => put m s
    | none =>
        if wireType q.1 = 4 then .done true false id
        else
          match skipField (2 * bs.length + 2) 0 q.1 q.2 with
          | some rest => .next id rest
          | none => .done false false id

section Rounds

variable {M : Type} {set : Nat → Option (M → List Byte → M)} {bs rest : List Byte} {put : M → M}

theorem mergeLoop_succ (fuel : Nat) (m : M) (bs : List Byte) :
    mergeLoop set (fuel + 1) m bs =
      match round set bs with
      | .next put rest => mergeLoop set fuel (put m) rest
      | .done ok atEnd put => { ok := ok, atEnd := atEnd, msg := put m } := by
  rw [mergeLoop, round]
  by_cases hzero : (readTag bs).1 = 0
  · simp only [hzero, if_true, id]
  · simp only [hzero, if_false]
    split
    · rename_i put hset hwire
      rw [known, if_pos hwire, hset]
      rcases hread : readString (readTag bs).2 with ⟨s, rest⟩
      cases rest <;> rfl
    · rename_i hwire
      rw [known, if_neg (by omega), if_pos hwire]
      rfl
    · rename_i hgroup hknown
      have hnone : known set (readTag bs).1 = none := by
        rw [known]
        split_ifs with hwire
        · cases hset : set (fieldNumber (readTag bs).1) with
          | none => rfl
          | some put => exact absurd hwire (hknown put hset)
        · rfl
      rw [hnone, if_neg hgroup]
      cases hskip : skipField (2 * bs.length + 2) 0 (readTag bs).1 (readTag bs).2 <;> rfl

/-- A field that was read is read with more behind it, and has taken a byte at least. -/
theorem round_append (h : round set bs = .next put rest) (r : List Byte) :
    round set (bs ++ r) = .next put (rest ++ r) ∧ rest.length < bs.length := by
  rw [round] at h ⊢
  by_cases hzero : (readTag bs).1 = 0
  · simp only [hzero, if_true] at h
    cases h
  · obtain ⟨htag, hlt⟩ := readTag_append hzero r
    simp only [hzero, if_false, htag] at h ⊢
    cases hknown : known set (readTag bs).1 with
    | some f =>
        simp only [hknown] at h ⊢
        split at h
        · rename_i s rest' hread
          obtain ⟨rfl, rfl⟩ := Round.next.inj h
          obtain ⟨happ, hle⟩ := readString_append hread r
          rw [happ]
          exact ⟨rfl, hle.trans_lt hlt⟩
        · cases h
    | none =>
        simp only [hknown] at h ⊢
        split_ifs at h ⊢ with hgroup
        split at h
        · rename_i rest' hskip
          obtain ⟨rfl, rfl⟩ := Round.next.inj h
          -- `skipField` has more fuel for the longer array, which makes no difference
          have hfuel : 2 * bs.length + 2 ≤ 2 * (bs ++ r).length + 2 := by
            rw [List.length_append]
            omega
          obtain ⟨happ, hle⟩ := (stable _).1 _ _ _ _ _ hfuel hskip r
          rw [happ]
          exact ⟨rfl, hle.trans_lt hlt⟩
        · cases h

/-- The loop ends at the end of the array only where there is nothing left. -/
theorem round_atEnd {ok : Bool} (h : round set bs = .done ok true put) :
    bs = [] ∧ ok = true ∧ put = id := by
  rw [round] at h
  by_cases hzero : (readTag bs).1 = 0
  · simp only [hzero, if_true] at h
    obtain ⟨hok, hend, hput⟩ := Round.done.inj h
    exact ⟨List.isEmpty_iff.mp hend, hok.symm, hput.symm⟩
  · simp only [hzero, if_false] at h
    split at h
    · split at h
      · cases h
      · cases h
    · split_ifs at h
      · cases h
      · split at h
        · cases h
        · cases h

/-! ## The loop over two arrays -/

/-- With a round for every byte the loop does not run out of fuel. -/
theorem mergeLoop_fuel {fuel fuel' : Nat} (m : M) (bs : List Byte) (h : bs.length < fuel)
    (h' : bs.length < fuel') : mergeLoop set fuel m bs = mergeLoop set fuel' m bs := by
  induction fuel generalizing fuel' m bs with
  | zero => exact absurd h (Nat.not_lt_zero _)
  | succ fuel ih =>
      obtain ⟨fuel', rfl⟩ : ∃ n, fuel' = n + 1 := ⟨fuel' - 1, by omega⟩
      rw [mergeLoop_succ, mergeLoop_succ]
      cases hround : round set bs with
      | done ok atEnd put => rfl
      | next put rest =>
          obtain ⟨-, hlt⟩ := round_append hround []
          exact ih (put m) rest (by omega) (by omega)

/-- Behind an array that was taken whole the loop goes on with the message it has. -/
theorem mergeLoop_append {fuel : Nat} {m m' : M} {a : List Byte}
    (h : mergeLoop set fuel m a = { ok := true, atEnd := true, msg := m' }) (b : List Byte)
    {fuel' : Nat} (hfuel : (a ++ b).length < fuel') :
    mergeLoop set fuel' m (a ++ b) = mergeLoop set (b.length + 1) m' b := by
  induction fuel generalizing fuel' m a with
  | zero => simp [mergeLoop] at h
  | succ fuel ih =>
      -- a round of `a` is the same round with `b` behind it
      rw [mergeLoop_succ] at h
      cases hround : round set a with
      | done ok atEnd put =>
          simp only [hround, Merged.mk.injEq] at h
          obtain ⟨rfl, rfl, rfl⟩ := h
          -- the first array is at its end: the loop is where it begins on `b`
          obtain ⟨rfl, -, rfl⟩ := round_atEnd hround
          rw [List.nil_append] at hfuel ⊢
          exact mergeLoop_fuel _ b hfuel (Nat.lt_succ_self _)
      | next put rest =>
          simp only [hround] at h
          obtain ⟨happ, hlt⟩ := round_append hround b
          obtain ⟨fuel', rfl⟩ : ∃ n, fuel' = n + 1 := ⟨fuel' - 1, by omega⟩
          rw [mergeLoop_succ, happ]
          apply ih h
          rw [List.length_append] at hfuel ⊢
          omega

end Rounds

/-! ## Going on from a message -/

/-- What a round does to the message. -/
def Round.effect {M : Type} : Round M → M → M
  | .next put _ => put
  | .done _ _ put => put

/-- A string goes into a merged message as it goes into the one that is merged, and a new
    message adds nothing. -/
structure Merges {M : Type} (set : Nat → Option (M → List Byte → M)) (new : M)
    (mergeFrom : M → M → M) : Prop where
  put : ∀ number f, set number = some f → ∀ m n s, f (mergeFrom m n) s = mergeFrom m (f n s)
  new : ∀ m, mergeFrom m new = m

/-- `kDefaultTotalBytesLimit`: in a longer array the end is not always taken for that of the
    message. -/
def streamLimit : Nat := 64 * 2 ^ 20

/-- `ParseFromArray` takes the array for `m`. -/
structure Accepts {M : Type} (pb : Codec M) (bs : List Byte) (m : M) : Prop where
  short : bs.length < streamLimit
  parsed : pb.parseFromArray bs = (true, m)

section Merging

variable {M : Type} {set : Nat → Option (M → List Byte → M)} {new : M} {mergeFrom : M → M → M}

theorem Merges.effect (h : Merges set new mergeFrom) (m n : M) (bs : List Byte) :
    (round set bs).effect (mergeFrom m n) = mergeFrom m ((round set bs).effect n) := by
  rw [round]
  by_cases hzero : (readTag bs).1 = 0
  · simp only [hzero, if_true, Round.effect, id]
  · simp only [hzero, if_false]
    cases hknown : known set (readTag bs).1 with
    | some f =>
        have hset : set (fieldNumber (readTag bs).1) = some f := by
          rw [known] at hknown
          split_ifs at hknown
          exact hknown
        rcases readString (readTag bs).2 with ⟨s, rest⟩
        cases rest with
        | none => exact h.put _ f hset m n s
        | some rest => exact h.put _ f hset m n s
    | none =>
        dsimp only
        split_ifs
        · rfl
        · cases skipField (2 * bs.length + 2) 0 (readTag bs).1 (readTag bs).2 <;> rfl

/-- From a merged message the loop comes to what the merged one would have become. -/
theorem Merges.loop (h : Merges set new mergeFrom) (fuel : Nat) (m n : M) (bs : List Byte) :
    mergeLoop set fuel (mergeFrom m n) bs =
      { mergeLoop set fuel n bs with msg := mergeFrom m (mergeLoop set fuel n bs).msg } := by
  induction fuel generalizing n bs with
  | zero => rfl
  | succ fuel ih =>
      have hput := h.effect m n bs
      rw [mergeLoop_succ, mergeLoop_succ]
      cases hround : round set bs with
      | next put rest =>
          simp only [hround, Round.effect] at hput
          simp only [hput, ih]
      | done ok atEnd put =>
          simp only [hround, Round.effect] at hput
          simp only [hput]

/-- `ParsePartialFromArray`: as `ParseFromArray`, whether the message is complete or not. -/
def parsePartialFromArray (set : Nat → Option (M → List Byte → M)) (new : M) (bs : List Byte) :
    Bool × M :=
  let q := mergeLoop set (bs.length + 1) new bs
  (q.ok && q.atEnd, q.msg)

/-- What stands behind a message that is parsed is parsed into it. -/
theorem Merges.parseFromArray_append {isInitialized : M → Bool} {a : List Byte} {m : M}
    (h : Merges set new mergeFrom)
    (hinit : ∀ m n, isInitialized m = true → isInitialized (mergeFrom m n) = true)
    (ha : parseFromArray set new isInitialized a = (true, m)) (b : List Byte) :
    parseFromArray set new isInitialized (a ++ b) =
      ((parsePartialFromArray set new b).1, mergeFrom m (parsePartialFromArray set new b).2) := by
  obtain ⟨hok, hmsg⟩ := Prod.mk.inj ha
  simp only [Bool.and_eq_true] at hok
  obtain ⟨⟨hok, hcomplete⟩, hend⟩ := hok
  have hfirst : mergeLoop set (a.length + 1) new a =
      { ok := true, atEnd := true, msg := m } := by
    rcases hq : mergeLoop set (a.length + 1) new a with ⟨ok, atEnd, msg⟩
    simp only [hq] at hok hend hmsg
    rw [hok, hend, hmsg]
  rw [hmsg] at hcomplete
  have hboth := mergeLoop_append hfirst b (Nat.lt_succ_self _)
  rw [← h.new m, h.loop] at hboth
  simp only [parseFromArray, hboth, parsePartialFromArray, hinit m _ hcomplete,
    Bool.and_true]

/-- Where the array stays within the limit, it is taken for a message exactly if what stands
    behind the first one is parsed, complete or not. -/
theorem Merges.accepts_behind {isInitialized : M → Bool} {pb : Codec M} {a b : List Byte} {m m' : M}
    (h : Merges set new mergeFrom)
    (hinit : ∀ m n, isInitialized m = true → isInitialized (mergeFrom m n) = true)
    (hpb : pb.parseFromArray = parseFromArray set new isInitialized) (ha : Accepts pb a m)
    (hlen : (a ++ b).length < streamLimit) :
    Accepts pb (a ++ b) m' ↔
      ∃ n, parsePartialFromArray set new b = (true, n) ∧ m' = mergeFrom m n := by
  have hparse := h.parseFromArray_append hinit (hpb ▸ ha.parsed) b
  rcases hsecond : parsePartialFromArray set new b with ⟨ok, n⟩
  rw [hsecond, ← hpb] at hparse
  constructor
  · rintro ⟨-, hparsed⟩
    obtain ⟨rfl, rfl⟩ := Prod.mk.inj (hparse.symm.trans hparsed)
    exact ⟨n, rfl, rfl⟩
  · rintro ⟨n', hn, rfl⟩
    obtain ⟨rfl, rfl⟩ := Prod.mk.inj hn
    exact ⟨hlen, hparse⟩

end Merging

/-! ## The two messages -/

/-- `request::MergeFrom`. -/
def Request.mergeFrom (m r : Request) : Request where
  ids := m.ids ++ r.ids
  types := m.types ++ r.types
  name := match r.name with
    | some name => some name
    | none => m.name

/-- `response::MergeFrom`. -/
def Response.mergeFrom (m r : Response) : Response := { data := m.data ++ r.data }

theorem Request.merges : Merges Request.set .new Request.mergeFrom where
  put number f hf m n s := by
    rw [Request.set.eq_def] at hf
    split at hf
    · obtain rfl := Option.some.inj hf
      rfl
    · obtain rfl := Option.some.inj hf
      simp [addIds, mergeFrom]
    · obtain rfl := Option.some.inj hf
      simp [addTypes, mergeFrom]
    · cases hf
  new m := by simp [mergeFrom, Request.new]

theorem Response.merges : Merges Response.set .new Response.mergeFrom where
  put number f hf m n s := by
    rw [Response.set.eq_def] at hf
    split at hf
    · obtain rfl := Option.some.inj hf
      simp [addData, mergeFrom]
    · cases hf
  new m := by simp [mergeFrom, Response.new]

theorem Request.isInitialized_mergeFrom (m r : Request) (h : m.isInitialized = true) :
    (m.mergeFrom r).isInitialized = true := by
  rw [isInitialized, mergeFrom]
  cases r.name with
  | none => exact h
  | some name => rfl

/-- An array that begins with a request is taken for a request exactly if what stands behind
    it is parsed, complete or not, and it is then the first one with the second merged in. -/
theorem Request.accepts_append_iff {a b : List Byte} {m m' : Request}
    (ha : Accepts requestCodec a m) (hlen : (a ++ b).length < streamLimit) :
    Accepts requestCodec (a ++ b) m' ↔
      ∃ n, parsePartialFromArray Request.set .new b = (true, n) ∧ m' = m.mergeFrom n :=
  Request.merges.accepts_behind isInitialized_mergeFrom rfl ha hlen

/-- As `{ name := "n", ids := ["i"] }` is serialised. -/
def firstPart : List Byte := [0x0A, 1, 0x6E, 0x12, 1, 0x69]

/-- A type `"t"`, and a number with the tag of a later version. -/
def laterPart : List Byte := [0x1A, 1, 0x74, 0x28, 0x2A]

theorem laterPart_accepts_append_iff :
    Accepts requestCodec (firstPart ++ laterPart)
        { name := some [0x6E], ids := [[0x69]], types := [[0x74]] } ↔
      ∃ n, parsePartialFromArray Request.set .new laterPart = (true, n) ∧
        ({ name := some [0x6E], ids := [[0x69]], types := [[0x74]] } : Request) =
          Request.mergeFrom { name := some [0x6E], ids := [[0x69]], types := [] } n :=
  Request.accepts_append_iff ⟨by decide, by decide⟩ (by decide)

/-- Every response is complete, and the items of the second come behind those of the first. -/
theorem Response.accepts_second {a b : List Byte} {m m' : Response}
    (ha : Accepts responseCodec a m) (hlen : (a ++ b).length < streamLimit) :
    Accepts responseCodec (a ++ b) m' ↔
      ∃ n, Accepts responseCodec b n ∧ m' = m.mergeFrom n := by
  have hsecond : ∀ n, parsePartialFromArray Response.set .new b = (true, n) ↔
      Accepts responseCodec b n := by
    intro n
    have hlen' : b.length < streamLimit := by
      rw [List.length_append] at hlen
      omega
    have hparse : responseCodec.parseFromArray b = parsePartialFromArray Response.set .new b := by
      simp [responseCodec, parseFromArray, parsePartialFromArray, isInitialized]
    rw [← hparse]
    exact ⟨fun h => ⟨hlen', h⟩, fun h => h.parsed⟩
  rw [Response.merges.accepts_behind (fun _ _ _ => rfl) rfl ha hlen]
  simp only [hsecond]

end IpcWin.Protobuf
