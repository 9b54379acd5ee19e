/-
  IpcWin.Native.Bounds

  Which packets the native decoders read without leaving them.

  The callers know the length of a packet and do not pass it on, so the header
  words of the packet alone decide how far the reads go.  They stay inside
  exactly when the packet is well formed: the header is there, the packet holds
  the counted NULs, and the name's length is neither negative nor more than
  what is left (`RequestInBounds`, `ResponseInBounds`).
-/

import IpcWin.Native.Builders

namespace IpcWin.Native

open IpcWin.Lib IpcWin.Wire

/-- The packet's own words keep the request decoder inside it. -/
def RequestInBounds (p : List Byte) : Prop :=
  20 ≤ p.length ∧
    loopCount (headerAt p).cids + loopCount (headerAt p).ctypes ≤ (p.drop 20).count nul ∧
    0 ≤ (headerAt p).ns.toInt ∧
    (headerAt p).ns.toInt ≤ (dropSegments nul
      (loopCount (headerAt p).cids + loopCount (headerAt p).ctypes) (p.drop 20)).length

instance (p : List Byte) : Decidable (RequestInBounds p) :=
  inferInstanceAs (Decidable (_ ∧ _))

/-- The packet's own count keeps the response decoder inside it. -/
def ResponseInBounds (p : List Byte) : Prop :=
  4 ≤ p.length ∧ loopCount (bytesInt (p.take 4)) ≤ (p.drop 4).count nul

instance (p : List Byte) : Decidable (ResponseInBounds p) :=
  inferInstanceAs (Decidable (_ ∧ _))

/-- A raw read left the packet. -/
def LeavesPacket {α : Type} (x : Except Fault α) : Prop :=
  x = .error .readPast ∨ x = .error .negativeLength

/-- A non-negative word is at most `n` as an `int` when it is as a `size_t`. -/
theorem toInt_le_iff_toNat_le {x : Word} (hx : 0 ≤ x.toInt) (n : Nat) :
    x.toInt ≤ n ↔ x.toNat ≤ n := by
  rw [BitVec.toInt_eq_toNat_cond] at hx ⊢
  have hlt := x.isLt
  split at hx <;> rename_i hhalf
  · rw [if_pos hhalf]
    omega
  · omega

/-- The request decoder fails only by leaving the packet, and does so exactly on
    the packets that are not in bounds. -/
theorem CustomRequest.leavesPacket_fromArray_iff (d : CustomRequest) (p : List Byte) :
    LeavesPacket (d.fromArray p) ↔ ¬ RequestInBounds p := by
  rw [LeavesPacket, fromArray_eq]
  cases hsplit : splitRequest p with
  | none =>
      -- the header or a counted NUL is missing, and a read runs off the end
      have hnone : ¬ (splitRequest p).isSome := by simp [hsplit]
      rw [splitRequest_isSome_iff] at hnone
      have hout : ¬ RequestInBounds p := fun h => hnone ⟨h.1, h.2.1⟩
      simp [hout]
  | some q =>
      obtain ⟨h, ids, types, rest⟩ := q
      -- the sections are there, so all that is left to check is the name
      obtain ⟨hlen, rfl, -, -⟩ := splitRequest_eq_some hsplit
      have hcount := (splitRequest_isSome_iff.mp (by rw [hsplit]; rfl)).2
      have hrest := splitRequest_rest hsplit
      have hiff : RequestInBounds p ↔
          0 ≤ (headerAt p).ns.toInt ∧ (headerAt p).ns.toInt ≤ rest.length := by
        rw [RequestInBounds, ← hrest]
        simp only [hlen, hcount, true_and]
      rw [hiff]
      by_cases hneg : (headerAt p).ns.toInt < 0
      · have hout : ¬ 0 ≤ (headerAt p).ns.toInt := by omega
        simp [hneg, hout]
      · have hpos : 0 ≤ (headerAt p).ns.toInt := by omega
        rw [toInt_le_iff_toNat_le hpos]
        by_cases hle : (headerAt p).ns.toNat ≤ rest.length
        · simp [hneg, hle, hpos]
        · simp [hneg, hle]

theorem CustomResponse.leavesPacket_fromArray_iff (d : CustomResponse) (p : List Byte) :
    LeavesPacket (d.fromArray p) ↔ ¬ ResponseInBounds p := by
  rw [LeavesPacket, fromArray_eq, ResponseInBounds, ← splitResponse_isSome_iff]
  cases splitResponse p with
  | none => simp
  | some q => simp

/-- Building a reply touches no packet: it fails for want of a block, or by
    leaving the block it has. -/
theorem CustomResponse.not_leavesPacket_encode (junk : Nat → Byte) (r : CustomResponse) :
    ¬ LeavesPacket (r.encode junk) := by
  have herr : ∀ e, r.encode junk = .error e → e = .nullBuffer ∨ e = .writePast := by
    intro e he
    unfold encode at he
    cases hdata : malloc junk r.getSize with
    | none =>
        simp only [hdata, Except.error.injEq] at he
        exact .inl he.symm
    | some data =>
        simp only [hdata] at he
        cases ho : r.toArray data r.getSize with
        | ok o => simp [ho, Except.map] at he
        | error e' =>
            simp only [ho, Except.map, Except.error.injEq] at he
            subst he
            rcases bind_eq_error.mp ho with hput | ⟨o, -, hrest⟩
            · exact .inr (OutBuf.put_eq_error hput)
            · exact .inr (OutBuf.putStrings_eq_error hrest)
  rintro (h | h)
  · exact absurd (herr _ h) (by decide)
  · exact absurd (herr _ h) (by decide)

/-- The server's builder leaves the packet exactly when its decoding does. -/
theorem Server.leavesPacket_respObj_iff (junk : Nat → Byte) (i t : Word) (table : RespTable)
    (requestPacket : Word) (p : List Byte) :
    LeavesPacket (respObj junk i t table requestPacket p) ↔
      LeavesPacket ((CustomRequest.new i t).fromArray p) := by
  cases hdec : (CustomRequest.new i t).fromArray p with
  | error e => simp [respObj, hdec, LeavesPacket, bind, Except.bind]
  | ok q =>
      have hok : ¬ LeavesPacket (.ok q : Except Fault (CustomRequest × Word)) := by
        simp [LeavesPacket]
      simp only [hok, iff_false]
      -- behind the decoding only the table and the reply buffer are touched
      intro hleave
      simp only [respObj, hdec, bind, Except.bind] at hleave
      generalize (Table.lookup noItems table (BitVec.ofNat 32 q.1.mTypes.length *
        BitVec.ofNat 32 q.1.mIds.length)) = l at hleave
      cases henc : l.1.encode junk with
      | error e =>
          simp only [henc] at hleave
          apply CustomResponse.not_leavesPacket_encode junk l.1
          rw [henc]
          simpa [LeavesPacket] using hleave
      | ok data => simp [henc, LeavesPacket, pure, Except.pure] at hleave

/-- The two builders of object mode stay inside the packets they are given, the
    server's inside a request `p` and the client's inside a response `q`, exactly
    when the packet's own words keep them there. -/
theorem respObj_inBounds_iff (junk : Nat → Byte) (i t : Word) (table : Server.RespTable)
    (requestPacket size : Word) (p q : List Byte) :
    (¬ LeavesPacket (Server.respObj junk i t table requestPacket p) ↔ RequestInBounds p) ∧
      (¬ LeavesPacket (Client.respObj size q) ↔ ResponseInBounds q) := by
  refine ⟨?_, ?_⟩
  · rw [Server.leavesPacket_respObj_iff, CustomRequest.leavesPacket_fromArray_iff, not_not]
  · have hdec := CustomResponse.leavesPacket_fromArray_iff CustomResponse.new q
    rw [← not_iff_not, not_not, ← hdec]
    cases h : CustomResponse.new.fromArray q with
    | error e => simp [Client.respObj, h, LeavesPacket, bind, Except.bind]
    | ok r => simp [Client.respObj, h, LeavesPacket, bind, Except.bind, pure, Except.pure]

/-- A request packet that announces one id and ends before the NUL of its name. -/
def unterminatedRequest : List Byte :=
  (RequestHeader.mk 2 1 0 0 1).bytes ++ [0x41, 0x42]

/-- A response packet of a count alone. -/
def bareCountResponse : List Byte := [1, 0, 0, 0]

/-- Both builders read on behind the end of such packets, although they are told
    the length. -/
theorem respObj_leavesPacket :
    LeavesPacket (Server.respObj (fun _ => 0) 0 0 (fun _ => none) 22 unterminatedRequest) ∧
      LeavesPacket (Client.respObj 4 bareCountResponse) := by
  refine ⟨.inl ?_, .inl ?_⟩
  · rfl
  · rfl

end IpcWin.Native
