/-
  IpcWin.Native.Stream

  Native messages laid end to end.  Requests and responses in any order are
  decoded one after the other, each into a new object and each at the offset
  that the sizes reported so far add up to.

  `toArray` writes every byte of the block that `getSize` asked for, once, and
  none behind it (`Message.toArray_writesEachOnce`), so that an encoding is the
  message alone.

  The step is `Message.decode_encode_append`: an encoding is decoded the same
  whatever follows it, and the size it reports is its length.  The induction
  over the stream (`decodeStream_encodings`) carries the offset at which the
  next message begins.
-/

import IpcWin.Native.Codec

namespace IpcWin.Native

open IpcWin.Lib IpcWin.Wire

/-- The two kinds of message that go over the wire. -/
inductive Kind where
  | request
  | response
deriving DecidableEq, Repr

/-- A request or a response object. -/
inductive Message where
  | request (r : CustomRequest)
  | response (r : CustomResponse)
deriving DecidableEq, Repr

namespace Message

def kind : Message → Kind
  | .request _ => .request
  | .response _ => .response

def getSize : Message → Word
  | .request r => r.getSize.1
  | .response r => r.getSize

/-- `n = m.getSize(); p = malloc(n); m.toArray(p, n);` -/
def encode (junk : Nat → Byte) : Message → Except Fault (List Byte)
  | .request r => r.encode junk
  | .response r => r.encode junk

/-- `fromArray` of the kind into a new object: the object and `*sizeP`. -/
def decode (i t : Word) (buffer : List Byte) : Kind → Except Fault (Message × Word)
  | .request => ((CustomRequest.new i t).fromArray buffer).map fun q => (.request q.1, q.2)
  | .response => (CustomResponse.new.fromArray buffer).map fun q => (.response q.1, q.2)

/-- The encoded length, as a natural. -/
def wireLength : Message → Nat
  | .request r => r.wireLength
  | .response r => r.wireLength

/-- `m.toArray(p, n);` behind `n = m.getSize();`. -/
def toArray (buffer : List Byte) : Message → Except Fault OutBuf
  | .request r => r.getSize.2.toArray buffer r.getSize.1
  | .response r => r.toArray buffer r.getSize

theorem getSize_eq (m : Message) : m.getSize = BitVec.ofNat 32 m.wireLength := by
  cases m with
  | request r => exact r.getSize_fst
  | response r => exact r.getSize_eq

def NulFree : Message → Prop
  | .request r => r.NulFree
  | .response r => r.NulFree

instance : (m : Message) → Decidable m.NulFree
  | .request r => inferInstanceAs (Decidable r.NulFree)
  | .response r => inferInstanceAs (Decidable r.NulFree)

/-- The decoded object `d` has the lists of the message, in order. -/
def Recovers : Message → Message → Prop
  | .request r, .request d => d.mIds = r.mIds ∧ d.mTypes = r.mTypes
  | .response r, .response d => d.mData = r.mData
  | _, _ => False

/-- An encoding is decoded the same whatever follows it. -/
theorem decode_encode_append {m : Message} {junk : Nat → Byte} {b : List Byte}
    (hnul : m.NulFree) (henc : m.encode junk = .ok b) (i t : Word) :
    ∃ d, m.Recovers d ∧ m.getSize.toNat = b.length ∧
      ∀ tail, decode i t (b ++ tail) m.kind = .ok (d, m.getSize) := by
  cases m with
  | request r =>
      obtain ⟨hfit, rfl⟩ := CustomRequest.encode_eq_ok_iff.mp henc
      have hdec := CustomRequest.fromArray_wireBytes_append hnul hfit (CustomRequest.new i t)
      refine ⟨.request ((CustomRequest.new i t).absorb r), ⟨rfl, rfl⟩, ?_, ?_⟩
      · rw [getSize, CustomRequest.getSize_fst, toNat_ofNat_of_lt hfit,
          CustomRequest.wireBytes_length]
      · intro tail
        rw [kind, decode, hdec tail, getSize, CustomRequest.getSize_fst]
        rfl
  | response r =>
      obtain ⟨hfit, rfl⟩ := CustomResponse.encode_eq_ok_iff.mp henc
      have hdec := CustomResponse.fromArray_wireBytes_append hnul hfit CustomResponse.new
      refine ⟨.response (CustomResponse.new.absorb r), rfl, ?_, ?_⟩
      · rw [getSize, CustomResponse.getSize_eq, toNat_ofNat_of_lt hfit,
          CustomResponse.wireBytes_length]
      · intro tail
        rw [kind, decode, hdec tail, getSize, CustomResponse.getSize_eq]
        rfl

end Message

/-! ## Streams -/

/-- What one decoding step of a stream yields: the offset it starts at, the new
    object, and the size it reports. -/
structure Decoded where
  offset : Nat
  object : Message
  sizeP : Word
deriving DecidableEq, Repr

/-- Decode the kinds in turn from the offset on, advancing by the reported
    sizes; the second component is the offset behind the last message. -/
def decodeStream (i t : Word) (stream : List Byte) :
    List Kind → Nat → Except Fault (List Decoded × Nat)
  | [], off => .ok ([], off)
  | k :: ks, off => do
      let (object, sizeP) ← Message.decode i t (stream.drop off) k
      let (rest, stop) ← decodeStream i t stream ks (off + sizeP.toNat)
      pure ({ offset := off, object := object, sizeP := sizeP } :: rest, stop)

/-- The decoding `e` of message `m` recovered its lists and size, and needed no
    byte but its own: with every byte behind them unreadable it is the same. -/
structure Decoded.Faithful (i t : Word) (stream : List Byte) (m : Message) (e : Decoded) :
    Prop where
  recovers : m.Recovers e.object
  sizeP : e.sizeP = m.getSize
  ownBytes : Message.decode i t ((stream.take (e.offset + e.sizeP.toNat)).drop e.offset) m.kind =
    .ok (e.object, e.sizeP)

theorem decodeStream_append (i t : Word) {junk : Nat → Byte} {stream : List Byte}
    {ms : List Message} {encs : List (List Byte)}
    (hnul : ∀ m ∈ ms, m.NulFree)
    (henc : List.Forall₂ (fun m b => m.encode junk = .ok b) ms encs)
    (before after : List Byte) (hstream : stream = before ++ encs.flatten ++ after) :
    ∃ out, decodeStream i t stream (ms.map Message.kind) before.length =
        .ok (out, before.length + encs.flatten.length) ∧
      List.Forall₂ (Decoded.Faithful i t stream) ms out := by
  induction henc generalizing before with
  | nil => exact ⟨[], rfl, .nil⟩
  | @cons m b ms encs hb _ ih =>
      simp only [List.mem_cons, forall_eq_or_imp] at hnul
      obtain ⟨d, hrec, hsize, hdec⟩ := Message.decode_encode_append hnul.1 hb i t
      -- the message stands behind `before`, and the others and the tail behind it
      have hsplit : stream = before ++ (b ++ (encs.flatten ++ after)) := by
        rw [hstream, List.flatten_cons]
        simp
      have hdrop : stream.drop before.length = b ++ (encs.flatten ++ after) := by
        rw [hsplit, List.drop_left]
      have hown : (stream.take (before.length + b.length)).drop before.length = b := by
        rw [hsplit, ← List.append_assoc, ← List.length_append, List.take_left, List.drop_left]
      -- for the messages behind it, it is part of what stands before them
      obtain ⟨out, hout, hfaith⟩ := ih hnul.2 (before ++ b) (by rw [hsplit]; simp)
      refine ⟨⟨before.length, d, m.getSize⟩ :: out, ?_, ?_⟩
      · rw [List.length_append] at hout
        simp only [List.map_cons, decodeStream, hdrop, hdec, hsize, hout, bind, Except.bind, pure,
          Except.pure, List.flatten_cons, List.length_append, Nat.add_assoc]
      · refine .cons ⟨hrec, rfl, ?_⟩ hfaith
        rw [hsize, hown]
        simpa using hdec []

/-- Encodings laid end to end are decoded one by one: each decoding needs only
    its own bytes, recovers the message and reports its size, and the last one
    ends where the trailing bytes begin. -/
theorem decodeStream_encodings (i t : Word) {junk : Nat → Byte} {ms : List Message}
    {encs : List (List Byte)} (hnul : ∀ m ∈ ms, m.NulFree)
    (henc : List.Forall₂ (fun m b => m.encode junk = .ok b) ms encs) (trailing : List Byte) :
    ∃ out, decodeStream i t (encs.flatten ++ trailing) (ms.map Message.kind) 0 =
        .ok (out, encs.flatten.length) ∧
      List.Forall₂ (Decoded.Faithful i t (encs.flatten ++ trailing)) ms out := by
  obtain ⟨out, hout, hfaith⟩ := decodeStream_append i t hnul henc [] trailing rfl
  rw [List.length_nil, Nat.zero_add] at hout
  exact ⟨out, hout, hfaith⟩

/-- A request that names one id, and the response with its one item. -/
def sampleMessages : List Message :=
  [.request { mIds := [[0x41]], mTypes := [], mName := [0x4E], idss := 0, typess := 0 },
    .response { mData := [[0x42]] }]

/-- The 24 bytes of the request and the six of the response. -/
def sampleEncodings : List (List Byte) :=
  [(RequestHeader.mk 2 1 0 0 2).bytes ++ [0x41, 0x00, 0x4E, 0x00], [1, 0, 0, 0, 0x42, 0x00]]

theorem decodeStream_sample :
    ∃ out, decodeStream 7 9 (sampleEncodings.flatten ++ [0xFF])
        (sampleMessages.map Message.kind) 0 = .ok (out, 30) ∧
      List.Forall₂ (Decoded.Faithful 7 9 (sampleEncodings.flatten ++ [0xFF]))
        sampleMessages out := by
  have hnul : ∀ m ∈ sampleMessages, m.NulFree := by decide
  have henc : List.Forall₂ (fun m b => m.encode (fun _ => 0xCD) = .ok b)
      sampleMessages sampleEncodings := .cons rfl (.cons rfl .nil)
  exact decodeStream_encodings 7 9 hnul henc [0xFF]

end IpcWin.Native
