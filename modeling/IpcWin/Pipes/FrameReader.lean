/-
  IpcWin.Pipes.FrameReader

  Reading one frame: the length word, a block of that length, the payload.

  Both ends of the pipe read with the same three calls, and both keep count of
  the frames they have read whole.  `InFrame f taken j r` says that what has been
  taken from a channel is the first `j` frames of `f` and the part of the next
  one that the reader `r` holds.  Every call that fills its buffer keeps this,
  as long as the channel carries nothing but frames of `f`.
-/

import IpcWin.Pipes.Kernel
import IpcWin.Native.Memory

namespace IpcWin.Pipes

open IpcWin.Lib IpcWin.Wire
open IpcWin.Native (malloc malloc_of_lt)

/-- Where a reader is in a frame. -/
inductive FrameRead where
  /-- not reading -/
  | idle
  /-- reading the length word -/
  | size (got : List Byte)
  /-- reading the payload into the block -/
  | data (len : Word) (block : Option (List Byte)) (got : List Byte)
  /-- both have been read -/
  | whole (len : Word) (block : Option (List Byte))
deriving DecidableEq, Repr

namespace FrameRead

/-- The `ReadFile` in progress, if there is one, has filled its buffer. -/
def Full : FrameRead → Prop
  | .size got => got.length = 4
  | .data _ (some block) got => got.length = block.length
  | _ => True

instance : (r : FrameRead) → Decidable r.Full
  | .size got => inferInstanceAs (Decidable (got.length = 4))
  | .data _ (some block) got => inferInstanceAs (Decidable (got.length = block.length))
  | .data _ none _ | .idle | .whole _ _ => isTrue trivial

/-- The bytes of the frame that the reader holds. -/
def piece : FrameRead → List Byte
  | .idle => []
  | .size got => got
  | .data len _ got => intBytes len ++ got
  | .whole len block => intBytes len ++ block.getD []

/-- The reader is reading the packet `m`. -/
def Reads (m : Packet) : FrameRead → Prop
  | .idle => True
  | .size got => got.length ≤ 4
  | .data len block got =>
      len = m.size ∧ ∃ b, block = some b ∧ b.length = m.bytes.length ∧ got.length ≤ b.length
  | .whole len block => (len, block) = m.received

end FrameRead

/-- The frames of a sequence of packets, `n` of them end to end. -/
abbrev frames (f : Nat → Packet) : Nat → List Byte := stream fun k => frame (f k)

/-- What has been taken is the first `j` frames and the piece that `r` holds. -/
structure InFrame (f : Nat → Packet) (taken : List Byte) (j : Nat) (r : FrameRead) : Prop where
  taken_eq : taken = frames f j ++ r.piece
  reads : r.Reads (f j)

namespace InFrame

variable {f : Nat → Packet} {taken : List Byte} {j : Nat}

theorem idle_iff : InFrame f taken j .idle ↔ taken = frames f j := by
  refine ⟨?_, fun h => ⟨?_, trivial⟩⟩
  · intro h
    rw [h.taken_eq, FrameRead.piece, List.append_nil]
  · rw [h, FrameRead.piece, List.append_nil]

/-- The first `ReadFile` of a frame is called. -/
theorem begin (h : InFrame f taken j .idle) : InFrame f taken j (.size []) :=
  ⟨h.taken_eq, Nat.zero_le 4⟩

theorem takeSize {ch ch' : Channel Byte} {got got' : List Byte} {n : Nat}
    (h : InFrame f ch.taken j (.size got)) (hr : readPiece 4 got ch n = some (got', ch')) :
    InFrame f ch'.taken j (.size got') := by
  obtain ⟨-, hn, hlen, rfl, rfl⟩ := readPiece_eq_some.mp hr
  refine ⟨?_, ?_⟩
  · rw [Channel.take_taken, h.taken_eq]
    simp only [FrameRead.piece, List.append_assoc]
  · show (got ++ ch.queue.take n).length ≤ 4
    rw [List.length_append, List.length_take]
    omega

theorem takeData {ch ch' : Channel Byte} {len : Word} {block got got' : List Byte} {n : Nat}
    (h : InFrame f ch.taken j (.data len (some block) got))
    (hr : readPiece block.length got ch n = some (got', ch')) :
    InFrame f ch'.taken j (.data len (some block) got') := by
  obtain ⟨-, hn, hlen, rfl, rfl⟩ := readPiece_eq_some.mp hr
  obtain ⟨hword, b, hb, hblen, -⟩ := h.reads
  cases hb
  refine ⟨?_, hword, block, rfl, hblen, ?_⟩
  · rw [Channel.take_taken, h.taken_eq]
    simp [FrameRead.piece]
  · rw [List.length_append, List.length_take]
    omega

/-- A length word that was read whole is that of the next packet. -/
theorem size_eq {got : List Byte} {n : Nat} (h : InFrame f taken j (.size got))
    (hpre : taken <+: frames f n) (hfull : got.length = 4) : got = intBytes (f j).size := by
  have hne : got ≠ [] := by
    intro hnil
    simp [hnil] at hfull
  rw [h.taken_eq] at hpre
  -- four bytes are no more than the frame, so they are its first four
  have hframe : got <+: intBytes (f j).size ++ (f j).bytes := by
    apply prefix_frame hpre hne
    rw [frame_length, FrameRead.piece, hfull]
    omega
  exact (List.prefix_of_prefix_length_le hframe (List.prefix_append _ _)
    (by rw [intBytes_length, hfull])).eq_of_length (by rw [intBytes_length, hfull])

/-- The block that is allocated for it has the length of the payload. -/
theorem sized {got : List Byte} {n : Nat} (junk : Nat → Byte) (h : InFrame f taken j (.size got))
    (hpre : taken <+: frames f n) (hfull : got.length = 4) :
    InFrame f taken j (.data (sizeWord got) (malloc junk (sizeWord got)) []) := by
  have hgot := h.size_eq hpre hfull
  have hword : sizeWord got = (f j).size := by rw [hgot, sizeWord_intBytes]
  refine ⟨?_, hword, (List.range (f j).bytes.length).map junk, ?_, by simp, Nat.zero_le _⟩
  · rw [h.taken_eq, FrameRead.piece, FrameRead.piece, hword, hgot, List.append_nil]
  · rw [hword, Packet.size, malloc_of_lt (f j).length_lt]

/-- A payload that was read whole is that of the next packet. -/
theorem dataRead {len : Word} {block got : List Byte} {n : Nat}
    (h : InFrame f taken j (.data len (some block) got))
    (hpre : taken <+: frames f n) (hfull : got.length = block.length) :
    InFrame f taken j (.whole len (some (readInto got block))) := by
  obtain ⟨hword, b, hb, hblen, -⟩ := h.reads
  cases hb
  have hlen : (intBytes len ++ got).length = (frame (f j)).length := by
    rw [List.length_append, intBytes_length, frame_length, hfull, hblen]
  have hne : intBytes len ++ got ≠ [] := by
    intro hnil
    rw [hnil, frame_length, List.length_nil] at hlen
    omega
  have htaken := h.taken_eq
  rw [htaken] at hpre
  -- word and payload together are as long as the frame
  have hframe : intBytes len ++ got = frame (f j) :=
    (prefix_frame hpre hne (Nat.le_of_eq hlen)).eq_of_length hlen
  have hgot : got = (f j).bytes := by
    rw [hword, frame] at hframe
    exact List.append_cancel_left hframe
  refine ⟨?_, ?_⟩
  · rw [readInto_full hfull]
    exact htaken
  · show (len, some (readInto got block)) = (f j).received
    rw [readInto_full hfull, hword, hgot, Packet.received]

/-- What was read whole is the next packet, and one frame more has been taken. -/
theorem done {len : Word} {block : Option (List Byte)}
    (h : InFrame f taken j (.whole len block)) :
    (len, block) = (f j).received ∧ taken = frames f (j + 1) := by
  have hreads : (len, block) = (f j).received := h.reads
  refine ⟨hreads, ?_⟩
  obtain ⟨rfl, rfl⟩ := Prod.mk.inj hreads
  rw [h.taken_eq, frames, stream_succ]
  rfl

/-- A reader that has taken the whole of its frame has filled its buffer. -/
theorem full_of_taken {r : FrameRead} (h : InFrame f taken j r)
    (htaken : taken = frames f (j + 1)) : r.Full := by
  have hpiece : r.piece = frame (f j) := by
    have heq := h.taken_eq.symm.trans htaken
    rw [frames, stream_succ] at heq
    exact List.append_cancel_left heq
  have hreads := h.reads
  cases r with
  | idle | whole => trivial
  | size got =>
      have hlen : got.length = 4 + (f j).bytes.length := by
        rw [← frame_length, ← hpiece]
        rfl
      have hle : got.length ≤ 4 := hreads
      show got.length = 4
      omega
  | data len block got =>
      obtain ⟨-, b, rfl, hblen, -⟩ := hreads
      have hlen : (intBytes len ++ got).length = 4 + (f j).bytes.length := by
        rw [← frame_length, ← hpiece]
        rfl
      rw [List.length_append, intBytes_length] at hlen
      show got.length = b.length
      omega

/-- A reader in a channel of `n` frames has read at most `n` of them. -/
theorem le_of_prefix {r : FrameRead} {n : Nat} (h : InFrame f taken j r)
    (hpre : taken <+: frames f n) : j ≤ n := by
  rw [← stream_prefix_stream_iff fun k => frame_ne_nil (f k)]
  refine List.IsPrefix.trans ?_ hpre
  rw [h.taken_eq]
  exact List.prefix_append _ _

end InFrame

end IpcWin.Pipes
