/-
  IpcWin.Lib.Channel

  A FIFO channel that remembers what has been taken out of it, and the frames
  that a stream through it is made of.

  * `Channel` keeps the elements taken and the elements queued, so that what was
    written is the two together and what was taken is a prefix of it: no
    operation can build a channel that lost or reordered an element.
  * `stream f n` is the first `n` frames end to end.  A reader that has taken
    whole frames and a piece of the next one has taken a prefix of that frame
    (`prefix_frame`), and prefixes of streams count frames
    (`stream_prefix_stream_iff`).
  * `Turns` is a pair of channels of which one carries the answers to what the
    other carries.  With one frame asked and not answered, the two ends cannot
    both be waiting for the other one.
-/

import Mathlib.Data.List.Infix

namespace IpcWin.Lib

variable {α : Type*}

/-- A FIFO channel: what has been taken out, and what is queued behind it. -/
structure Channel (α : Type*) where
  taken : List α
  queue : List α
deriving DecidableEq, Repr

namespace Channel

def empty : Channel α := { taken := [], queue := [] }

/-- Everything put in so far. -/
def written (c : Channel α) : List α := c.taken ++ c.queue

def put (c : Channel α) (bs : List α) : Channel α := { c with queue := c.queue ++ bs }

def take (c : Channel α) (n : Nat) : Channel α :=
  { taken := c.taken ++ c.queue.take n, queue := c.queue.drop n }

@[simp] theorem empty_queue : (empty : Channel α).queue = [] := rfl

@[simp] theorem put_taken (c : Channel α) (bs : List α) : (c.put bs).taken = c.taken := rfl

@[simp] theorem put_written (c : Channel α) (bs : List α) :
    (c.put bs).written = c.written ++ bs := by
  simp [written, put]

@[simp] theorem take_taken (c : Channel α) (n : Nat) :
    (c.take n).taken = c.taken ++ c.queue.take n := rfl

@[simp] theorem take_written (c : Channel α) (n : Nat) : (c.take n).written = c.written := by
  simp [written, take]

theorem taken_prefix_written (c : Channel α) : c.taken <+: c.written :=
  List.prefix_append _ _

/-- A channel of which everything has been taken has nothing queued. -/
theorem queue_eq_nil_of_taken_eq {c : Channel α} (h : c.taken = c.written) : c.queue = [] :=
  List.self_eq_append_right.mp h

end Channel

/-! ## Streams of frames -/

/-- The first `n` frames, end to end. -/
def stream (f : Nat → List α) : Nat → List α
  | 0 => []
  | n + 1 => stream f n ++ f n

theorem stream_succ (f : Nat → List α) (n : Nat) : stream f (n + 1) = stream f n ++ f n := rfl

theorem stream_prefix_stream (f : Nat → List α) {m n : Nat} (h : m ≤ n) :
    stream f m <+: stream f n := by
  induction h with
  | refl => exact List.prefix_rfl
  | step _ ih => exact ih.trans (List.prefix_append _ _)

/-- A piece behind `j` whole frames that is no longer than the next frame is a
    prefix of it. -/
theorem prefix_frame {f : Nat → List α} {j n : Nat} {p : List α}
    (h : stream f j ++ p <+: stream f n) (hp : p ≠ []) (hlen : p.length ≤ (f j).length) :
    p <+: f j := by
  -- all of the first `n` frames would leave no room for the piece
  have hj : j < n := by
    by_contra hn
    have hle := (h.trans (stream_prefix_stream f (Nat.le_of_not_lt hn))).length_le
    rw [List.length_append] at hle
    exact hp (List.length_eq_zero_iff.mp (by omega))
  have hnext : stream f j ++ f j <+: stream f n := stream_prefix_stream f (m := j + 1) hj
  -- both are prefixes of the stream, and the piece is the shorter one
  have hboth : stream f j ++ p <+: stream f j ++ f j := by
    apply List.prefix_of_prefix_length_le h hnext
    simp only [List.length_append]
    omega
  exact (List.prefix_append_right_inj _).mp hboth

/-- Streams of non-empty frames are prefixes of each other by their number. -/
theorem stream_prefix_stream_iff {f : Nat → List α} (hf : ∀ k, f k ≠ []) {m n : Nat} :
    stream f m <+: stream f n ↔ m ≤ n := by
  refine ⟨?_, stream_prefix_stream f⟩
  intro h
  by_contra hmn
  have hnext : stream f n ++ f n <+: stream f n :=
    (stream_prefix_stream f (m := n + 1) (by omega)).trans h
  have hle := hnext.length_le
  rw [List.length_append] at hle
  exact hf n (List.length_eq_zero_iff.mp (by omega))

theorem stream_length_le (f : Nat → List α) {m n : Nat} (h : m ≤ n) :
    (stream f m).length ≤ (stream f n).length :=
  (stream_prefix_stream f h).length_le

/-! ## Frames that are answered in turn -/

/-- Frames of `f` go there and frames of `g` come back.  One end has asked for
    `done + 1` frames and is done with `done` answers, the other end has answered
    `answered`; `pending` is what an end still has to put in, `piece` the part that
    it holds of the frame it is reading. -/
structure Turns (f g : Nat → List α) (answered done : Nat) (there back : Channel α)
    (askPending askPiece answerPending answerPiece : List α) : Prop where
  asked : there.written ++ askPending = stream f (done + 1)
  heard : there.taken = stream f answered ++ askPiece
  told : back.written ++ answerPending = stream g answered
  got : back.taken = stream g done ++ answerPiece

namespace Turns

variable {f g : Nat → List α} {answered done : Nat} {there back : Channel α}
  {askPending askPiece answerPending answerPiece : List α}

/-- As long as the last frame has not been put in whole, no answer to it is under
    way. -/
theorem back_queue_eq_nil (h : Turns f g answered done there back askPending askPiece
    answerPending answerPiece) (hpending : askPending ≠ []) : back.queue = [] := by
  have hanswered : answered ≤ done := by
    by_contra hlt
    have hle := stream_length_le f (show done + 1 ≤ answered by omega)
    have htaken := there.taken_prefix_written.length_le
    have hasked := congrArg List.length h.asked
    have hpos := List.length_pos_of_ne_nil hpending
    rw [h.heard, List.length_append] at htaken
    rw [List.length_append] at hasked
    omega
  -- so the answers written are no more than the ones that have been taken
  have hle := stream_length_le g hanswered
  have htold := congrArg List.length h.told
  have hgot := congrArg List.length h.got
  rw [Channel.written, List.length_append, List.length_append] at htold
  rw [List.length_append] at hgot
  exact List.length_eq_zero_iff.mp (by omega)

/-- Both ends cannot be in the middle of a frame with nothing under way. -/
theorem not_both_waiting (h : Turns f g answered done there back [] askPiece [] answerPiece)
    (hthere : there.queue = []) (hback : back.queue = [])
    (hask : askPiece.length < (f answered).length) (hanswer : answerPiece.length < (g done).length) :
    False := by
  have hasked := congrArg List.length h.asked
  have hheard := congrArg List.length h.heard
  have htold := congrArg List.length h.told
  have hgot := congrArg List.length h.got
  simp only [Channel.written, hthere, List.append_nil] at hasked
  simp only [Channel.written, hback, List.append_nil] at htold
  rw [List.length_append] at hheard hgot
  rcases Nat.lt_or_ge answered (done + 1) with hlt | hge
  · -- the frame that is being read is one of those asked for, and all of it is there
    have hle := stream_length_le f (show answered + 1 ≤ done + 1 by omega)
    rw [stream_succ, List.length_append] at hle
    omega
  · have hle := stream_length_le g hge
    rw [stream_succ, List.length_append] at hle
    omega

end Turns

end IpcWin.Lib
