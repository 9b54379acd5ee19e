/-
  IpcWin.Native.Lengths

  How long the messages of the benchmark are.

  In either encoding a list takes the same for each of its strings, and so a message
  is as long as its numbers of ids and items say (`Plain.encodedRequest_length`,
  `encodedReply_length`).  Without `-o` the calls begin with the size that has the
  most of both, and no later message is longer than the first.
-/

import IpcWin.Native.Benchmark

namespace IpcWin.Native

open IpcWin.Lib IpcWin.Wire
open IpcWin.Protobuf (writeFields writeString)

/-! ## Lists of one string -/

theorem sectionLength_replicate (n : Nat) (s : Str) :
    sectionLength (List.replicate n s) = n * (s.length + 1) := by
  induction n with
  | zero => simp
  | succ n ih =>
      rw [List.replicate_succ, sectionLength_cons, ih, Nat.succ_mul]
      omega

theorem length_writeFields_replicate (n number : Nat) (s : Str) :
    (writeFields (List.replicate n (number, s))).length = n * (writeString number s).length := by
  induction n with
  | zero => simp
  | succ n ih =>
      rw [List.replicate_succ, Protobuf.writeFields_cons, List.length_append, ih, Nat.succ_mul]
      exact Nat.add_comm _ _

/-- What a string takes in the list of a field. -/
def stringLength (mode : Mode) (number : Nat) (s : Str) : Nat :=
  match mode with
  | .object => s.length + 1
  | .protobuf => (writeString number s).length

/-- What comes before the lists of a request, and its name. -/
def headLength (mode : Mode) (name : Str) : Nat :=
  match mode with
  | .object => 20 + (name.length + 1)
  | .protobuf => (writeString 1 name).length

/-! ## Requests and replies -/

namespace Client

theorem Plain.encodedRequest_length (mode : Mode) {r : CustomRequest} {ids types : Nat}
    (h : Plain r ids types) :
    (encodedRequest generatedMessages mode r).length =
      headLength mode r.mName + ids * stringLength mode 2 id +
        types * stringLength mode 3 type := by
  cases mode with
  | object =>
      rw [encodedRequest, CustomRequest.wireBytes_length, CustomRequest.wireLength, requestLength,
        h.mIds, h.mTypes, sectionLength_replicate, sectionLength_replicate, headLength,
        stringLength, stringLength]
      omega
  | protobuf =>
      show (writeFields (requestMessage r).fields).length = _
      rw [requestMessage_eq, Protobuf.Request.fields, Protobuf.writeFields_append,
        Protobuf.writeFields_append, h.mIds, h.mTypes, List.map_replicate, List.map_replicate,
        List.length_append, List.length_append, length_writeFields_replicate,
        length_writeFields_replicate, Option.map_some, Option.toList_some,
        Protobuf.writeFields_cons, Protobuf.writeFields_nil, List.append_nil]
      rfl

/-- The number of ids in the calls for a size, without `-o`. -/
def twoWayIds (s : ReqSize) : Nat := pairs false s / 10

theorem twoWayIds_le (s : ReqSize) : twoWayIds s ≤ twoWayIds .size100 := by
  cases s <;> decide

theorem plain_requestAt (junk : Word → Word × Word) (k : Nat) :
    Plain (requestAt junk false k) (twoWayIds (sizeAt k)) 10 := by
  obtain ⟨ids, types, -, htypes, hpairs, hplain⟩ := startReqs_entry junk false (sizeAt k)
  have hpos : 0 < pairs false (sizeAt k) := by cases sizeAt k <;> decide
  have hten : types = 10 := by
    refine htypes.resolve_left ?_
    rintro rfl
    omega
  subst hten
  have hids : ids = twoWayIds (sizeAt k) := by
    rw [twoWayIds, ← hpairs]
    omega
  rw [requestAt_eq, ← hids]
  exact hplain

/-- The length of a request without `-o`. -/
def twoWayLength (mode : Mode) (s : ReqSize) : Nat :=
  headLength mode name + twoWayIds s * stringLength mode 2 id + 10 * stringLength mode 3 type

theorem encoded_requestAt_length (mode : Mode) (junk : Word → Word × Word) (k : Nat) :
    (encodedRequest generatedMessages mode (requestAt junk false k)).length =
      twoWayLength mode (sizeAt k) := by
  have hplain := plain_requestAt junk k
  rw [hplain.encodedRequest_length mode, hplain.mName]
  rfl

theorem twoWayLength_le (mode : Mode) (s : ReqSize) :
    twoWayLength mode s ≤ twoWayLength mode .size100 := by
  have hle := Nat.mul_le_mul_right (stringLength mode 2 id) (twoWayIds_le s)
  unfold twoWayLength
  omega

theorem twoWayLength_pos (mode : Mode) (s : ReqSize) : 0 < twoWayLength mode s := by
  have hhead : 0 < headLength mode name := by cases mode <;> decide
  unfold twoWayLength
  omega

end Client

theorem encodedReply_length (mode : Mode) (n : Nat) :
    (encodedReply generatedMessages mode
        { mData := List.replicate n Server.itemText }).length =
      (match mode with | .object => 4 | .protobuf => 0) +
        n * stringLength mode 1 Server.itemText := by
  cases mode with
  | object =>
      rw [encodedReply, CustomResponse.wireBytes_length, CustomResponse.wireLength,
        responseLength, sectionLength_replicate]
      rfl
  | protobuf =>
      show (writeFields (Protobuf.Response.fields _)).length = _
      rw [Protobuf.Response.fields, List.map_replicate, length_writeFields_replicate,
        Nat.zero_add]
      rfl

/-- The length of a reply without `-o`. -/
def Server.twoWayLength (mode : Mode) (s : Client.ReqSize) : Nat :=
  (encodedReply generatedMessages mode
    { mData := List.replicate (Client.pairs false s) Server.itemText }).length

theorem Server.twoWayLength_eq (mode : Mode) (s : Client.ReqSize) :
    twoWayLength mode s = (match mode with | .object => 4 | .protobuf => 0) +
      Client.pairs false s * stringLength mode 1 Server.itemText :=
  encodedReply_length mode _

theorem Server.twoWayLength_le (mode : Mode) (s : Client.ReqSize) :
    twoWayLength mode s ≤ twoWayLength mode .size100 := by
  have hpairs : Client.pairs false s ≤ Client.pairs false .size100 := by cases s <;> decide
  have hle := Nat.mul_le_mul_right (stringLength mode 1 Server.itemText) hpairs
  rw [twoWayLength_eq, twoWayLength_eq]
  omega

/-- Every reply without `-o` has an item. -/
theorem Server.twoWayLength_pos (mode : Mode) (s : Client.ReqSize) : 0 < twoWayLength mode s := by
  rw [twoWayLength_eq]
  cases mode <;> cases s <;> decide

/-- The longest reply without `-o` takes about a megabyte. -/
theorem Server.twoWayLength_size100 (mode : Mode) : twoWayLength mode .size100 ≤ 5000 * kb := by
  rw [twoWayLength_eq]
  cases mode <;> decide

end IpcWin.Native
