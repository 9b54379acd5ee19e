/-
  IpcWin.Completion

  Programs that talk through the shared memory come to the end of their calls.

  Without `-o` the calls begin with the longest request, which has the longest reply.
  So every message fits its section: the ones of 3000 and 5000 KB that are created
  with `-r`, and without it those that the first messages create.  The views of all
  the calls take less than a gigabyte of address space in each program.  With so much
  of it no program crashes before the last call has returned, and every call is bound
  to return (`sharedMem_programs_return`).
-/

import Mathlib.Algebra.Order.BigOperators.Group.List
import IpcWin.Native.Lengths
import IpcWin.Programs
import IpcWin.SharedMem.Returns

namespace IpcWin

open IpcWin.Lib IpcWin.Wire
open IpcWin.Native

/-! ## The lengths of the messages -/

/-- The length of the request of a call, without `-o`. -/
def requestLength (data : Data) (s : Client.ReqSize) : Nat :=
  match data with
  | .msg => Client.twoWayLength .protobuf s
  | .object => Client.twoWayLength .object s
  | .bytes => s.value false

/-- The length of the reply to it. -/
def replyLength (data : Data) (s : Client.ReqSize) : Nat :=
  match data with
  | .msg => Server.twoWayLength .protobuf s
  | .object => Server.twoWayLength .object s
  | .bytes => Server.respSize (s.value false)

theorem requestLength_pos (data : Data) (s : Client.ReqSize) : 0 < requestLength data s := by
  cases data with
  | msg => exact Client.twoWayLength_pos .protobuf s
  | object => exact Client.twoWayLength_pos .object s
  | bytes => cases s <;> decide

theorem replyLength_pos (data : Data) (s : Client.ReqSize) : 0 < replyLength data s := by
  cases data with
  | msg => exact Server.twoWayLength_pos .protobuf s
  | object => exact Server.twoWayLength_pos .object s
  | bytes => cases s <;> decide

theorem requestLength_le (data : Data) (s : Client.ReqSize) :
    requestLength data s ≤ requestLength data .size100 := by
  cases data with
  | msg => exact Client.twoWayLength_le .protobuf s
  | object => exact Client.twoWayLength_le .object s
  | bytes => cases s <;> decide

theorem replyLength_le (data : Data) (s : Client.ReqSize) :
    replyLength data s ≤ replyLength data .size100 := by
  cases data with
  | msg => exact Server.twoWayLength_le .protobuf s
  | object => exact Server.twoWayLength_le .object s
  | bytes => cases s <;> decide

/-- The longest request fits a section of 3000 KB. -/
theorem requestLength_size100 (data : Data) : requestLength data .size100 ≤ 3000 * 1024 := by
  cases data <;> decide

/-- The longest reply fits a section of 5000 KB. -/
theorem replyLength_size100 (data : Data) : replyLength data .size100 ≤ 5000 * 1024 := by
  cases data with
  | msg => exact Server.twoWayLength_size100 .protobuf
  | object => exact Server.twoWayLength_size100 .object
  | bytes => decide

section Messages

variable {w : Unwritten} {args : List WStr} {c : Client.Options} {s : Server.Options}

/-- A packet that is received with some bytes has them. -/
theorem bytes_of_received {m : Packet} {size : Word} {data : List Byte}
    (h : m.received = (size, some data)) : m.bytes = data :=
  Option.some.inj (Prod.mk.inj h).2

theorem packet_length (mode : Mode) (i : Nat) :
    (Client.packet generatedMessages mode (w.client i)
      (Client.benchmarkRequest w.reqs false i).request).bytes.length =
      Client.twoWayLength mode (Client.sizeAt i) := by
  rw [bytes_of_received (Client.packet_received mode generatedMessages_restores (w.client i) _)]
  exact Client.encoded_requestAt_length mode w.reqs i

theorem clientPacket_length (ho : c.oneway = false) (i : Nat) :
    (clientPacket generatedMessages w c i).bytes.length =
      requestLength c.builder (Client.sizeAt i) := by
  cases hdata : c.builder with
  | msg =>
      simp only [clientPacket, hdata, ho]
      exact packet_length .protobuf i
  | object =>
      simp only [clientPacket, hdata, ho]
      exact packet_length .object i
  | bytes =>
      simp only [clientPacket, hdata, ho]
      exact reqBytes_length _ _ _

theorem replyTo_length (mode : Mode) (i : Nat) :
    (replyTo (fun k => Client.packet generatedMessages mode (w.client k)
        (Client.benchmarkRequest w.reqs false k).request)
      (Server.builder generatedMessages mode w.server Server.startTable) i).bytes.length =
      Server.twoWayLength mode (Client.sizeAt i) := by
  have hrequests : ∀ q ∈ (List.range i).map (fun k =>
      (Client.packet generatedMessages mode (w.client k)
        (Client.benchmarkRequest w.reqs false k).request).received),
      Requests generatedMessages mode q := by
    intro q hq
    obtain ⟨k, -, rfl⟩ := List.mem_map.mp hq
    exact ⟨_, Client.packet_received mode generatedMessages_restores (w.client k) _⟩
  have hreply := Server.builder_packet mode generatedMessages_restores Server.stored hrequests
    w.server (Client.benchmarkRequest w.reqs false i)
  rw [← Client.packet_received mode generatedMessages_restores (w.client i)] at hreply
  have hbytes := bytes_of_received hreply
  rw [Client.answer_benchmarkRequest, Client.items_twoWay] at hbytes
  rw [replyTo, List.range_succ, List.map_append, List.map_singleton]
  exact congrArg List.length hbytes

theorem reply_length (h : Started args c s) (ho : c.oneway = false) (i : Nat) :
    (replyTo (clientPacket generatedMessages w c)
      (serverBuilder generatedMessages w s) i).bytes.length =
      replyLength c.builder (Client.sizeAt i) := by
  obtain ⟨hclient, hserver⟩ := h.settings
  have hsame : s.builder = c.builder := hserver.builder.trans hclient.builder.symm
  cases hdata : c.builder with
  | msg =>
      simp only [clientPacket, serverBuilder, hsame, hdata, ho]
      exact replyTo_length .protobuf i
  | object =>
      simp only [clientPacket, serverBuilder, hsame, hdata, ho]
      exact replyTo_length .object i
  | bytes =>
      simp only [clientPacket, serverBuilder, hsame, hdata, ho]
      have hlength : ∀ i, (built (Client.reqBytes (w.client i).clientJunk w.clientBehind
          (BitVec.ofNat 32 ((Client.sizeAt i).value false)))).bytes.length =
            (Client.sizeAt i).value false := fun i => reqBytes_length _ _ _
      exact (replyTo_bytes w (fun i => (Client.sizeAt i).value false) hlength
        (fun i => respSize_value (Client.sizeAt i)) i).1

end Messages

/-! ## What follows from the lengths -/

/-- The messages are as long as the sizes of the calls say. -/
structure Sized (data : Data) (cfg : SharedMem.Config) : Prop where
  request : ∀ i, (cfg.request i).bytes.length = requestLength data (Client.sizeAt i)
  reply : ∀ i, (cfg.reply i).bytes.length = replyLength data (Client.sizeAt i)

theorem Started.sized {args : List WStr} {c : Client.Options} {s : Server.Options}
    {clientSpace serverSpace : SharedMem.Space} (h : Started args c s) (ho : c.oneway = false)
    (w : Unwritten) :
    Sized c.builder (memoryOf generatedMessages w clientSpace serverSpace c s) where
  request := clientPacket_length ho
  reply := reply_length h ho

/-- Messages of which the first one is as long as any, not empty and no longer than
    `bound` fit, whether the section is created for `bound` or for the first one. -/
theorem fits_of_le_first {f : Nat → Packet} {bound : Nat}
    (hle : ∀ i, (f i).bytes.length ≤ (f 0).bytes.length) (hpos : 0 < (f 0).bytes.length)
    (hbound : (f 0).bytes.length ≤ bound) (reuse : Bool) (i : Nat) :
    SharedMem.Fits reuse bound f i := by
  unfold SharedMem.Fits
  split_ifs with hr
  · exact (hle i).trans hbound
  · intro j hj hfirst
    -- the first message is not empty, so that the sections are made for it
    have hzero : j = 0 := by
      by_contra hne
      have hempty := hfirst.1 0 (Nat.pos_of_ne_zero hne)
      rw [hempty] at hpos
      exact absurd hpos (Nat.lt_irrefl 0)
    subst hzero
    exact (hle i).trans (SharedMem.le_wholePages _)

/-- The pieces of address space for a view of a request, at most. -/
def requestPieces : Client.ReqSize → Nat
  | .size100 => 2
  | .size50 | .size10 | .size1 | .size0_1 => 1

/-- The pieces for a view of a reply, at most. -/
def replyPieces : Client.ReqSize → Nat
  | .size100 => 17
  | .size50 => 9
  | .size10 => 2
  | .size1 | .size0_1 => 1

theorem granules_requestLength_le (data : Data) (s : Client.ReqSize) :
    SharedMem.granules (requestLength data s) ≤ requestPieces s := by
  cases data <;> cases s <;> decide

theorem granules_replyLength_le (data : Data) (s : Client.ReqSize) :
    SharedMem.granules (replyLength data s) ≤ replyPieces s := by
  cases data with
  | msg =>
      rw [replyLength, Server.twoWayLength_eq]
      cases s <;> decide
  | object =>
      rw [replyLength, Server.twoWayLength_eq]
      cases s <;> decide
  | bytes => cases s <;> decide

namespace Sized

variable {data : Data} {cfg : SharedMem.Config}

/-- Every message fits its section. -/
theorem messagesFit (h : Sized data cfg) : SharedMem.MessagesFit cfg := by
  refine ⟨fits_of_le_first (fun i => ?_) ?_ ?_ cfg.clientReuse,
    fits_of_le_first (fun i => ?_) ?_ ?_ cfg.serverReuse⟩
  · rw [h.request, h.request]
    exact requestLength_le _ _
  · rw [h.request]
    exact requestLength_pos _ _
  · rw [h.request]
    exact requestLength_size100 _
  · rw [h.reply, h.reply]
    exact replyLength_le _ _
  · rw [h.reply]
    exact replyLength_pos _ _
  · rw [h.reply]
    exact replyLength_size100 _

theorem nonempty (h : Sized data cfg) : cfg.Nonempty where
  request i := by
    rw [← List.length_pos_iff, h.request]
    exact requestLength_pos _ _
  reply i := by
    rw [← List.length_pos_iff, h.reply]
    exact replyLength_pos _ _

/-- The pieces for the views of all the calls in the server. -/
theorem serverTaken_le (h : Sized data cfg) :
    cfg.serverTaken (Client.called Client.benchmark).length ≤ 12950 := by
  have hcalls : ((Client.called Client.benchmark).map fun s =>
      2 + requestPieces s + replyPieces s).sum = 12950 := by
    rw [Client.sum_called]
    rfl
  rw [cfg.serverTaken_eq_sum, ← hcalls, ← Client.sum_sizeAt]
  refine List.sum_le_sum fun i _ => ?_
  rw [h.request, h.reply]
  exact Nat.add_le_add (Nat.add_le_add_left (granules_requestLength_le _ _) 2)
    (granules_replyLength_le _ _)

/-- The pieces for the views of all the replies. -/
theorem replies_le (h : Sized data cfg) :
    ((List.range (Client.called Client.benchmark).length).map fun i =>
      SharedMem.granules (cfg.reply i).bytes.length).sum ≤ 3550 := by
  have hcalls : ((Client.called Client.benchmark).map replyPieces).sum = 3550 := by
    rw [Client.sum_called]
    rfl
  rw [← hcalls, ← Client.sum_sizeAt]
  refine List.sum_le_sum fun i _ => ?_
  rw [h.reply]
  exact granules_replyLength_le _ _

/-- The pieces for the views in the client. -/
theorem clientTaken_le (h : Sized data cfg) :
    cfg.clientTaken (Client.called Client.benchmark).length ≤ 13387 := by
  have hle := SharedMem.Config.clientTaken_add_le h.nonempty
    (Client.called Client.benchmark).length
  have hfirst : SharedMem.granules (cfg.reply 0).bytes.length ≤ 17 := by
    rw [h.reply]
    exact (granules_replyLength_le _ _).trans (by cases Client.sizeAt 0 <;> decide)
  have hserver := h.serverTaken_le
  have hreplies := h.replies_le
  have hcalls := Client.length_called
  generalize cfg.clientTaken _ = client at hle ⊢
  generalize cfg.serverTaken _ = server at hle hserver
  omega

end Sized

/-! ## All the calls -/

/-- For two programs that talk through the shared memory without `-o` every message fits
    its section.  With a gigabyte of address space each, neither program crashes before
    all the calls have returned, and these are bound to return, with `-r` once the server
    has started and opened both of the client's sections, or none, and else whatever has
    happened so far. -/
theorem sharedMem_programs_return {w : Unwritten} {args : List WStr} {c : Client.Options}
    {s : Server.Options} {clientSpace serverSpace : SharedMem.Space} (h : Started args c s)
    (hcall : c.call = .sharedMem) (ho : c.oneway = false) :
    s.replier = .sharedMem ∧
      SharedMem.MessagesFit (memoryOf generatedMessages w clientSpace serverSpace c s) ∧
      (clientSpace.Holds 16384 → serverSpace.Holds 16384 → ∀ tr m,
        Exec (SharedMem.conversation
          (memoryOf generatedMessages w clientSpace serverSpace c s)) tr m →
        SharedMem.ServerStarted
          (memoryOf generatedMessages w clientSpace serverSpace c s) tr m →
        m.client.handed.length < (Client.called Client.benchmark).length → m.Up ∧
          Inevitable (SharedMem.conversation
              (memoryOf generatedMessages w clientSpace serverSpace c s))
            (fun t => t.Up ∧ (Client.called Client.benchmark).length ≤ t.client.handed.length)
            m) := by
  obtain ⟨hofClient, hofServer⟩ := h.settings
  have hsame : s.reuse = c.reuse := hofServer.reuse.trans hofClient.reuse.symm
  have hsized : Sized c.builder (memoryOf generatedMessages w clientSpace serverSpace c s) :=
    h.sized ho w
  have hfit := hsized.messagesFit
  refine ⟨hofServer.replier.trans (hofClient.call.symm.trans hcall), hfit, ?_⟩
  intro hclient hserver tr m hexec hstarted hlt
  have hclientRoom := hclient.mono (hsized.clientTaken_le.trans (by decide))
  have hserverRoom := hserver.mono (hsized.serverTaken_le.trans (by decide))
  have hsound := SharedMem.Sound.of_room hsame.symm hfit hsized.nonempty hclientRoom hserverRoom
    hexec hstarted hlt
  exact ⟨hsound.up, hsound.inevitable hsame.symm hfit hsized.nonempty hclientRoom hserverRoom
    hexec hstarted⟩

/-! ## Without any arguments -/

theorem plain_started : Started [] Client.Options.start Server.Options.start where
  client := ⟨text "NativeClient", by decide, by decide⟩
  server := ⟨text "NativeServer", by decide, by decide⟩

/-- The configuration in which they talk, with 2 GB of address space each. -/
def plainMemory : SharedMem.Config :=
  memoryOf generatedMessages zeroedMemory (.ofGranules 32768) (.ofGranules 32768)
    Client.Options.start Server.Options.start

/-- All the calls of the client are bound to return. -/
theorem plainStart_programs_return :
    Server.Options.start.replier = .sharedMem ∧ SharedMem.MessagesFit plainMemory ∧
      (SharedMem.conversation plainMemory).init.Up ∧
      Inevitable (SharedMem.conversation plainMemory)
        (fun t => t.Up ∧ (Client.called Client.benchmark).length ≤ t.client.handed.length)
        (SharedMem.conversation plainMemory).init := by
  have hroom : (SharedMem.Space.ofGranules 32768).Holds 16384 :=
    (SharedMem.Space.holds_ofGranules 32768).mono (by decide)
  obtain ⟨hreplier, hfit, hreturn⟩ := sharedMem_programs_return (w := zeroedMemory)
    plain_started rfl rfl
  refine ⟨hreplier, hfit, hreturn hroom hroom [] _ .init (fun h => by cases h) ?_⟩
  rw [Client.length_called]
  exact Nat.zero_lt_succ _

end IpcWin
