/-
  IpcWin.Pipes.Server

  The server of pipe mode: `pipe_init` and `replyPipes`
  (`NativeServer/NativeServer.cpp`), one step for each call they make.

  `Server.step` is the code; `Server.Step` lists its transitions one by one, and
  every invariant is proved from the list (`Server.step_cases`).
-/

import IpcWin.Pipes.Kernel
import IpcWin.Native.Memory

namespace IpcWin.Pipes

open IpcWin.Lib IpcWin.Wire
open IpcWin.Native (malloc)

/-- What a conversation is run with: the `-r` and `-o` flags of both programs, the
    sizes of the two queues, whether a `ReadFile` may return short, what a new
    block holds, the client's requests in turn, and the server's builder as a
    function of all it has been handed so far. -/
structure Config where
  reuse : Bool
  oneway : Bool
  inbuf : Nat
  outbuf : Nat
  shortReads : Bool
  junk : Nat → Byte
  request : Nat → Packet
  builder : List Received → Packet

/-! ## The server program -/

/-- Where the server is: the calls of `pipe_init`, then those of `replyPipes`. -/
inductive ServerPc where
  /-- `CreateNamedPipe` -/
  | create
  /-- about to call `ConnectNamedPipe` -/
  | connect
  /-- blocked inside `ConnectNamedPipe` -/
  | connecting
  /-- `ReadFile(transport, &rSize, sizeof(long), ..)` -/
  | readSize
  /-- `ReadFile(transport, request_data, rSize, ..)` -/
  | readData
  /-- the builder `b` -/
  | build
  /-- `WriteFile` of the reply, or of the confirmation -/
  | write
  | flush
  | disconnect
  | close
deriving DecidableEq, Repr

/-- The server's locals.  `got` is what the `ReadFile` in progress has taken,
    `pending` what the `WriteFile` in progress has left, and `received` lists the
    arguments of every call of the builder. -/
structure Server where
  pc : ServerPc
  got : List Byte
  rSize : Word
  request : Option (List Byte)
  pending : List Byte
  received : List Received
deriving DecidableEq, Repr

def Server.start : Server :=
  { pc := .create, got := [], rSize := 0, request := none, pending := [], received := [] }

namespace Server

/-- `replyPipes` is entered with a transport; `rSize` is zero again. -/
def enter (s : Server) : Server := { s with pc := .readSize, got := [], rSize := 0 }

/-- The end of `replyPipes`: with `-r` it is called again with the same transport. -/
def finish (cfg : Config) (s : Server) : Server :=
  if cfg.reuse then s.enter else { s with pc := .disconnect }

/-- The length word has been read: the block is allocated. -/
def sized (cfg : Config) (s : Server) : Server :=
  { s with
    pc := .readData, got := [], rSize := sizeWord s.got
    request := malloc cfg.junk (sizeWord s.got) }

/-- The reply, or in one-way mode the confirmation, is ready to be written. -/
def reply (cfg : Config) (s : Server) : Server :=
  if cfg.oneway then { s with pc := .write, pending := [1] }
  else
    let received := s.received ++ [(s.rSize, s.request)]
    { s with pc := .write, received := received, pending := frame (cfg.builder received) }

@[simp] theorem enter_pc (s : Server) : s.enter.pc = .readSize := rfl

@[simp] theorem sized_pc (cfg : Config) (s : Server) : (s.sized cfg).pc = .readData := rfl

@[simp] theorem reply_pc (cfg : Config) (s : Server) : (s.reply cfg).pc = .write := by
  unfold reply
  split <;> rfl

theorem reply_of_not_oneway {cfg : Config} (ho : cfg.oneway = false) (s : Server) :
    s.reply cfg =
      { s with
        pc := .write, received := s.received ++ [(s.rSize, s.request)]
        pending := frame (cfg.builder (s.received ++ [(s.rSize, s.request)])) } := by
  simp [reply, ho]

theorem finish_of_reuse {cfg : Config} (hr : cfg.reuse = true) (s : Server) :
    s.finish cfg = s.enter := if_pos hr

theorem finish_pc (cfg : Config) (s : Server) :
    (s.finish cfg).pc = if cfg.reuse then .readSize else .disconnect := by
  unfold finish
  split <;> rfl

/-- `pipe_init` and `replyPipes`, one call at a time. -/
def step (cfg : Config) (io : Io) (s : Server) (p : Pipe) : Option (Server × Pipe) :=
  match s.pc, io with
  | .create, .run => some ({ s with pc := .connect }, Pipe.create)
  | .connect, .run =>
      -- without a client the call blocks; on an instance that has or had one it
      -- returns zero, and the loop calls it again
      if p.state = .listening then some ({ s with pc := .connecting }, p) else some (s, p)
  | .connecting, .run => if p.state = .listening then none else some (s.enter, p)
  | .readSize, .take j =>
      (readPiece 4 s.got p.toServer j).map fun q =>
        ({ s with got := q.1 }, { p with toServer := q.2 })
  | .readSize, .ret =>
      if readReturns cfg.shortReads p.gone 4 s.got p.toServer then
        -- the read failed with `ERROR_BROKEN_PIPE`: "CLIENT CLOSED"
        if cfg.reuse && (p.gone && s.got.isEmpty) then some (s.enter, p)
        else some (s.sized cfg, p)
      else none
  | .readData, .take j =>
      match s.request with
      | none => none
      | some block =>
          (readPiece block.length s.got p.toServer j).map fun q =>
            ({ s with got := q.1 }, { p with toServer := q.2 })
  | .readData, .ret =>
      match s.request with
      | none => some ({ s with pc := .build }, p)
      | some block =>
          if readReturns cfg.shortReads p.gone block.length s.got p.toServer then
            some ({ s with pc := .build, request := some (readInto s.got block) }, p)
          else none
  | .build, .run => some (s.reply cfg, p)
  | .write, .put j =>
      (writePiece cfg.outbuf s.pending p.toClient j).map fun q =>
        ({ s with pending := q.1 }, { p with toClient := q.2 })
  | .write, .ret =>
      if writeReturns p.gone s.pending then
        let s' := { s with pending := [] }
        if cfg.oneway then some (s'.finish cfg, p) else some ({ s' with pc := .flush }, p)
      else none
  | .flush, .run =>
      if p.toClient.queue.isEmpty || p.gone then some (s.finish cfg, p) else none
  | .disconnect, .run => some ({ s with pc := .close }, p.disconnect)
  | .close, .run => some ({ s with pc := .create }, { p with state := .absent })
  | _, _ => none

/-! ## The transitions -/

/-- Every transition of `step`, with its guard. -/
inductive Step (cfg : Config) (s : Server) (p : Pipe) : Io → Server → Pipe → Prop
  | create (h : s.pc = .create) : Step cfg s p .run { s with pc := .connect } Pipe.create
  | block (h : s.pc = .connect) (hp : p.state = .listening) :
      Step cfg s p .run { s with pc := .connecting } p
  | spin (h : s.pc = .connect) (hp : p.state ≠ .listening) : Step cfg s p .run s p
  | accept (h : s.pc = .connecting) (hp : p.state ≠ .listening) : Step cfg s p .run s.enter p
  | takeSize (h : s.pc = .readSize) (j : Nat) {got : List Byte} {ch : Channel Byte}
      (hr : readPiece 4 s.got p.toServer j = some (got, ch)) :
      Step cfg s p (.take j) { s with got := got } { p with toServer := ch }
  | clientClosed (h : s.pc = .readSize) (hr : cfg.reuse = true)
      (hgone : p.gone = true) (hgot : s.got = []) : Step cfg s p .ret s.enter p
  | sized (h : s.pc = .readSize)
      (hr : readReturns cfg.shortReads p.gone 4 s.got p.toServer = true) :
      Step cfg s p .ret (s.sized cfg) p
  | takeData (h : s.pc = .readData) (j : Nat) {block got : List Byte} {ch : Channel Byte}
      (hb : s.request = some block)
      (hr : readPiece block.length s.got p.toServer j = some (got, ch)) :
      Step cfg s p (.take j) { s with got := got } { p with toServer := ch }
  | readNull (h : s.pc = .readData) (hb : s.request = none) :
      Step cfg s p .ret { s with pc := .build } p
  | dataRead (h : s.pc = .readData) {block : List Byte} (hb : s.request = some block)
      (hr : readReturns cfg.shortReads p.gone block.length s.got p.toServer = true) :
      Step cfg s p .ret { s with pc := .build, request := some (readInto s.got block) } p
  | reply (h : s.pc = .build) : Step cfg s p .run (s.reply cfg) p
  | putReply (h : s.pc = .write) (j : Nat) {pending : List Byte} {ch : Channel Byte}
      (hw : writePiece cfg.outbuf s.pending p.toClient j = some (pending, ch)) :
      Step cfg s p (.put j) { s with pending := pending } { p with toClient := ch }
  | confirmed (h : s.pc = .write) (hone : cfg.oneway = true)
      (hw : writeReturns p.gone s.pending = true) :
      Step cfg s p .ret ({ s with pending := [] }.finish cfg) p
  | written (h : s.pc = .write) (hone : cfg.oneway = false)
      (hw : writeReturns p.gone s.pending = true) :
      Step cfg s p .ret { s with pc := .flush, pending := [] } p
  | flushed (h : s.pc = .flush) (hf : p.toClient.queue = [] ∨ p.gone = true) :
      Step cfg s p .run (s.finish cfg) p
  | disconnect (h : s.pc = .disconnect) : Step cfg s p .run { s with pc := .close } p.disconnect
  | close (h : s.pc = .close) :
      Step cfg s p .run { s with pc := .create } { p with state := .absent }

/-- Every step of the server is one of the listed transitions. -/
theorem step_cases {cfg : Config} {io : Io} {s s' : Server} {p p' : Pipe}
    (h : s.step cfg io p = some (s', p')) : Step cfg s p io s' p' := by
  unfold step at h
  split at h
  · cases h
    exact .create ‹_›
  · split_ifs at h with hp
    · cases h
      exact .block ‹_› hp
    · cases h
      exact .spin ‹_› hp
  · split_ifs at h with hp
    cases h
    exact .accept ‹_› hp
  · obtain ⟨⟨got, ch⟩, hr, hq⟩ := Option.map_eq_some_iff.mp h
    cases hq
    exact .takeSize ‹_› _ hr
  · split_ifs at h with hr hc
    · cases h
      simp only [Bool.and_eq_true, List.isEmpty_iff] at hc
      exact .clientClosed ‹_› hc.1 hc.2.1 hc.2.2
    · cases h
      exact .sized ‹_› hr
  · split at h
    · cases h
    · obtain ⟨⟨got, ch⟩, hr, hq⟩ := Option.map_eq_some_iff.mp h
      cases hq
      exact .takeData ‹_› _ ‹_› hr
  · split at h
    · cases h
      exact .readNull ‹_› ‹_›
    · split_ifs at h with hr
      cases h
      exact .dataRead ‹_› ‹_› hr
  · cases h
    exact .reply ‹_›
  · obtain ⟨⟨pending, ch⟩, hw, hq⟩ := Option.map_eq_some_iff.mp h
    cases hq
    exact .putReply ‹_› _ hw
  · simp only at h
    split_ifs at h with hw hone
    · cases h
      exact .confirmed ‹_› hone hw
    · cases h
      exact .written ‹_› (by simpa using hone) hw
  · split_ifs at h with hf
    cases h
    simp only [Bool.or_eq_true, List.isEmpty_iff] at hf
    exact .flushed ‹_› hf
  · cases h
    exact .disconnect ‹_›
  · cases h
    exact .close ‹_›
  · cases h

end Server

end IpcWin.Pipes
