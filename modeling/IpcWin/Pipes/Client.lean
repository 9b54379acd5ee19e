/-
  IpcWin.Pipes.Client

  The client of pipe mode: `makePipeRequest` (`NativeClient/NativeClient.cpp`),
  called again and again, one step for each call it makes.

  As for the server, `Client.step` is the code and `Client.Step` lists its
  transitions.
-/

import IpcWin.Pipes.Server

namespace IpcWin.Pipes

open IpcWin.Lib IpcWin.Wire
open IpcWin.Native (malloc)

/-- Where the client is in `makePipeRequest`. -/
inductive ClientPc where
  /-- at the top, deciding whether to open the pipe -/
  | start
  /-- `while ( !WaitNamedPipe(pipe_name, 1));` -/
  | waitPipe
  /-- the loop around `CreateFile` -/
  | createFile
  /-- the builder `b` -/
  | build
  /-- `WriteFile` of the request -/
  | write
  /-- `ReadFile(hPipe, &responseSize, sizeof(long), ..)` -/
  | readSize
  /-- `ReadFile(hPipe, response, responseSize, ..)` -/
  | readData
  /-- one-way mode: `ReadFile(hPipe, &got_data, sizeof(bool), ..)` -/
  | readAck
  | close
  /-- the builder `br` is handed the reply -/
  | deliver
deriving DecidableEq, Repr

/-- The client's locals and its global `hPipe`, of which only the validity
    matters.  `made` counts the requests built, `delivered` lists the arguments
    of every call of the response builder. -/
structure Client where
  pc : ClientPc
  hPipe : Bool
  got : List Byte
  responseSize : Word
  response : Option (List Byte)
  pending : List Byte
  made : Nat
  delivered : List Received
deriving DecidableEq, Repr

def Client.start : Client :=
  { pc := .start, hPipe := false, got := [], responseSize := 0, response := none, pending := []
    made := 0, delivered := [] }

namespace Client

/-- The top of `makePipeRequest`: without `-r` the handle is given up. -/
def enter (cfg : Config) (c : Client) : Client :=
  let hPipe := c.hPipe && cfg.reuse
  { c with hPipe := hPipe, pc := if hPipe then .build else .waitPipe }

/-- The next request is built and framed. -/
def request (cfg : Config) (c : Client) : Client :=
  { c with pc := .write, made := c.made + 1, pending := frame (cfg.request c.made) }

/-- The request has been written; `responseSize` is zero before it is read. -/
def sent (cfg : Config) (c : Client) : Client :=
  { c with
    pc := if cfg.oneway then .readAck else .readSize
    pending := [], got := [], responseSize := 0 }

/-- The length word has been read: the block is allocated. -/
def sized (cfg : Config) (c : Client) : Client :=
  { c with
    pc := .readData, got := [], responseSize := sizeWord c.got
    response := malloc cfg.junk (sizeWord c.got) }

/-- The end of a call: the reply, if there is one, goes to `br`. -/
def deliver (cfg : Config) (c : Client) : Client :=
  if cfg.oneway then { c with pc := .start }
  else { c with pc := .start, delivered := c.delivered ++ [(c.responseSize, c.response)] }

/-- `CloseHandle(hPipe)`, unless the pipe is kept. -/
def closeHandle (cfg : Config) (p : Pipe) : Pipe :=
  if cfg.reuse || p.gone then p else { p with state := .closing }

theorem deliver_of_not_oneway {cfg : Config} (ho : cfg.oneway = false) (c : Client) :
    c.deliver cfg =
      { c with pc := .start, delivered := c.delivered ++ [(c.responseSize, c.response)] } := by
  simp [deliver, ho]

theorem closeHandle_of_reuse {cfg : Config} (hr : cfg.reuse = true) (p : Pipe) :
    closeHandle cfg p = p := by
  simp [closeHandle, hr]

/-- `makePipeRequest`, one call at a time. -/
def step (cfg : Config) (io : Io) (c : Client) (p : Pipe) : Option (Client × Pipe) :=
  match c.pc, io with
  | .start, .run => some (c.enter cfg, p)
  | .waitPipe, .run => if p.state = .listening then some ({ c with pc := .createFile }, p) else none
  | .createFile, .run =>
      -- an attempt that fails is made again
      if p.state = .listening then
        some ({ c with pc := .build, hPipe := true }, { p with state := .connected })
      else none
  | .build, .run => some (c.request cfg, p)
  | .write, .put j =>
      (writePiece cfg.inbuf c.pending p.toServer j).map fun q =>
        ({ c with pending := q.1 }, { p with toServer := q.2 })
  | .write, .ret => if writeReturns p.gone c.pending then some (c.sent cfg, p) else none
  | .readSize, .take j =>
      (readPiece 4 c.got p.toClient j).map fun q =>
        ({ c with got := q.1 }, { p with toClient := q.2 })
  | .readSize, .ret =>
      if readReturns cfg.shortReads p.gone 4 c.got p.toClient then some (c.sized cfg, p)
      else none
  | .readData, .take j =>
      match c.response with
      | none => none
      | some block =>
          (readPiece block.length c.got p.toClient j).map fun q =>
            ({ c with got := q.1 }, { p with toClient := q.2 })
  | .readData, .ret =>
      match c.response with
      | none => some ({ c with pc := .close }, p)
      | some block =>
          if readReturns cfg.shortReads p.gone block.length c.got p.toClient then
            some ({ c with pc := .close, response := some (readInto c.got block) }, p)
          else none
  | .readAck, .take j =>
      (readPiece 1 c.got p.toClient j).map fun q =>
        ({ c with got := q.1 }, { p with toClient := q.2 })
  | .readAck, .ret =>
      if readReturns cfg.shortReads p.gone 1 c.got p.toClient then
        some ({ c with pc := .close }, p)
      else none
  | .close, .run => some ({ c with pc := .deliver }, closeHandle cfg p)
  | .deliver, .run => some (c.deliver cfg, p)
  | _, _ => none

/-! ## The transitions -/

/-- Every transition of `step`, with its guard. -/
inductive Step (cfg : Config) (c : Client) (p : Pipe) : Io → Client → Pipe → Prop
  | enter (h : c.pc = .start) : Step cfg c p .run (c.enter cfg) p
  | waited (h : c.pc = .waitPipe) (hp : p.state = .listening) :
      Step cfg c p .run { c with pc := .createFile } p
  | createFile (h : c.pc = .createFile) (hp : p.state = .listening) :
      Step cfg c p .run { c with pc := .build, hPipe := true } { p with state := .connected }
  | request (h : c.pc = .build) : Step cfg c p .run (c.request cfg) p
  | putRequest (h : c.pc = .write) (j : Nat) {pending : List Byte} {ch : Channel Byte}
      (hw : writePiece cfg.inbuf c.pending p.toServer j = some (pending, ch)) :
      Step cfg c p (.put j) { c with pending := pending } { p with toServer := ch }
  | sent (h : c.pc = .write) (hw : writeReturns p.gone c.pending = true) :
      Step cfg c p .ret (c.sent cfg) p
  | takeSize (h : c.pc = .readSize) (j : Nat) {got : List Byte} {ch : Channel Byte}
      (hr : readPiece 4 c.got p.toClient j = some (got, ch)) :
      Step cfg c p (.take j) { c with got := got } { p with toClient := ch }
  | sized (h : c.pc = .readSize)
      (hr : readReturns cfg.shortReads p.gone 4 c.got p.toClient = true) :
      Step cfg c p .ret (c.sized cfg) p
  | takeData (h : c.pc = .readData) (j : Nat) {block got : List Byte} {ch : Channel Byte}
      (hb : c.response = some block)
      (hr : readPiece block.length c.got p.toClient j = some (got, ch)) :
      Step cfg c p (.take j) { c with got := got } { p with toClient := ch }
  | readNull (h : c.pc = .readData) (hb : c.response = none) :
      Step cfg c p .ret { c with pc := .close } p
  | dataRead (h : c.pc = .readData) {block : List Byte} (hb : c.response = some block)
      (hr : readReturns cfg.shortReads p.gone block.length c.got p.toClient = true) :
      Step cfg c p .ret { c with pc := .close, response := some (readInto c.got block) } p
  | takeAck (h : c.pc = .readAck) (j : Nat) {got : List Byte} {ch : Channel Byte}
      (hr : readPiece 1 c.got p.toClient j = some (got, ch)) :
      Step cfg c p (.take j) { c with got := got } { p with toClient := ch }
  | acked (h : c.pc = .readAck)
      (hr : readReturns cfg.shortReads p.gone 1 c.got p.toClient = true) :
      Step cfg c p .ret { c with pc := .close } p
  | close (h : c.pc = .close) : Step cfg c p .run { c with pc := .deliver } (closeHandle cfg p)
  | deliver (h : c.pc = .deliver) : Step cfg c p .run (c.deliver cfg) p

/-- Every step of the client is one of the listed transitions. -/
theorem step_cases {cfg : Config} {io : Io} {c c' : Client} {p p' : Pipe}
    (h : c.step cfg io p = some (c', p')) : Step cfg c p io c' p' := by
  unfold step at h
  split at h
  · cases h
    exact .enter ‹_›
  · split_ifs at h with hp
    cases h
    exact .waited ‹_› hp
  · split_ifs at h with hp
    cases h
    exact .createFile ‹_› hp
  · cases h
    exact .request ‹_›
  · obtain ⟨⟨pending, ch⟩, hw, hq⟩ := Option.map_eq_some_iff.mp h
    cases hq
    exact .putRequest ‹_› _ hw
  · split_ifs at h with hw
    cases h
    exact .sent ‹_› hw
  · obtain ⟨⟨got, ch⟩, hr, hq⟩ := Option.map_eq_some_iff.mp h
    cases hq
    exact .takeSize ‹_› _ hr
  · split_ifs at h with hr
    cases h
    exact .sized ‹_› hr
  · split at h
    · cases h
    · obtain ⟨⟨got, ch⟩, hr, hq⟩ := Option.map_eq_some_iff.mp h
      cases hq
      exact .takeData ‹_› _ ‹_› hr
  · split at h
    · cases h
      exact .readNull ‹_› ‹_›
    · split_ifs at h with hr
      cases h
      exact .dataRead ‹_› ‹_› hr
  · obtain ⟨⟨got, ch⟩, hr, hq⟩ := Option.map_eq_some_iff.mp h
    cases hq
    exact .takeAck ‹_› _ hr
  · split_ifs at h with hr
    cases h
    exact .acked ‹_› hr
  · cases h
    exact .close ‹_›
  · cases h
    exact .deliver ‹_›
  · cases h

end Client

end IpcWin.Pipes
