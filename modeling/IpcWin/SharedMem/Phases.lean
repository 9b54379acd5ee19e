/-
  IpcWin.SharedMem.Phases

  What the exchange of messages depends on, and how each program moves it.

  Most steps of the two programs only open, create or map something.  A `phase`
  groups the places a program can be in by what it has done to the sections and
  events in this round, and a `view` keeps the phase and the values exchanged.
  `Server.Moves` and `Client.Moves` list what a step can do to the views; every
  other step leaves them as they are.
-/

import IpcWin.SharedMem.Client

namespace IpcWin.SharedMem

open IpcWin.Lib IpcWin.Wire

/-! ## Views -/

/-- How far the server is with a request and its reply. -/
inductive ServerPhase where
  /-- waiting for a request -/
  | idle
  /-- released by the request's event, before it reads the size -/
  | reading
  /-- the size has been read -/
  | sized
  /-- the request has been copied, and the client is about to be told -/
  | copied
  /-- about to build the reply -/
  | building
  /-- the reply is built, and its size not yet written -/
  | built
  /-- the size of the reply has been written -/
  | sizeWritten
  /-- the reply has been written -/
  | replied
deriving DecidableEq, Repr

def ServerPc.phase : ServerPc → ServerPhase
  | .startOpenSize | .startOpenData | .startCreateSize | .startCreateData => .idle
  | .openMade | .waitMade => .idle
  | .openSize | .openData | .mapRequestSize | .readSize => .reading
  | .mapRequestData | .readData => .sized
  | .createRead | .setRead => .copied
  | .build => .building
  | .createSize | .createData | .mapSize | .mapData | .writeSize => .built
  | .writeData => .sizeWritten
  | .createResponse | .setResponse | .openReadResponse | .waitReadResponse => .replied

/-- How far the client is with a request and its reply. -/
inductive ClientPhase where
  /-- about to build a request -/
  | idle
  /-- the request is built, and its size not yet written -/
  | built
  | sizeWritten
  | written
  /-- the server has been told, and not yet answered that it has the request -/
  | asking
  /-- before it reads the size of the reply -/
  | awaiting
  | gotSize
  | gotData
deriving DecidableEq, Repr

def ClientPc.phase : ClientPc → ClientPhase
  | .startCreateSize | .startCreateData | .startOpenSize | .startOpenData | .build => .idle
  | .createSize | .createData | .mapRequestSize | .mapRequestData | .writeSize => .built
  | .writeData => .sizeWritten
  | .createMade | .setMade => .written
  | .openRead | .waitRead => .asking
  | .openResponse | .waitResponse | .openSize | .openData | .mapSize | .readSize => .awaiting
  | .mapData | .readData => .gotSize
  | .createReadResponse | .setReadResponse | .deliver => .gotData

/-- What the exchange depends on at the server. -/
structure ServerView where
  phase : ServerPhase
  requestPacket : Word
  request : List Byte
  response : Packet
  received : List Received

/-- What the exchange depends on at the client. -/
structure ClientView where
  phase : ClientPhase
  rdata : Packet
  packet : Word
  data : List Byte
  handed : List Received

/-- What the exchange depends on in the kernel: the two auto-reset events, the size
    words, and the first bytes of the two data sections. -/
structure KernelView where
  made : Bool
  read : Bool
  requestSize : List Byte
  requestData : Nat → List Byte
  replySize : List Byte
  replyData : Nat → List Byte

def Server.view (s : Server) : ServerView :=
  { phase := s.pc.phase, requestPacket := s.requestPacket, request := s.request
    response := s.response, received := s.received }

def Client.view (c : Client) : ClientView :=
  { phase := c.pc.phase, rdata := c.rdata, packet := c.packet, data := c.data
    handed := c.handed }

def Kernel.view (k : Kernel) : KernelView :=
  { made := signalled k.clientMadeRequestEvent
    read := signalled k.serverReadRequestEvent
    requestSize := contents k.sizeOfDataRequest 4
    requestData := contents k.clientMessageData
    replySize := contents k.sizeOfData 4
    replyData := contents k.serverMessageData }

/-! ## Moves -/

/-- What a step of the server does to the views. -/
inductive Server.Moves (cfg : Config) (s : ServerView) (k : KernelView) :
    ServerView → KernelView → Prop
  | silent : Moves cfg s k s k
  | take (h : s.phase = .idle) (hm : k.made = true) :
      Moves cfg s k { s with phase := .reading } { k with made := false }
  | readSize (h : s.phase = .reading) :
      Moves cfg s k { s with phase := .sized, requestPacket := bytesInt k.requestSize } k
  | readData (h : s.phase = .sized) :
      Moves cfg s k
        { s with phase := .copied, request := k.requestData s.requestPacket.toNat } k
  | tell (h : s.phase = .copied) :
      Moves cfg s k { s with phase := .building } { k with read := true }
  | build (h : s.phase = .building) :
      Moves cfg s k
        { s with
          phase := .built, received := s.received ++ [(s.requestPacket, some s.request)]
          response := cfg.builder (s.received ++ [(s.requestPacket, some s.request)]) } k
  | writeSize (h : s.phase = .built) :
      Moves cfg s k { s with phase := .sizeWritten }
        { k with replySize := intBytes s.response.size }
  | writeData (h : s.phase = .sizeWritten) (replyData : Nat → List Byte)
      (hd : replyData s.response.bytes.length = s.response.bytes) :
      Moves cfg s k { s with phase := .replied } { k with replyData := replyData }
  | finish (h : s.phase = .replied) : Moves cfg s k { s with phase := .idle } k

/-- What a step of the client at `pc` does to the views. -/
inductive Client.Moves (cfg : Config) (pc : ClientPc) (c : ClientView) (k : KernelView) :
    ClientView → KernelView → Prop
  | silent : Moves cfg pc c k c k
  | build (h : c.phase = .idle) :
      Moves cfg pc c k
        { c with phase := .built, rdata := cfg.request c.handed.length } k
  | writeSize (h : c.phase = .built) :
      Moves cfg pc c k { c with phase := .sizeWritten }
        { k with requestSize := intBytes c.rdata.size }
  | writeData (h : c.phase = .sizeWritten) (requestData : Nat → List Byte)
      (hd : requestData c.rdata.bytes.length = c.rdata.bytes) :
      Moves cfg pc c k { c with phase := .written } { k with requestData := requestData }
  | ask (h : c.phase = .written) :
      Moves cfg pc c k { c with phase := .asking } { k with made := true }
  | resume (h : c.phase = .asking) (hr : k.read = true) :
      Moves cfg pc c k { c with phase := .awaiting } { k with read := false }
  | readSize (h : c.phase = .awaiting) (hpc : pc = .readSize) :
      Moves cfg pc c k { c with phase := .gotSize, packet := bytesInt k.replySize } k
  | readData (h : c.phase = .gotSize) (hpc : pc = .readData) :
      Moves cfg pc c k { c with phase := .gotData, data := k.replyData c.packet.toNat } k
  | deliver (h : c.phase = .gotData) :
      Moves cfg pc c k
        { c with phase := .idle, handed := c.handed ++ [(c.packet, some c.data)] } k

/-- The kernel a program steps in: the two events are auto-reset events, and each
    exists by the time it is set. -/
structure EventsReady (spc : ServerPc) (cpc : ClientPc) (k : Kernel) : Prop where
  madeAuto : AutoReset k.clientMadeRequestEvent
  readAuto : AutoReset k.serverReadRequestEvent
  madeCreated : cpc = .setMade → k.clientMadeRequestEvent.isSome = true
  readCreated : spc = .setRead → k.serverReadRequestEvent.isSome = true

/-- A word read from a section is the word that its first four bytes hold. -/
theorem contents_intBytes {view : Bool} {sec sec' : Option Section} {x : Word}
    (h : copyTo view sec (intBytes x) = some sec') : contents sec' 4 = intBytes x := by
  have hc := contents_of_copyTo h
  rwa [intBytes_length] at hc

/-- A step that changes neither view. -/
theorem Server.Moves.of_eq {cfg : Config} {s s' : ServerView} {k k' : KernelView}
    (hs : s' = s) (hk : k' = k) : Server.Moves cfg s k s' k' := by
  subst hs hk
  exact .silent

theorem Client.Moves.of_eq {cfg : Config} {pc : ClientPc} {c c' : ClientView}
    {k k' : KernelView} (hc : c' = c) (hk : k' = k) : Client.Moves cfg pc c k c' k' := by
  subst hc hk
  exact .silent

/-- Every step of the server moves the views as listed. -/
theorem Server.moves_of_step {cfg : Config} {s s' : Server} {cpc : ClientPc} {k k' : Kernel}
    (hk : EventsReady s.pc cpc k) (h : s.step cfg k = some (s', k')) :
    Server.Moves cfg s.view k.view s'.view k'.view := by
  have hphase : s.view.phase = s.pc.phase := rfl
  cases hpc : s.pc <;> rw [hpc] at hphase <;> simp only [step, hpc] at h
  case waitMade =>
    split_ifs at h with _ hmade
    cases h
    have hs : (s.released cfg).view = { s.view with phase := .reading } := by
      unfold released
      split_ifs <;> rfl
    have hkv : ({ k with clientMadeRequestEvent := waitEvent k.clientMadeRequestEvent }).view =
        { k.view with made := false } := by
      simp only [Kernel.view, signalled_waitEvent hk.madeAuto]
    rw [hs, hkv]
    exact .take hphase hmade
  case readSize =>
    split_ifs at h
    split at h
    · cases h
      exact .silent
    · rename_i bs hbs
      cases h
      rw [copyFrom_eq_some hbs]
      exact .readSize hphase
  case readData =>
    split_ifs at h
    split at h
    · cases h
      exact .silent
    · rename_i bs hbs
      cases h
      rw [copyFrom_eq_some hbs]
      exact .readData hphase
  case setRead =>
    split_ifs at h
    cases h
    have hkv : ({ k with serverReadRequestEvent := setEvent k.serverReadRequestEvent }).view =
        { k.view with read := true } := by
      simp only [Kernel.view, signalled_setEvent (hk.readCreated hpc)]
    rw [hkv]
    exact .tell hphase
  case build =>
    split_ifs at h
    cases h
    have hs : (s.build cfg).view =
        { s.view with
          phase := .built, received := s.received ++ [(s.requestPacket, some s.request)]
          response := cfg.builder (s.received ++ [(s.requestPacket, some s.request)]) } := by
      unfold build
      split_ifs <;> rfl
    rw [hs]
    exact .build hphase
  case writeSize =>
    split_ifs at h
    split at h
    · cases h
      exact .silent
    · rename_i sec hsec
      cases h
      have hkv : ({ k with sizeOfData := sec }).view =
          { k.view with replySize := intBytes s.response.size } := by
        simp only [Kernel.view, contents_intBytes hsec]
      rw [hkv]
      exact .writeSize hphase
  case writeData =>
    split_ifs at h
    split at h
    · cases h
      exact .silent
    · rename_i sec hsec
      cases h
      exact .writeData hphase (contents sec) (contents_of_copyTo hsec)
  case waitReadResponse =>
    split_ifs at h
    cases h
    exact .finish hphase
  -- what is left opens, creates, maps or crashes
  all_goals
    split_ifs at h
    cases h
    refine .of_eq ?_ ?_
    · simp [Server.view, hpc, ServerPc.phase]
    · simp [Kernel.view, funext_iff]

/-- Every step of the client moves the views as listed. -/
theorem Client.moves_of_step {cfg : Config} {c c' : Client} {spc : ServerPc} {k k' : Kernel}
    (hk : EventsReady spc c.pc k) (h : c.step cfg k = some (c', k')) :
    Client.Moves cfg c.pc c.view k.view c'.view k'.view := by
  have hphase : c.view.phase = c.pc.phase := rfl
  cases hpc : c.pc <;> rw [hpc] at hphase <;> simp only [step, hpc] at h
  case build =>
    split_ifs at h
    cases h
    have hc : (c.build cfg).view =
        { c.view with phase := .built, rdata := cfg.request c.handed.length } := by
      unfold build
      split_ifs <;> rfl
    rw [hc]
    exact .build hphase
  case writeSize =>
    split_ifs at h
    split at h
    · cases h
      exact .silent
    · rename_i sec hsec
      cases h
      have hkv : ({ k with sizeOfDataRequest := sec }).view =
          { k.view with requestSize := intBytes c.rdata.size } := by
        simp only [Kernel.view, contents_intBytes hsec]
      rw [hkv]
      exact .writeSize hphase
  case writeData =>
    split_ifs at h
    split at h
    · cases h
      exact .silent
    · rename_i sec hsec
      cases h
      exact .writeData hphase (contents sec) (contents_of_copyTo hsec)
  case setMade =>
    split_ifs at h
    cases h
    have hkv : ({ k with clientMadeRequestEvent := setEvent k.clientMadeRequestEvent }).view =
        { k.view with made := true } := by
      simp only [Kernel.view, signalled_setEvent (hk.madeCreated hpc)]
    rw [hkv]
    exact .ask hphase
  case waitRead =>
    split_ifs at h with _ hread
    cases h
    have hkv : ({ k with serverReadRequestEvent := waitEvent k.serverReadRequestEvent }).view =
        { k.view with read := false } := by
      simp only [Kernel.view, signalled_waitEvent hk.readAuto]
    rw [hkv]
    exact .resume hphase hread
  case waitResponse =>
    split_ifs at h
    cases h
    refine .of_eq ?_ rfl
    unfold released
    split_ifs <;> simp [Client.view, hpc, ClientPc.phase]
  case readSize =>
    split_ifs at h
    split at h
    · cases h
      exact .silent
    · rename_i bs hbs
      cases h
      rw [copyFrom_eq_some hbs]
      exact .readSize hphase rfl
  case readData =>
    split_ifs at h
    split at h
    · cases h
      exact .silent
    · rename_i bs hbs
      cases h
      rw [copyFrom_eq_some hbs]
      exact .readData hphase rfl
  case deliver =>
    split_ifs at h
    cases h
    exact .deliver hphase
  -- what is left opens, creates, maps or crashes
  all_goals
    split_ifs at h
    cases h
    refine .of_eq ?_ ?_
    · simp [Client.view, hpc, ClientPc.phase]
    · simp [Kernel.view, funext_iff]

end IpcWin.SharedMem
