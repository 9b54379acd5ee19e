/-
  IpcWin.Interop.Programs

  The managed client as it is started, with the native server at the other end of
  the pipe.

  `Main` of `ManagedClient/Program.cs` goes through its arguments as the native
  programs do, but from defaults of its own: pipes, bytes, and a pipe that is kept,
  which no option takes back.  For what it has no function for it is left with
  `null`.  Started with the same arguments the two programs fit together only if the
  arguments say what the defaults do not (`fits_iff`); then every reply is the one
  that the server's tables have for the call (`managed_programs`).
-/

import IpcWin.Interop.Session
import IpcWin.Programs

namespace IpcWin.Interop

open IpcWin.Lib IpcWin.Wire
open IpcWin.Managed (ByteArr Exn arrayCopy asciiBytes asciiString newBytes)
open IpcWin.Native

/-! ## The arguments -/

/-- The functions that carry a call of the managed client. -/
inductive MakeRequest where
  | pipes | rpc | wcf
  deriving DecidableEq, Repr

/-- The variables of `Main` that the options set; `none` is `null`. -/
structure Options where
  builder : Option Data
  br : Option Data
  call : Option MakeRequest
  oneway : Bool
  reuse : Bool
  deriving DecidableEq, Repr

def Options.start : Options :=
  { builder := some .bytes, br := some .bytes, call := some .pipes, oneway := false, reuse := true }

/-- The `switch` behind `-m`. -/
def callOf (s : WStr) : Option MakeRequest :=
  if s = text "pipes" then some .pipes
  else if s = text "messaging" then none
  else if s = text "rpc" then some .rpc
  else if s = text "wcf" then some .wcf
  else none

/-- The choice behind `-d`. -/
def builderOf (s : WStr) : Option Data :=
  if s = text "bytes" then some .bytes else if s = text "object" then some .object else none

/-- The body of the loop; an index behind the last argument throws. -/
def visit : Options → WStr → Option WStr → Option Options :=
  turn (fun s o => { o with call := callOf s })
    (fun s o => { o with builder := builderOf s, br := builderOf s })
    (fun o => { o with reuse := true }) (fun o => { o with oneway := true })

/-- The loop over `args`, which the name of the program is not one of. -/
def options (args : List WStr) : Option Options := scan visit .start args

/-- What a turn of the loop does to each of the variables. -/
theorem visit_eq {o o' : Options} {s : WStr} {next : Option WStr} (h : visit o s next = some o') :
    o'.call = (if s = text "-m" then (next.map callOf).getD o.call else o.call) ∧
    o'.builder = (if s = text "-d" then (next.map builderOf).getD o.builder else o.builder) ∧
    o'.br = (if s = text "-d" then (next.map builderOf).getD o.br else o.br) ∧
    (o'.reuse = true ↔ o.reuse = true ∨ s = text "-r") ∧
    (o'.oneway = true ↔ o.oneway = true ∨ s = text "-o") := by
  rcases turn_cases h with ⟨rfl, v, rfl, rfl⟩ | ⟨rfl, v, rfl, rfl⟩ | ⟨rfl, rfl⟩ | ⟨rfl, rfl⟩ |
    ⟨hs, rfl⟩
  case inr.inr.inr.inr =>
    simp only [optionTexts, List.mem_cons, List.not_mem_nil, or_false, not_or] at hs
    simp [hs]
  all_goals simp [texts_ne]

/-- What the loop comes to. -/
structure Options.Have (m : Options) (args : List WStr) : Prop where
  call : m.call = ((values (text "-m") args).getLast?.map callOf).getD (some .pipes)
  builder : m.builder = ((values (text "-d") args).getLast?.map builderOf).getD (some .bytes)
  br : m.br = m.builder
  reuse : m.reuse = true
  oneway : m.oneway = decide (text "-o" ∈ args)

theorem options_have {args : List WStr} {m : Options} (h : options args = some m) :
    m.Have args := by
  have hcall := scan_value (fun _ _ _ _ h => (visit_eq h).1) h
  have hbuilder := scan_value (fun _ _ _ _ h => (visit_eq h).2.1) h
  have hbr := scan_value (fun _ _ _ _ h => (visit_eq h).2.2.1) h
  have hreuse := scan_flag (fun _ _ _ _ h => (visit_eq h).2.2.2.1) h
  have honeway := scan_flag (fun _ _ _ _ h => (visit_eq h).2.2.2.2) h
  refine ⟨hcall, hbuilder, hbr.trans hbuilder.symm, hreuse.mpr (.inl rfl), ?_⟩
  rw [Bool.eq_iff_iff, honeway]
  simp [Options.start]

/-- The managed client calls the native server over the pipe that it answers on, with data
    that it reads, and each of them keeps the pipe as long as the other. -/
structure Fits (m : Options) (s : Server.Options) : Prop where
  call : m.call = some .pipes
  replier : s.replier = .pipes
  builder : m.builder = some s.builder
  br : m.br = some s.builder
  reuse : m.reuse = s.reuse
  oneway : m.oneway = s.oneway

/-- The last value of an option, as a choice that is made of it. -/
theorem choice_eq_iff {τ : Type} {v : Option WStr} {f : WStr → τ} {c d : τ} (hd : d ≠ c)
    {w : WStr} (hw : ∀ s, f s = c ↔ s = w) : (v.map f).getD d = c ↔ v = some w := by
  cases v with
  | none => simp [hd]
  | some s => simp [hw]

theorem callOf_eq_pipes_iff (s : WStr) : Client.callOf s = .pipes ↔ s = text "pipes" := by
  rw [Client.callOf]
  split_ifs with hpipes hmessaging hrpc
  · simp [hpipes]
  · subst hmessaging
    decide
  · subst hrpc
    decide
  · simp [hpipes]

/-- The choices of the two programs behind `-d` are the same. -/
theorem builderOf_eq_some_iff (s : WStr) :
    builderOf s = some (dataOf s) ↔ s = text "bytes" ∨ s = text "object" := by
  rw [builderOf, dataOf]
  split_ifs with hbytes hobject
  · simp [hbytes]
  · simp [hobject]
  · simp [hbytes, hobject]

/-- Started with the same arguments, the managed client and the native server fit together
    exactly if the last mechanism is the pipe, the last data are bytes or objects, and the
    server is told to keep its pipe. -/
theorem fits_iff {q : WStr} (hq : q ∉ optionTexts) {args : List WStr} {m : Options}
    {s : Server.Options} (hm : options args = some m) (hs : Server.options (q :: args) = some s) :
    Fits m s ↔ (values (text "-m") args).getLast? = some (text "pipes") ∧
      ((values (text "-d") args).getLast? = some (text "bytes") ∨
        (values (text "-d") args).getLast? = some (text "object")) ∧ text "-r" ∈ args := by
  have hclient := options_have hm
  have hserver := Server.options_have hq hs
  have hreplier : s.replier = .pipes ↔
      (values (text "-m") args).getLast? = some (text "pipes") := by
    rw [hserver.replier]
    exact choice_eq_iff (by simp) callOf_eq_pipes_iff
  have hbuilder : m.builder = some s.builder ↔
      (values (text "-d") args).getLast? = some (text "bytes") ∨
        (values (text "-d") args).getLast? = some (text "object") := by
    rw [hclient.builder, hserver.builder, Settings.ofArgs]
    cases (values (text "-d") args).getLast? with
    | none => simp
    | some v => simpa using builderOf_eq_some_iff v
  have hreuse : m.reuse = s.reuse ↔ text "-r" ∈ args := by
    rw [hclient.reuse, hserver.reuse, Settings.ofArgs]
    simp
  constructor
  · intro h
    exact ⟨hreplier.mp h.replier, hbuilder.mp h.builder, hreuse.mp h.reuse⟩
  · rintro ⟨hpipes, hdata, hr⟩
    have hcall : m.call = some .pipes := by
      rw [hclient.call, hpipes]
      decide
    exact ⟨hcall, hreplier.mpr hpipes, hbuilder.mpr hdata, hclient.br.trans (hbuilder.mpr hdata),
      hreuse.mpr hr, hclient.oneway.trans hserver.oneway.symm⟩

/-- The arguments in `managedpipescustomclient.bat` and `pipescustomssrv.bat`. -/
def customArgs : List WStr := [text "-m", text "pipes", text "-d", text "object", text "-r"]

def customClient : Options :=
  { builder := some .object, br := some .object, call := some .pipes, oneway := false
    reuse := true }

def customServer : Server.Options :=
  { replier := .pipes, builder := .object, init := .pipe, mechanism := text "pipes"
    reuse := true, oneway := false }

theorem customArgs_client : options customArgs = some customClient := by decide

theorem customArgs_server :
    Server.options (text "NativeServer" :: customArgs) = some customServer := by decide

theorem customArgs_fits_iff :
    Fits customClient customServer ↔
      (values (text "-m") customArgs).getLast? = some (text "pipes") ∧
      ((values (text "-d") customArgs).getLast? = some (text "bytes") ∨
        (values (text "-d") customArgs).getLast? = some (text "object")) ∧
      text "-r" ∈ customArgs :=
  fits_iff (q := text "NativeServer") (by decide) customArgs_client customArgs_server

/-! ## The calls -/

/-- `init_reqs`, with `rss` read as a function. -/
def initReqs (reqSize ids types : Nat) (rss : Word → Option Managed.CustomRequest) :
    Word → Option Managed.CustomRequest :=
  let rs := Managed.CustomRequest.new
  let rs := { rs with mIds := Client.pushCopies (text "very very cool id") ids rs.mIds }
  let rs := { rs with mTypes := Client.pushCopies (text "very very cool type") types rs.mTypes }
  let rs := { rs with mName := text "cool data" }
  Function.update rss (BitVec.ofNat 32 reqSize) (some rs)

/-- `rss` when the calls begin. -/
def startRss (oneway : Bool) : Word → Option Managed.CustomRequest :=
  let rss : Word → Option Managed.CustomRequest := fun _ => none
  if !oneway then
    let rss := initReqs (100 * kb) 5000 10 rss
    let rss := initReqs (50 * kb) 2500 10 rss
    let rss := initReqs (10 * kb) 500 10 rss
    let rss := initReqs (1 * kb) 50 10 rss
    initReqs (kb / 10) 5 10 rss
  else rss

/-- The loops of `Main`: five calls before the clock is set up, and then those of the native
    client. -/
def benchmark : List Client.Use := Client.loop .size100 5 ++ Client.benchmark

/-- The size of the `k`-th call; behind the last one it does not matter. -/
def sizeAt (k : Nat) : Client.ReqSize := (Client.called benchmark).getD k .size100

/-- `req_bytes`. -/
def reqBytes (size : Word) : Except Exn (ByteArr × Word) := do
  let reqData ← newBytes size
  let msg := asciiBytes (text "Hello from")
  let reqData ← arrayCopy msg reqData 0
  pure (reqData, size)

/-- The packet of a call for a size, which is not multiplied with `-o`.  A call that throws
    ends the program; here it still sends a frame, without any data. -/
def packetAt (m : Options) (s : Client.ReqSize) : Packet :=
  match m.builder with
  | some .object =>
      match startRss m.oneway (BitVec.ofNat 32 s.initial) with
      | some rs => managedPacket rs
      | none => .empty
  | some .bytes =>
      match reqBytes (BitVec.ofNat 32 s.initial) with
      | .ok (b, _) => { bytes := b.bytes, length_lt := b.length_lt }
      | .error _ => .empty
  | _ => .empty

/-! ## What goes out, and what comes back -/

/-- A literal of 7-bit characters. -/
def chars7 (s : String) : List Char7 := s.toList.map fun c => BitVec.ofNat 7 c.toNat

/-- The number of ids that are kept under a size. -/
def idsAt : Client.ReqSize → Nat
  | .size100 => 5000
  | .size50 => 2500
  | .size10 => 500
  | .size1 => 50
  | .size0_1 => 5

theorem initReqs_apply (reqSize ids types : Nat) (rss : Word → Option Managed.CustomRequest)
    (k : Word) : initReqs reqSize ids types rss k =
      if k = BitVec.ofNat 32 reqSize then
        some { Managed.CustomRequest.new with
          mIds := Client.pushCopies (text "very very cool id") ids []
          mTypes := Client.pushCopies (text "very very cool type") types []
          mName := text "cool data" }
      else rss k :=
  Function.update_apply _ _ _ _

theorem startRss_eq (s : Client.ReqSize) : startRss false (BitVec.ofNat 32 s.initial) =
    some { Managed.CustomRequest.new with
      mIds := Client.pushCopies (text "very very cool id") (idsAt s) []
      mTypes := Client.pushCopies (text "very very cool type") 10 []
      mName := text "cool data" } := by
  cases s <;> simp [startRss, initReqs_apply, idsAt, Client.ReqSize.initial, kb]

/-- The request that is kept under a size, over 7-bit characters. -/
def keptRequest (s : Client.ReqSize) : Request7 where
  ids := List.replicate (idsAt s) (chars7 "very very cool id")
  types := List.replicate 10 (chars7 "very very cool type")
  name := chars7 "cool data"

theorem keptRequest_weight_lt (s : Client.ReqSize) :
    ((keptRequest s).native 0 0).weight < 2 ^ 31 := by
  have hids : idsAt s ≤ 5000 := by cases s <;> decide
  have hid : (nativeStr (chars7 "very very cool id")).length = 17 := by decide
  have htype : (nativeStr (chars7 "very very cool type")).length = 19 := by decide
  have hname : (nativeStr (chars7 "cool data")).length = 9 := by decide
  simp only [CustomRequest.weight, Request7.native, keptRequest, List.map_replicate,
    Server.stringsWeight_replicate, hid, htype, hname]
  omega

/-- The request of the `k`-th call, with what it takes in memory. -/
def benchmarkRequest (k : Nat) : StoredRequest7 :=
  ⟨keptRequest (sizeAt k), keptRequest_weight_lt (sizeAt k)⟩

theorem startRss_managed (s : Client.ReqSize) :
    startRss false (BitVec.ofNat 32 s.initial) = some (keptRequest s).managed := by
  have hid : managedStr (chars7 "very very cool id") = text "very very cool id" := by decide
  have htype : managedStr (chars7 "very very cool type") = text "very very cool type" := by
    decide
  have hname : managedStr (chars7 "cool data") = text "cool data" := by decide
  rw [startRss_eq, Client.pushCopies_eq, Client.pushCopies_eq]
  simp only [Request7.managed, keptRequest, List.map_replicate, hid, htype, hname,
    List.nil_append]

/-- The server has an item for each pair of the request. -/
theorem answer_benchmarkRequest (k : Nat) :
    Server.stored.answer (benchmarkRequest k).native =
      { mData := List.replicate (Client.pairs false (sizeAt k)) Server.itemText } := by
  have hpairs : idsAt (sizeAt k) * 10 = Client.pairs false (sizeAt k) := by
    cases sizeAt k <;> decide
  have hsize : Client.pairs false (sizeAt k) ∈ Server.benchmarkSizes := by
    cases sizeAt k <;> decide
  have hlt : Client.pairs false (sizeAt k) < 2 ^ 32 := by
    cases sizeAt k <;> decide
  have hitems : (benchmarkRequest k).native.request.itemsc =
      BitVec.ofNat 32 (Client.pairs false (sizeAt k)) := by
    rw [← hpairs]
    simp only [CustomRequest.itemsc, StoredRequest7.native, benchmarkRequest, Request7.native,
      keptRequest, List.length_map, List.length_replicate]
  rw [StoredTable.answer, hitems]
  show (Server.startTable _).getD CustomResponse.new = _
  rw [Server.startTable_apply hlt, if_pos hsize]
  rfl

/-- A request of `req_bytes` has the size of its call. -/
theorem reqBytes_eq {n : Nat} (hn : 10 ≤ n) (hlt : n < 2 ^ 31) :
    ∃ b, reqBytes (BitVec.ofNat 32 n) = .ok (b, BitVec.ofNat 32 n) ∧ b.bytes.length = n := by
  obtain ⟨b₀, h₀, f₀⟩ := Managed.newBytes_of_lt hlt
  have hmsg : (asciiBytes (text "Hello from")).length = 10 := by decide
  obtain ⟨b₁, h₁, f₁⟩ := f₀.arrayCopy (asciiBytes (text "Hello from")) 0 rfl (by omega)
  refine ⟨b₁, ?_, ?_⟩
  · simp only [reqBytes, h₀, h₁, bind, Except.bind, pure, Except.pure]
  · have hle := f₁.le
    rw [f₁.bytes, List.length_append, List.length_replicate]
    omega

/-- What the managed client makes of the reply to its `k`-th call: an item for each pair, as
    characters, or as many bytes as the server has for it. -/
def Expected (m : Options) (k : Nat) (reply : Received) : Prop :=
  match m.br with
  | some .object => managedParse reply =
      .ok { mData := List.replicate (Client.pairs false (sizeAt k)) (asciiString Server.itemText) }
  | _ => reply.1.toNat = Server.respSize (sizeAt k).initial

/-! ## Over the pipe -/

/-- The managed client and the native server at the two ends of a pipe. -/
def pipeOf (pb : Messages) (w : Unwritten) (inbuf outbuf : Nat) (shortReads : Bool)
    (junk : Nat → Byte) (m : Options) (s : Server.Options) : Pipes.Config :=
  { reuse := m.reuse, oneway := m.oneway, inbuf := inbuf, outbuf := outbuf
    shortReads := shortReads, junk := junk, request := fun k => packetAt m (sizeAt k)
    builder := serverBuilder pb w s }

/-- There is no function for messages. -/
theorem Options.Have.builder_ne {m : Options} {args : List WStr} (h : m.Have args) :
    m.builder ≠ some .msg := by
  rw [h.builder]
  cases (values (text "-d") args).getLast? with
  | none => decide
  | some v =>
      simp only [Option.map_some, Option.getD_some, builderOf]
      split_ifs <;> simp

section Replies

variable {pb : Messages} {w : Unwritten} {m : Options} {t : Calls} {k : Nat} {reply : Received}

theorem object_expected (hpb : pb.Restores) (hbuilder : m.builder = some .object)
    (ho : m.oneway = false) (h : t.InTurn (fun k => packetAt m (sizeAt k))
      (Server.builder pb .object w.server Server.startTable))
    (hreply : t.handed[k]? = some reply) :
    managedParse reply =
      .ok { mData := List.replicate (Client.pairs false (sizeAt k))
              (asciiString Server.itemText) } := by
  have hpacket : (fun k => packetAt m (sizeAt k)) =
      fun k => managedPacket (benchmarkRequest k).request.managed := by
    funext k
    simp only [packetAt, hbuilder, ho, startRss_managed, benchmarkRequest]
  rw [hpacket] at h
  have hparsed : t.handed.map managedParse = (List.range t.handed.length).map fun k =>
      .ok { mData := (Server.stored.answer (benchmarkRequest k).native).mData.map asciiString } :=
    parsed_of_inTurn hpb h
  have hread : (t.handed.map managedParse)[k]? = some (managedParse reply) := by
    rw [List.getElem?_map, hreply]
    rfl
  rw [eq_of_getElem?_map_range hparsed hread, answer_benchmarkRequest]
  simp only [List.map_replicate]

theorem bytes_expected (hbuilder : m.builder = some .bytes)
    (h : t.InTurn (fun k => packetAt m (sizeAt k))
      (Server.bytesBuilder w.serverBehind w.server w.keys Server.startSizes))
    (hreply : t.handed[k]? = some reply) :
    reply.1.toNat = Server.respSize (sizeAt k).initial := by
  have hlength : ∀ i, (packetAt m (sizeAt i)).bytes.length = (sizeAt i).initial := by
    intro i
    have hsize : 10 ≤ (sizeAt i).initial ∧ (sizeAt i).initial < 2 ^ 31 := by
      cases sizeAt i <;> decide
    obtain ⟨b, hb, hlen⟩ := reqBytes_eq hsize.1 hsize.2
    simp only [packetAt, hbuilder, hb]
    exact hlen
  have hsize : ∀ i, Server.respSize (sizeAt i).initial ≠ 0 := fun i => respSize_value (sizeAt i)
  exact (Calls.InTurn.bytes (w := w) (fun i => (sizeAt i).initial) hlength hsize h hreply).1

end Replies

/-- A managed client and a native server that have been started so that they fit together,
    without `-o`: over the pipe that both keep every reply is the expected one. -/
theorem managed_programs {pb : Messages} (hpb : pb.Restores) {w : Unwritten} {args : List WStr}
    {m : Options} {s : Server.Options} (hm : options args = some m) (hfits : Fits m s)
    (ho : m.oneway = false) {inbuf outbuf : Nat} {shortReads : Bool} {junk : Nat → Byte}
    {tr : List (Pipes.State × Pipes.Action)} {t : Pipes.State}
    (hexec : Exec (Pipes.conversation (pipeOf pb w inbuf outbuf shortReads junk m s)) tr t)
    (hfull : Meets Pipes.FullReads tr) :
    ∀ k reply, t.client.delivered[k]? = some reply → Expected m k reply := by
  intro k reply hreply
  have hhave := options_have hm
  have hturn := Pipes.inTurn_of_fullReads hhave.reuse ho hexec hfull t (by simp)
  have hbuilds := hfits.builder
  have hreads := hfits.br
  cases hs : s.builder with
  | msg =>
      rw [hs] at hbuilds
      exact absurd hbuilds hhave.builder_ne
  | object =>
      rw [hs] at hbuilds hreads
      simp only [Expected, hreads]
      simp only [pipeOf, serverBuilder, hs] at hturn
      exact object_expected hpb hbuilds ho hturn hreply
  | bytes =>
      rw [hs] at hbuilds hreads
      simp only [Expected, hreads]
      simp only [pipeOf, serverBuilder, hs] at hturn
      exact bytes_expected hbuilds hturn hreply

theorem customArgs_fits : Fits customClient customServer := ⟨rfl, rfl, rfl, rfl, rfl, rfl⟩

/-- The configuration in which they talk. -/
def customPipe : Pipes.Config :=
  pipeOf generatedMessages zeroedMemory (500 * kb) 1 false (fun _ => 0) customClient customServer

/-- A run in which all the calls of the client have been answered. -/
theorem customPipe_programs :
    ∃ tr t, Exec (Pipes.conversation customPipe) tr t ∧
      (Client.called benchmark).length ≤ t.client.delivered.length ∧
      ∀ k reply, t.client.delivered[k]? = some reply → Expected customClient k reply := by
  have hrun : ((Pipes.conversation customPipe).run [.server .run, .server .run]).map
      (fun s => s.server.pc) = some .connecting := by decide
  obtain ⟨t₀, ht₀, hpc⟩ := Option.map_eq_some_iff.mp hrun
  obtain ⟨tr₀, hexec₀⟩ := Exec.of_run ht₀
  -- the server waits in `ConnectNamedPipe`, and so every call is bound to be answered
  have hstand := Pipes.Standing.of_reachable rfl rfl rfl ⟨tr₀, hexec₀⟩
  have hcalls := hstand.inevitable rfl rfl rfl (by decide) (by decide)
    ⟨by simp [hpc], by simp [hpc]⟩ (Client.called benchmark).length
  obtain ⟨tr, t, hexec, hlen⟩ := hcalls.exec hexec₀
  exact ⟨tr, t, hexec, hlen, managed_programs generatedMessages_restores customArgs_client
    customArgs_fits rfl hexec (Pipes.Standing.meets_fullReads rfl rfl rfl hexec)⟩

end IpcWin.Interop
