/-
  IpcWin.SharedMem.Footprint

  How much address space the views of the two programs take.

  A view begins at a multiple of 64 KB, and none is ever unmapped, so after some
  rounds a program has spent on views what the messages of all these rounds take
  (`ServerFootprint.taken_eq`, `ClientFootprint.taken_le`).  The server maps what it
  is sent and what it sends.  The client may read the size of the reply before the
  last one, as the event of the replies stays signalled, and then it maps as much of
  the section as that one took; it is never further behind (`Newest`).
-/

import Mathlib.Algebra.BigOperators.Group.List.Basic
import IpcWin.SharedMem.Crashes

namespace IpcWin.SharedMem

open IpcWin.Lib IpcWin.Wire

/-! ## Address space -/

/-- The pieces of 64 KB that a view of so many bytes takes. -/
def granules (n : Nat) : Nat := (n + 65535) / 65536

theorem granules_pos {n : Nat} (h : n ≠ 0) : 0 < granules n := by
  unfold granules
  omega

theorem granules_four : granules 4 = 1 := rfl

/-- The pieces that views of so many bytes take together. -/
def taken (mapped : List Nat) : Nat := (mapped.map granules).sum

theorem taken_snoc (mapped : List Nat) (n : Nat) :
    taken (mapped ++ [n]) = taken mapped + granules n := by
  rw [taken, taken, List.map_append, List.sum_append, List.map_cons, List.map_nil, List.sum_cons,
    List.sum_nil, Nat.add_zero]

/-- There is room for views that take no more than `g` pieces together. -/
def Space.Holds (space : Space) (g : Nat) : Prop :=
  ∀ mapped n, taken mapped + granules n ≤ g → space mapped n = true

theorem Space.Holds.mono {space : Space} {g g' : Nat} (h : space.Holds g) (hle : g' ≤ g) :
    space.Holds g' :=
  fun mapped n hroom => h mapped n (hroom.trans hle)

/-- There is no room for views that take more than `g` pieces together. -/
def Space.Within (space : Space) (g : Nat) : Prop :=
  ∀ mapped n, space mapped n = true → taken mapped + granules n ≤ g

/-- An address space of `g` pieces. -/
def Space.ofGranules (g : Nat) : Space := fun mapped n => decide (taken mapped + granules n ≤ g)

theorem Space.holds_ofGranules (g : Nat) : (Space.ofGranules g).Holds g :=
  fun _ _ h => decide_eq_true h

theorem Space.within_ofGranules (g : Nat) : (Space.ofGranules g).Within g :=
  fun _ _ h => of_decide_eq_true h

/-- A view for something takes what was asked for. -/
theorem taken_view {space : Space} {mapped : List Nat} {handle : Bool} {sec : Option Section}
    {n : Nat} (hn : n ≠ 0) :
    taken (mapped ++ (mapViewOfFile space mapped handle sec n).toList) =
      taken mapped +
        if (mapViewOfFile space mapped handle sec n).isSome then granules n else 0 := by
  cases hview : mapViewOfFile space mapped handle sec n with
  | none =>
      rw [Option.toList_none, List.append_nil, Option.isSome_none, if_neg Bool.false_ne_true,
        Nat.add_zero]
  | some bytes =>
      obtain ⟨v, -, -, -, -, hbytes⟩ := mapViewOfFile_eq_some.mp hview
      rw [Section.viewBytes, if_neg hn] at hbytes
      rw [Option.toList_some, taken_snoc, hbytes, Option.isSome_some, if_pos rfl]

/-- Whatever is mapped has had room. -/
theorem Space.Within.taken_le {space : Space} {g : Nat} (h : space.Within g) {mapped : List Nat}
    {handle : Bool} {sec : Option Section} {n : Nat} (hle : taken mapped ≤ g) :
    taken (mapped ++ (mapViewOfFile space mapped handle sec n).toList) ≤ g := by
  cases hview : mapViewOfFile space mapped handle sec n with
  | none => simpa using hle
  | some bytes =>
      obtain ⟨v, -, -, -, hroom, -⟩ := mapViewOfFile_eq_some.mp hview
      rw [Option.toList_some, taken_snoc]
      exact h mapped bytes hroom

theorem view_of_copyTo {view : Bool} {sec sec' : Option Section} {bytes : List Byte}
    (h : copyTo view sec bytes = some sec') (hne : bytes ≠ []) : view = true := by
  rw [copyTo, if_neg hne] at h
  split_ifs at h with hview
  exact hview

theorem view_of_copyFrom {view : Bool} {sec : Option Section} {n : Nat} {bs : List Byte}
    (h : copyFrom view sec n = some bs) (hn : n ≠ 0) : view = true := by
  rw [copyFrom, if_neg hn] at h
  split_ifs at h with hview
  exact (Bool.and_eq_true_iff.mp hview).1

/-- No request and no reply is empty. -/
structure Config.Nonempty (cfg : Config) : Prop where
  request : ∀ i, (cfg.request i).bytes ≠ []
  reply : ∀ i, (cfg.reply i).bytes ≠ []

namespace Config.Nonempty

variable {cfg : Config}

theorem request_length (h : cfg.Nonempty) (i : Nat) : (cfg.request i).bytes.length ≠ 0 :=
  mt List.length_eq_zero_iff.mp (h.request i)

theorem reply_length (h : cfg.Nonempty) (i : Nat) : (cfg.reply i).bytes.length ≠ 0 :=
  mt List.length_eq_zero_iff.mp (h.reply i)

theorem request_size (h : cfg.Nonempty) (i : Nat) : (cfg.request i).size.toNat ≠ 0 := by
  rw [Packet.size_toNat]
  exact h.request_length i

theorem reply_size (h : cfg.Nonempty) (i : Nat) : (cfg.reply i).size.toNat ≠ 0 := by
  rw [Packet.size_toNat]
  exact h.reply_length i

end Config.Nonempty

/-! ## The views of the server -/

/-- The pieces for the views of `n` rounds: of two size words, the request and the reply. -/
def Config.serverTaken (cfg : Config) : Nat → Nat
  | 0 => 0
  | n + 1 =>
      cfg.serverTaken n +
        (2 + granules (cfg.request n).bytes.length + granules (cfg.reply n).bytes.length)

theorem Config.serverTaken_eq_sum (cfg : Config) (n : Nat) :
    cfg.serverTaken n = ((List.range n).map fun i =>
      2 + granules (cfg.request i).bytes.length + granules (cfg.reply i).bytes.length).sum := by
  induction n with
  | zero => rfl
  | succ n ih =>
      rw [List.sum_range_succ, ← ih, serverTaken]

/-- The pieces for the views that the server got since it was released, or since it built
    its reply. -/
def Server.got (cfg : Config) (s : Server) : Nat :=
  let request := granules (cfg.request s.received.length).bytes.length
  let response := granules s.response.bytes.length
  match s.pc with
  | .readSize => if s.requestSizeMapView then 1 else 0
  | .mapRequestData => 1
  | .readData => 1 + if s.requestDataView then request else 0
  | .createRead | .setRead | .build => 1 + request
  | .mapData => if s.sizeMapView then 1 else 0
  | .writeSize => (if s.sizeMapView then 1 else 0) + if s.dataView then response else 0
  | .writeData => 1 + if s.dataView then response else 0
  | _ => 0

/-- The pieces for the views of a reply that is built and not written yet. -/
def Server.due (s : Server) : Nat :=
  match s.pc with
  | .createSize | .createData | .mapSize | .mapData | .writeSize | .writeData =>
      1 + granules s.response.bytes.length
  | _ => 0

/-- What the server has spent on views, and the reply that it is about to write. -/
structure ServerFootprint (cfg : Config) (s : Server) : Prop where
  taken_eq : taken s.mapped + s.due = cfg.serverTaken s.received.length + s.got cfg
  response : s.pc.phase = .built ∨ s.pc.phase = .sizeWritten →
    ∃ n, s.received.length = n + 1 ∧ s.response = cfg.reply n

theorem ServerFootprint.init (cfg : Config) : ServerFootprint cfg (Server.start cfg) := by
  refine ⟨?_, ?_⟩
  all_goals
    unfold Server.start
    split_ifs <;> simp [Server.due, Server.got, taken, Config.serverTaken, ServerPc.phase]

/-- A step outside the copies: nothing is mapped. -/
theorem ServerFootprint.keep {cfg : Config} {s s' : Server} (h : ServerFootprint cfg s)
    (hmapped : s'.mapped = s.mapped)
    (hreceived : s'.received = s.received ∧ s'.response = s.response)
    (hgot : s'.got cfg = s.got cfg) (hdue : s'.due = s.due)
    (hphase : s'.pc.phase = .built ∨ s'.pc.phase = .sizeWritten →
      s.pc.phase = .built ∨ s.pc.phase = .sizeWritten) : ServerFootprint cfg s' := by
  refine ⟨?_, ?_⟩
  · rw [hmapped, hreceived.1, hgot, hdue]
    exact h.taken_eq
  · rw [hreceived.1, hreceived.2]
    exact fun hp => h.response (hphase hp)

theorem ServerFootprint.step {cfg : Config} {s s' : Server} {k k' : Kernel}
    (h : ServerFootprint cfg s) (hne : cfg.Nonempty)
    (hpacket : s.pc.phase = .sized → s.requestPacket = (cfg.request s.received.length).size)
    (hreply : s.pc = .build → (s.build cfg).response = cfg.reply s.received.length)
    (hs : s.step cfg k = some (s', k')) : ServerFootprint cfg s' := by
  have htaken := h.taken_eq
  cases hpc : s.pc <;> simp only [Server.step, hpc] at hs <;>
    simp only [Server.due, Server.got, hpc] at htaken
  case mapRequestSize =>
    split_ifs at hs
    cases hs
    refine ⟨?_, by simp [ServerPc.phase]⟩
    simp only [Server.due, Server.got, taken_view (show 4 ≠ 0 by decide), granules_four]
    omega
  case readSize =>
    split_ifs at hs
    split at hs
    · cases hs
      exact h.keep rfl ⟨rfl, rfl⟩ rfl rfl id
    · rename_i bs hbs
      cases hs
      rw [view_of_copyFrom hbs (by decide), if_pos rfl] at htaken
      exact ⟨by simpa only [Server.due, Server.got] using htaken, by simp [ServerPc.phase]⟩
  case mapRequestData =>
    split_ifs at hs
    cases hs
    have hsize := hpacket (by rw [hpc]; rfl)
    have hnz : s.requestPacket.toNat ≠ 0 := by
      rw [hsize]
      exact hne.request_size _
    refine ⟨?_, by simp [ServerPc.phase]⟩
    simp only [Server.due, Server.got, taken_view hnz]
    rw [hsize, Packet.size_toNat]
    omega
  case readData =>
    split_ifs at hs
    split at hs
    · cases hs
      exact h.keep rfl ⟨rfl, rfl⟩ rfl rfl id
    · rename_i bs hbs
      cases hs
      have hsize := hpacket (by rw [hpc]; rfl)
      have hnz : s.requestPacket.toNat ≠ 0 := by
        rw [hsize]
        exact hne.request_size _
      rw [view_of_copyFrom hbs hnz, if_pos rfl] at htaken
      exact ⟨by simpa only [Server.due, Server.got] using htaken, by simp [ServerPc.phase]⟩
  case build =>
    split_ifs at hs
    cases hs
    have hresponse := hreply hpc
    have hlen : (s.build cfg).received.length = s.received.length + 1 := by simp [Server.build]
    have hpcs : (s.build cfg).pc = .mapSize ∨ (s.build cfg).pc = .createSize := by
      unfold Server.build
      split_ifs
      · exact .inl rfl
      · exact .inr rfl
    refine ⟨?_, fun _ => ⟨s.received.length, hlen, hresponse⟩⟩
    have hmapped : (s.build cfg).mapped = s.mapped := rfl
    rcases hpcs with hp | hp <;>
      simp only [Server.due, Server.got, hp, hlen, hmapped, hresponse, Config.serverTaken] <;>
      omega
  case mapSize =>
    split_ifs at hs
    cases hs
    refine ⟨?_, fun _ => h.response (.inl (by rw [hpc]; rfl))⟩
    simp only [Server.due, Server.got, taken_view (show 4 ≠ 0 by decide), granules_four]
    omega
  case mapData =>
    split_ifs at hs
    cases hs
    obtain ⟨n, hn, hresp⟩ := h.response (.inl (by rw [hpc]; rfl))
    have hnz : s.response.bytes.length ≠ 0 := by
      rw [hresp]
      exact hne.reply_length n
    refine ⟨?_, fun _ => ⟨n, hn, hresp⟩⟩
    simp only [Server.due, Server.got, taken_view hnz]
    omega
  case writeSize =>
    split_ifs at hs
    split at hs
    · cases hs
      exact h.keep rfl ⟨rfl, rfl⟩ rfl rfl id
    · rename_i sec hsec
      cases hs
      have hwords : intBytes s.response.size ≠ [] := by
        intro hnil
        have hlen := intBytes_length s.response.size
        rw [hnil] at hlen
        cases hlen
      rw [view_of_copyTo hsec hwords, if_pos rfl] at htaken
      exact ⟨by simpa only [Server.due, Server.got] using htaken,
        fun _ => h.response (.inl (by rw [hpc]; rfl))⟩
  case writeData =>
    split_ifs at hs
    split at hs
    · cases hs
      exact h.keep rfl ⟨rfl, rfl⟩ rfl rfl id
    · rename_i sec hsec
      cases hs
      obtain ⟨n, -, hresp⟩ := h.response (.inr (by rw [hpc]; rfl))
      rw [view_of_copyTo hsec (hresp ▸ hne.reply n), if_pos rfl] at htaken
      refine ⟨?_, by simp [ServerPc.phase]⟩
      simp only [Server.due, Server.got]
      omega
  case waitMade =>
    split_ifs at hs
    cases hs
    unfold Server.released
    split_ifs <;>
      exact h.keep rfl ⟨rfl, rfl⟩ (by simp [Server.got, hpc]) (by simp [Server.due, hpc])
        (by simp [ServerPc.phase])
  -- the other steps neither map nor build
  all_goals
    split_ifs at hs
    cases hs
    exact h.keep rfl ⟨rfl, rfl⟩ (by simp [Server.got, hpc]) (by simp [Server.due, hpc])
      (by simp [hpc, ServerPc.phase])

/-- There is room for the views of the round that the server is in. -/
theorem ServerFootprint.hasRoom {cfg : Config} {s : State} {g : Nat}
    (h : ServerFootprint cfg s.server) (hspace : cfg.serverSpace.Holds g)
    (hpacket : s.server.pc.phase = .sized →
      s.server.requestPacket = (cfg.request s.server.received.length).size)
    (hreading : s.server.pc.phase.holds = 1 → cfg.serverTaken (s.server.received.length + 1) ≤ g)
    (hreplying : cfg.serverTaken s.server.received.length ≤ g) : HasRoom cfg s .server := by
  have htaken := h.taken_eq
  intro m hm _
  apply hspace
  cases hpc : s.server.pc <;>
    simp only [Server.mapping, hpc, Option.mem_def, Option.some.injEq, reduceCtorEq] at hm <;>
    simp only [Server.due, Server.got, hpc] at htaken <;> subst hm
  case mapRequestSize =>
    have hle := hreading (by rw [hpc]; rfl)
    simp only [Config.serverTaken] at hle
    simp only [granules_four]
    omega
  case mapRequestData =>
    have hle := hreading (by rw [hpc]; rfl)
    have hsize := hpacket (by rw [hpc]; rfl)
    simp only [Config.serverTaken] at hle
    simp only [hsize, Packet.size_toNat]
    omega
  case mapSize =>
    simp only [granules_four]
    omega
  case mapData =>
    simp only
    split_ifs at htaken <;> omega

/-! ## The newest reply -/

/-- The size word is that of the newest reply, or of the one before as long as the server
    has not written it. -/
structure Newest (cfg : Config) (s : ServerView) (k : KernelView) : Prop where
  written : ∀ n, s.received.length = n + 1 → s.phase ≠ .built →
    k.replySize = intBytes (cfg.reply n).size
  owed : ∀ n, s.received.length = n + 2 → s.phase = .built →
    k.replySize = intBytes (cfg.reply n).size

namespace Newest

variable {cfg : Config} {pc : ClientPc} {c c' : ClientView} {s s' : ServerView}
  {k k' : KernelView}

theorem init (cfg : Config) : Newest cfg (Server.start cfg).view Kernel.start.view := by
  have hr : (Server.start cfg).view.received.length = 0 := rfl
  exact ⟨by simp [hr], by simp [hr]⟩

theorem server (h : Newest cfg s k)
    (hresponse : s.phase = .built → ∃ n, s.received.length = n + 1 ∧ s.response = cfg.reply n)
    (hm : Server.Moves cfg s k s' k') : Newest cfg s' k' := by
  cases hm with
  | silent => exact h
  | build hp =>
      refine ⟨by simp, fun n hn _ => h.written n ?_ (by simp [hp])⟩
      rw [List.length_append, List.length_singleton] at hn
      omega
  | writeSize hp =>
      refine ⟨fun n hn _ => ?_, by simp⟩
      obtain ⟨n', hn', hresp⟩ := hresponse hp
      obtain rfl : n' = n := Nat.succ.inj (hn'.symm.trans hn)
      rw [hresp]
  | take hp | readSize hp | readData hp | tell hp | writeData hp | finish hp =>
      exact ⟨fun n hn _ => h.written n hn (by simp [hp]), by simp⟩

theorem client (h : Newest cfg s k) (hm : Client.Moves cfg pc c k c' k') : Newest cfg s k' := by
  cases hm with
  | _ => exact ⟨h.written, h.owed⟩

/-- What a client reads that has been told of a reply is the size of the reply to its
    request, or to the one before. -/
theorem replySize (h : Newest cfg s k) (ht : Tokens c s k) (hc : c.phase = .awaiting)
    (hsome : ∃ j < s.received.length, k.replySize = intBytes (cfg.reply j).size) :
    ∃ j ≤ c.handed.length, c.handed.length ≤ j + 1 ∧
      k.replySize = intBytes (cfg.reply j).size := by
  obtain ⟨j, hj, hfirst⟩ := hsome
  have hcount := ht.count
  have hfree := ht.free (by rw [hc]; rfl)
  rw [hc, hfree.1] at hcount
  simp only [ClientPhase.asked, Bool.toNat_false] at hcount
  by_cases hb : s.phase = .building
  · rw [hb] at hcount
    simp only [ServerPhase.taken] at hcount
    exact ⟨s.received.length - 1, by omega, by omega,
      h.written _ (by omega) (by simp [hb])⟩
  · have heq := ht.awaiting_eq (by rw [hc]; rfl) (by rw [hc]; rfl) hb
    by_cases hbuilt : s.phase = .built
    · by_cases hzero : c.handed.length = 0
      · -- the first reply is the only one that can have been written
        exact ⟨j, by omega, by omega, hfirst⟩
      · exact ⟨c.handed.length - 1, by omega, by omega, h.owed _ (by omega) hbuilt⟩
    · exact ⟨c.handed.length, by omega, by omega, h.written _ heq hbuilt⟩

end Newest

/-! ## The views of the client -/

/-- The pieces for the view of a reply, or of as much as the one before took. -/
def Config.replyTaken (cfg : Config) (n : Nat) : Nat :=
  max (granules (cfg.reply n).bytes.length) (granules (cfg.reply (n - 1)).bytes.length)

/-- The pieces for the views of `n` calls, at most. -/
def Config.clientTaken (cfg : Config) : Nat → Nat
  | 0 => 0
  | n + 1 =>
      cfg.clientTaken n + (2 + granules (cfg.request n).bytes.length + cfg.replyTaken n)

/-- The client takes no more than the server and, for each call, what is more than one
    piece of the reply before. -/
theorem Config.clientTaken_add_le {cfg : Config} (hne : cfg.Nonempty) (n : Nat) :
    cfg.clientTaken n + n ≤ cfg.serverTaken n + granules (cfg.reply 0).bytes.length +
      ((List.range n).map fun i => granules (cfg.reply i).bytes.length).sum := by
  have hpos : ∀ i, 0 < granules (cfg.reply i).bytes.length :=
    fun i => granules_pos (hne.reply_length i)
  -- the last reply is not among those before another one
  have hstrong : ∀ n, cfg.clientTaken (n + 1) + (n + 1) ≤
      cfg.serverTaken (n + 1) + granules (cfg.reply 0).bytes.length +
        ((List.range n).map fun i => granules (cfg.reply i).bytes.length).sum := by
    intro n
    induction n with
    | zero =>
        have hzero := hpos 0
        simp only [clientTaken, serverTaken, replyTaken, List.range_zero, List.map_nil,
          List.sum_nil, Nat.zero_sub, max_self]
        omega
    | succ n ih =>
        have hnext := hpos (n + 1)
        have hlast := hpos n
        rw [List.sum_range_succ, clientTaken, serverTaken, replyTaken, Nat.add_sub_cancel]
        omega
  cases n with
  | zero => exact Nat.zero_le _
  | succ n =>
      have hle := hstrong n
      rw [List.sum_range_succ]
      omega

/-- The pieces for the views of the call that the client is in, at most. -/
def Client.got (cfg : Config) (c : Client) : Nat :=
  let request := granules (cfg.request c.handed.length).bytes.length
  match c.pc with
  | .startCreateSize | .startCreateData | .startOpenSize | .startOpenData | .build
  | .createSize | .createData | .mapRequestSize => 0
  | .mapRequestData => 1
  | .writeSize | .writeData | .createMade | .setMade | .openRead | .waitRead | .openResponse
  | .waitResponse | .openSize | .openData | .mapSize => 1 + request
  | .readSize | .mapData => 2 + request
  | .readData | .createReadResponse | .setReadResponse | .deliver =>
      2 + request + cfg.replyTaken c.handed.length

/-- What the client has spent on views, and the reply whose size it has read. -/
structure ClientFootprint (cfg : Config) (c : Client) : Prop where
  taken_le : taken c.mapped ≤ cfg.clientTaken c.handed.length + c.got cfg
  packet : c.pc = .mapData → ∃ j ≤ c.handed.length, c.handed.length ≤ j + 1 ∧
    c.packet = (cfg.reply j).size

theorem ClientFootprint.init (cfg : Config) : ClientFootprint cfg (Client.start cfg) := by
  refine ⟨Nat.zero_le _, ?_⟩
  unfold Client.start
  split_ifs <;> simp

/-- The view of a reply that the client reads the size of. -/
theorem Config.granules_le_replyTaken (cfg : Config) {j n : Nat} (hle : j ≤ n) (hge : n ≤ j + 1) :
    granules (cfg.reply j).bytes.length ≤ cfg.replyTaken n := by
  rcases Nat.lt_or_eq_of_le hle with hlt | rfl
  · obtain rfl : j = n - 1 := by omega
    exact le_max_right _ _
  · exact le_max_left _ _

/-- A step that maps nothing. -/
theorem ClientFootprint.keep {cfg : Config} {c c' : Client} (h : ClientFootprint cfg c)
    (hmapped : c'.mapped = c.mapped)
    (htaken : cfg.clientTaken c.handed.length + c.got cfg ≤
      cfg.clientTaken c'.handed.length + c'.got cfg)
    (hpc : c'.pc = .mapData → c.pc = .mapData ∧ c'.handed = c.handed ∧ c'.packet = c.packet) :
    ClientFootprint cfg c' := by
  refine ⟨?_, ?_⟩
  · rw [hmapped]
    exact h.taken_le.trans htaken
  · intro hp
    obtain ⟨hold, hhanded, hpacket⟩ := hpc hp
    rw [hhanded, hpacket]
    exact h.packet hold

theorem ClientFootprint.step {cfg : Config} {c c' : Client} {k k' : Kernel}
    (h : ClientFootprint cfg c) (hne : cfg.Nonempty)
    (hrdata : c.pc.phase = .built → c.rdata = cfg.request c.handed.length)
    (hread : c.pc = .readSize → ∃ j ≤ c.handed.length, c.handed.length ≤ j + 1 ∧
      contents k.sizeOfData 4 = intBytes (cfg.reply j).size)
    (hs : c.step cfg k = some (c', k')) : ClientFootprint cfg c' := by
  have htaken := h.taken_le
  cases hpc : c.pc <;> simp only [Client.step, hpc] at hs <;>
    simp only [Client.got, hpc] at htaken
  case mapRequestSize | mapSize =>
    split_ifs at hs
    cases hs
    refine ⟨?_, by simp⟩
    simp only [Client.got, taken_view (show 4 ≠ 0 by decide), granules_four]
    split_ifs <;> omega
  case mapRequestData =>
    split_ifs at hs
    cases hs
    have hreq := hrdata (by rw [hpc]; rfl)
    have hnz : c.rdata.bytes.length ≠ 0 := by
      rw [hreq]
      exact hne.request_length _
    refine ⟨?_, by simp⟩
    simp only [Client.got, taken_view hnz]
    rw [hreq]
    split_ifs <;> omega
  case readSize =>
    split_ifs at hs
    split at hs
    · cases hs
      exact h.keep rfl (Nat.le_refl _) (by simp [Client.crash, hpc])
    · rename_i bs hbs
      cases hs
      refine ⟨?_, fun _ => ?_⟩
      · simpa only [Client.got] using htaken
      · obtain ⟨j, hle, hge, hsize⟩ := hread hpc
        refine ⟨j, hle, hge, ?_⟩
        show bytesInt bs = _
        rw [copyFrom_eq_some hbs, hsize, bytesInt_intBytes]
  case mapData =>
    split_ifs at hs
    cases hs
    obtain ⟨j, hle, hge, hpacket⟩ := h.packet hpc
    have hnz : c.packet.toNat ≠ 0 := by
      rw [hpacket]
      exact hne.reply_size j
    refine ⟨?_, by simp⟩
    simp only [Client.got, taken_view hnz]
    have hreply := cfg.granules_le_replyTaken hle hge
    rw [hpacket, Packet.size_toNat]
    split_ifs <;> omega
  case writeSize | writeData | readData =>
    split_ifs at hs
    split at hs <;> cases hs
    · exact h.keep rfl (Nat.le_refl _) (by simp [Client.crash, hpc])
    · exact h.keep rfl (by simp [Client.got, hpc]) (by simp)
  case build =>
    split_ifs at hs
    cases hs
    unfold Client.build
    split_ifs <;> exact h.keep rfl (by simp [Client.got, hpc]) (by simp)
  case waitResponse =>
    split_ifs at hs
    cases hs
    unfold Client.released
    split_ifs <;> exact h.keep rfl (by simp [Client.got, hpc]) (by simp)
  case deliver =>
    split_ifs at hs
    cases hs
    refine h.keep rfl ?_ (by simp)
    simp only [Client.got, hpc, List.length_append, List.length_singleton, Config.clientTaken]
    omega
  -- the other steps neither map nor copy
  all_goals
    split_ifs at hs
    cases hs
    exact h.keep rfl (by simp [Client.got, hpc]) (by simp)

/-- There is room for the views of the call that the client is in. -/
theorem ClientFootprint.hasRoom {cfg : Config} {s : State} {g : Nat}
    (h : ClientFootprint cfg s.client) (hspace : cfg.clientSpace.Holds g)
    (hrdata : s.client.pc.phase = .built →
      s.client.rdata = cfg.request s.client.handed.length)
    (hle : cfg.clientTaken (s.client.handed.length + 1) ≤ g) : HasRoom cfg s .client := by
  have htaken := h.taken_le
  simp only [Config.clientTaken] at hle
  intro m hm _
  apply hspace
  cases hpc : s.client.pc <;>
    simp only [Client.mapping, hpc, Option.mem_def, Option.some.injEq, reduceCtorEq] at hm <;>
    simp only [Client.got, hpc] at htaken <;> subst hm
  case mapRequestSize | mapSize =>
    simp only [granules_four]
    omega
  case mapRequestData =>
    have hreq := hrdata (by rw [hpc]; rfl)
    simp only [hreq]
    omega
  case mapData =>
    obtain ⟨j, hj, hge, hpacket⟩ := h.packet hpc
    have hreply := cfg.granules_le_replyTaken hj hge
    simp only [hpacket, Packet.size_toNat]
    omega

end IpcWin.SharedMem
