/-
  IpcWin.Transports

  The pipe and the shared memory compared: what a client gets back does not
  depend on the transport.
-/

import IpcWin.Pipes.Refinement
import IpcWin.SharedMem.Refinement

namespace IpcWin

open IpcWin.Lib IpcWin.Wire

/-- A conversation over one reused pipe and one through the shared memory, with
    the same requests and the same builder: as far as both have come, the clients
    have been handed the same replies. -/
theorem transports_agree {cp : Pipes.Config} {cs : SharedMem.Config}
    (hreuse : cp.reuse = true) (honeway : cp.oneway = false)
    (hrequest : cp.request = cs.request) (hbuilder : cp.builder = cs.builder)
    {trp : List (Pipes.State × Pipes.Action)} {p : Pipes.State}
    (hp : Exec (Pipes.conversation cp) trp p) (hfull : Meets Pipes.FullReads trp)
    {trs : List (SharedMem.State × SharedMem.Proc)} {s : SharedMem.State}
    (hs : Exec (SharedMem.conversation cs) trs s) (hreads : Meets SharedMem.ReadsAfterWrites trs) :
    p.client.delivered <+: s.client.handed ∨ s.client.handed <+: p.client.delivered := by
  have hpipe := Pipes.inTurn_of_fullReads hreuse honeway hp hfull p (by simp)
  have hmem := SharedMem.inTurn_of_readsAfterWrites hs hreads s (by simp)
  rw [hrequest, hbuilder] at hpipe
  rcases Nat.le_total p.client.delivered.length s.client.handed.length with hle | hle
  · exact .inl (hpipe.handed_prefix hmem hle)
  · exact .inr (hmem.handed_prefix hpipe hle)

end IpcWin
