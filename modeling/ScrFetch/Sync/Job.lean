import ScrFetch.Sync.Candidate
import ScrFetch.Sync.Collective
import ScrFetch.Window.GoFlags

/-!
# `scr_fetch_sync` on every rank

Only rank 0 reads the index, the `current` link and the summary, yet every rank runs the loop of
`scr_fetch_sync` and the collectives of `scr_fetch_files` and `scr_fetch_summary`. This module
writes one rank's part as a `Prog` (`scrFetchSyncProg`) and runs the job in lockstep
(`runJob`). Every branch a rank takes reads a collective's value: a broadcast from rank 0, an
`scr_alltrue`, or the rank's own `scr_reddesc_apply`. So the ranks stay together:

> `scrFetchSync_agree`: for every number of ranks and every input, provided `scr_reddesc_apply`
> returns the same status on every rank, the job is never stuck in a collective that some rank
> does not join, and when it ends every rank returns the same return code, the same
> `*fetch_attempted` and, pass by pass, the same `fetch_dir` and the same exit of
> `scr_fetch_files`.

The `fetch_dir` a rank passes to `scr_fetch_files` is not the same on every rank: only rank 0
builds it, the others pass an empty string and receive rank 0's in the broadcast at line 671
(`scrFetchSync_fetch_dir_args_differ`).

Mirroring notes vs the C source:
- A rank's part of an attempt is `PassInput`: for rank 0, what `scr_summary_read` reads (the
  dataset's id and checkpoint id); for every rank, its value at the `scr_alltrue` that ends
  `scr_fetch_data`, and the status of `scr_reddesc_apply`. The rest of `scr_fetch_files` on a
  rank is local and is modelled in `Files.Fetch`.
- The flow-control window of `scr_fetch_data` is one `scr_alltrue` here. `Window.GoFlags` shows
  that the window, run to its end, hands every rank the same result
  (`scrFetchData_outcome`), and `scrFetchData_refines_scrAlltrue` below that this result is
  what one `scr_alltrue` of the ranks' `scr_fetch_files_list` outcomes hands every rank.
- Every rank unlinks `current` after a failed attempt; only rank 0's view of the prefix
  directory is modelled (`Sync.Candidate`).
-/

namespace ScrFetch

/-- What one rank brings to one attempt. -/
structure PassInput where
  /-- For rank 0: the dataset `scr_summary_read` reads, `none` when the directory is not
  readable or the read fails (lines 472–483). -/
  summary : Option (Option Int × Option Int)
  /-- The rank's value at the `scr_alltrue` that ends `scr_fetch_data`. -/
  dataOk : Bool
  /-- What `scr_reddesc_apply` returns on the rank. -/
  applyOk : Bool

/-- Lines 464–556, one rank's part of `scr_fetch_summary`: the dataset, when rank 0 read the
summary. -/
def summaryProg (rank : Nat) (inp : PassInput) : Prog (Option (Option Int × Option Int)) := do
  -- only rank 0 reads; every other rank's code stays `SCR_FAILURE` until the broadcast
  let rc ← Prog.mpiBcastFlag (decide (rank = 0) && inp.summary.isSome)
  if rc then
    let ds ← Prog.hashBcastDataset (if rank = 0 then inp.summary.getD (none, none) else (none, none))
    Prog.collective .bcastContainers
    Prog.collective .exchange
    return some ds
  else return none

/-- Where an attempt of `scr_fetch_files` ends. -/
inductive Exit
  /-- Line 678: no `fetch_dir`. -/
  | noDir
  /-- Line 702: the summary was not read. -/
  | noSummary
  /-- Line 716: the dataset has no id. -/
  | noId
  /-- Line 729: the dataset has no checkpoint id. -/
  | noCkpt
  /-- Line 782: some rank did not get its files. -/
  | failed
  /-- Line 832 after a failed `scr_reddesc_apply`. -/
  | applyFailed
  /-- Line 832 after a successful `scr_reddesc_apply`. -/
  | success
  deriving DecidableEq, Repr

/-- Lines 655–832, one rank's part of `scr_fetch_files` called with `fetchDir`: the return code,
`fetch_dir` as the call leaves it, and where the call ended. -/
def fetchFilesProg (rank : Nat) (fetchDir : Path) (inp : PassInput) :
    Prog (Bool × Path × Exit) := do
  Prog.collective .barrier
  Prog.collective .bcastSize
  let dir ← Prog.mpiBcastDir fetchDir
  if dir = [] then return (false, dir, .noDir)
  else
    let ds ← summaryProg rank inp
    match ds with
    | none => return (false, dir, .noSummary)
    | some (none, _) => return (false, dir, .noId)
    | some (some _, none) => return (false, dir, .noCkpt)
    | some (some _, some _) =>
      -- lines 733–757 are the rank's own; `scr_fetch_data` ends in `scr_alltrue`
      let ok ← Prog.scrAlltrue inp.dataOk
      let all ← Prog.scrAlltrue ok
      if !all then return (false, dir, .failed)
      else
        let rc ← Prog.scrReddescApply inp.applyOk
        return (rc, dir, if rc then .success else .applyFailed)

/-- Lines 872–914: the `fetch_dir` a rank passes to `scr_fetch_files`: rank 0's is
`<prefix>/<target>` when it has a target; every other rank's stays the empty string. -/
def fetchDirArg (rank : Nat) (pfx : Path) (target : String) : Path :=
  if rank = 0 ∧ target ≠ "" then buildPath pfx target else []

/-- What one rank brings to `scr_fetch_sync`: rank 0's index as `scr_index_read` read it, its
view of the prefix directory, the caller's `*fetch_attempted`, and the rank's part of each
attempt. -/
structure RankInput where
  index : Option (List IndexRecord)
  pre : Prefix
  attempted : Bool
  pass : Nat → PassInput

/-- The log a rank keeps of its passes: the `fetch_dir` after each call and where it ended. -/
abbrev PassLog := List (Path × Exit)

/-- Lines 874–952, one rank's loop with at most `passes` passes left, `k` passes made: the
return code, the broadcast `*fetch_attempted` and the log; `none` when the passes run out. -/
def syncLoopProg (rank : Nat) (pfx : Path) (inp : RankInput) :
    Nat → Nat → PassLog → Cand → Prefix → Prog (Option (Bool × Bool × PassLog))
  | 0, _, _, _, _ => return none
  | passes + 1, k, log, st, s =>
    -- only rank 0 picks a target
    let sel : (String × Cand) × Prefix :=
      if rank = 0 then selectTarget inp.index.isSome st s else (("", st), s)
    do
    let (rc, dir, exit) ← fetchFilesProg rank (fetchDirArg rank pfx sel.1.1) (inp.pass k)
    let next : Cand × Prefix :=
      if rank = 0 then afterFetch inp.index.isSome sel.1.1 rc sel.1.2 sel.2 else (sel.1.2, sel.2)
    if rc ∨ dir = [] then
      -- line 952: every rank gets rank 0's `*fetch_attempted`
      let attempted ← Prog.mpiBcastFlag next.1.attempted
      return some (rc, attempted, log ++ [(dir, exit)])
    else syncLoopProg rank pfx inp passes (k + 1) (log ++ [(dir, exit)]) next.1 next.2

/-- Lines 837–958: one rank's `scr_fetch_sync`, with at most `passes` passes. -/
def scrFetchSyncProg (rank : Nat) (pfx : Path) (passes : Nat) (inp : RankInput) :
    Prog (Option (Bool × Bool × PassLog)) :=
  syncLoopProg rank pfx inp passes 0 [] ⟨inp.index.getD [], -1, inp.attempted⟩ inp.pre

/-! ## Every rank calls the same collectives -/

theorem summaryProg_agree (a b : Nat) (i j : PassInput) :
    Agree (summaryProg a i) (summaryProg b j) := by
  refine Agree.bind' (.mpiBcastFlag _ _) fun rc => ?_
  cases rc
  · exact .ret _
  · exact Agree.bind' (.hashBcastDataset _ _) fun ds => Agree.bind' (.collective _) fun _ =>
      Agree.bind' (.collective _) fun _ => .ret _

theorem fetchFilesProg_agree (a b : Nat) (d d' : Path) {i j : PassInput}
    (happly : i.applyOk = j.applyOk) :
    Agree (fetchFilesProg a d i) (fetchFilesProg b d' j) := by
  refine Agree.bind' (.collective _) fun _ => Agree.bind' (.collective _) fun _ =>
    Agree.bind' (.mpiBcastDir _ _) fun dir => ?_
  split_ifs
  · exact .ret _
  refine Agree.bind' (summaryProg_agree a b i j) fun ds => ?_
  rcases ds with _ | ⟨_ | _, _ | _⟩
  all_goals try exact .ret _
  refine Agree.bind' (.scrAlltrue _ _) fun ok => Agree.bind' (.scrAlltrue _ _) fun all => ?_
  split_ifs
  · exact .ret _
  rw [happly]
  exact Agree.bind' (.scrReddescApply _) fun _ => .ret _

theorem syncLoopProg_agree (a b : Nat) (pfx : Path) {i j : RankInput}
    (happly : ∀ k, (i.pass k).applyOk = (j.pass k).applyOk) :
    ∀ (passes k : Nat) (log : PassLog) (st st' : Cand) (s s' : Prefix),
      Agree (syncLoopProg a pfx i passes k log st s) (syncLoopProg b pfx j passes k log st' s')
  | 0, _, _, _, _, _, _ => .ret _
  | passes + 1, k, log, st, st', s, s' => by
    refine Agree.bind' (fetchFilesProg_agree a b _ _ (happly k)) fun ⟨rc, dir, exit⟩ => ?_
    dsimp only
    by_cases hstop : rc = true ∨ dir = []
    · simp only [if_pos hstop]
      exact Agree.bind' (.mpiBcastFlag _ _) fun _ => .ret _
    · simp only [if_neg hstop]
      exact syncLoopProg_agree a b pfx happly passes (k + 1) _ _ _ _ _

/-- For every number of ranks, every rank's input and every pass bound, provided
`scr_reddesc_apply` returns the same status on every rank in every pass, the job of
`scr_fetch_sync` is never stuck in a collective some rank does not join, and when it ends every
rank returns what rank 0 returns: the return code, `*fetch_attempted`, and pass by pass the
`fetch_dir` fetched from and where `scr_fetch_files` ended. -/
theorem scrFetchSync_agree (n passes fuel : Nat) (pfx : Path) (inp : Fin (n + 1) → RankInput)
    (happly : ∀ r k, ((inp r).pass k).applyOk = ((inp 0).pass k).applyOk) :
    runJob fuel (fun r => scrFetchSyncProg r.val pfx passes (inp r)) ≠ .stuck ∧
      ∀ res, runJob fuel (fun r => scrFetchSyncProg r.val pfx passes (inp r)) = .done res →
        ∀ r, res r = res 0 :=
  runJob_agree fuel _ fun r =>
    syncLoopProg_agree 0 r.val pfx (fun k => (happly r k).symm) passes 0 [] _ _ _ _

/-- Two ranks, rank 0 with an index holding `ckpt.1`, every attempt succeeding everywhere. -/
theorem scrFetchSync_agree_two_ranks :
    let inp : Fin 2 → RankInput := fun _ => ⟨some [⟨1, "ckpt.1", true, false, false⟩],
      ⟨.absent, fun _ => .ok, 0, fun _ => true, [], []⟩, false,
      fun _ => ⟨some (some 1, some 1), true, true⟩⟩
    runJob 20 (fun r => scrFetchSyncProg r.val ["pfs"] 2 (inp r)) ≠ .stuck ∧
      ∀ res, runJob 20 (fun r => scrFetchSyncProg r.val ["pfs"] 2 (inp r)) = .done res →
        ∀ r, res r = res 0 := by
  intro inp
  exact scrFetchSync_agree 1 2 20 ["pfs"] inp fun _ _ => rfl

/-- The same job: rank 0 enters `scr_fetch_files` with `fetch_dir = pfs/ckpt.1`, rank 1 with the
empty string. -/
theorem scrFetchSync_fetch_dir_args_differ :
    let inp : RankInput := ⟨some [⟨1, "ckpt.1", true, false, false⟩],
      ⟨.absent, fun _ => .ok, 0, fun _ => true, [], []⟩, false,
      fun _ => ⟨some (some 1, some 1), true, true⟩⟩
    (scrFetchSyncProg 0 ["pfs"] 2 inp).firstDir = some ["pfs", "ckpt.1"] ∧
      (scrFetchSyncProg 1 ["pfs"] 2 inp).firstDir = some [] := by
  decide

/-! ## The window of `scr_fetch_data` as one `scr_alltrue` -/

/-- A job whose every rank calls `scr_alltrue` once returns on every rank the logical and of the
flags. -/
theorem runJob_scrAlltrue {n : Nat} (b : Fin (n + 1) → Bool) :
    runJob 2 (fun r => Prog.scrAlltrue (b r)) = .done fun _ => (List.finRange (n + 1)).all b := by
  simp [runJob, Prog.scrAlltrue, Prog.result, Prog.advance, Prog.flag]

/-- Every run of the window of `scr_fetch_data` that returns, whatever the width and the
interleaving, hands every rank what one `scr_alltrue` of the ranks' `scr_fetch_files_list`
outcomes hands it: the job model may stand one collective for the window. -/
theorem scrFetchData_refines_scrAlltrue (n : Nat) (F : Int) (out : Nat → Bool)
    (acts : List Window.Act) (s : Window.World) (res : Bool)
    (h : Window.scrFetchData ⟨n + 1, F, out, n.succ_pos⟩ acts = some s) (hd : s.pc = .done res) :
    runJob 2 (fun r : Fin (n + 1) => Prog.scrAlltrue (out r)) = .done fun _ => res := by
  have hinv := Window.scrFetchData_invs h
  have hres := hinv.1.done_iff_all_out hinv.2 hd
  rw [runJob_scrAlltrue]
  congr
  funext
  rw [Bool.eq_iff_iff, hres, List.all_eq_true]
  simp [Fin.forall_iff]

/-- Three ranks, rank 1's fetch failing: the window returns `SCR_FAILURE` on every rank, as the
one `scr_alltrue` does. -/
theorem scrFetchData_refines_scrAlltrue_rank_one_fails :
    let out : Nat → Bool := fun r => r != 1
    let S : Window.Setup := ⟨2 + 1, 1, out, Nat.succ_pos 2⟩
    let acts : List Window.Act := [.root 0, .root 0, .root 0, .rank 1, .rank 1, .root 0,
      .root 0, .root 0, .rank 2, .rank 2, .root 0, .root 0, .alltrue]
    let s := (Window.scrFetchData S acts).getD (Window.init S)
    Window.scrFetchData S acts = some s ∧ s.pc = .done false ∧
      runJob 2 (fun r : Fin (2 + 1) => Prog.scrAlltrue (out r)) = .done fun _ => false := by
  intro out S acts s
  have hrun : Window.scrFetchData S acts = some s :=
    (Option.getD_of_ne_none (Option.ne_none_iff_isSome.2 (by decide)) _).symm
  have hpc : s.pc = .done false := by decide
  exact ⟨hrun, hpc, scrFetchData_refines_scrAlltrue 2 1 out acts s false hrun hpc⟩

end ScrFetch
