import ScrFetch.Io.Posix

/-!
# The candidate loop of `scr_fetch_sync`

Rank 0 decides what each pass of the loop of `scr_fetch_sync` (lines 837–958) fetches. It reads
the `current` link of the prefix directory. It takes the link's target when the link is readable.
Otherwise it asks the index for the most recent complete checkpoint older than the last one tried.
The whole job then attempts the checkpoint through `scr_fetch_files`. A success points `current`
at it and ends the loop. A failure unlinks `current`, marks the checkpoint failed in the index and
goes on. The loop ends with failure once no candidate is left.

Two things go wrong:

> `scrFetchSync_unlink_refused_loops`: when the unlink of `current` fails and the checkpoint it
> names keeps failing, every pass reads the same link again and attempts the same checkpoint;
> the loop never ends, whatever its fuel.

> `scrFetchSync_dangling_link_kept`: when `current` dangles, the loop fetches from the index, and
> on success `symlink` meets the dangling link (`EEXIST`): the call returns success with
> `current` still naming the old target.

Mirroring notes vs the C source:
- The index is not in `src/`; modelled from the spec (§2, §6): records with an id, a
  subdirectory, and the flags complete, failed and fetched; `get_id_by_dir`,
  `most_recent_complete` (greatest id below the ceiling, `-1` for none, as §4.6 has it),
  `mark_fetched`, `mark_failed`. `scr_index_write` persists the index; the loop never reads the
  file again, so a write is the ghost `writes`, each with the number of attempts made before it.
- `scr_file_is_readable` follows the link: a dangling or unreadable `current` is not readable.
  `readlink`, `unlink` and `symlink` answer from the oracle; `symlink` fails on an existing
  `current`, as POSIX has it.
- The whole collective `scr_fetch_files` is, for rank 0, its outcome: a call with an empty
  `fetch_dir` fails at line 677, and the `k`-th call with a non-empty one returns `fetchOk k`.
  The ghost `attempts` records each such call with the checkpoint id and target it was made for.
-/

namespace ScrFetch

/-- Modelled from the spec: a record of the checkpoint index (§2). -/
structure IndexRecord where
  id : Int
  name : String
  complete : Bool
  failed : Bool
  fetched : Bool
  deriving DecidableEq, Repr

/-- Modelled from the spec: `Index.get_id_by_dir(name)` (§6), `-1` when no record names it. -/
def getIdByDir (index : List IndexRecord) (name : String) : Int :=
  match index.find? (·.name = name) with
  | some r => r.id
  | none => -1

/-- Whether record `r` is a candidate below `ceiling` (`-1`: no ceiling): complete, not failed. -/
def IndexRecord.below (ceiling : Int) (r : IndexRecord) : Bool :=
  r.complete && !r.failed && (ceiling = -1 || r.id < ceiling)

/-- Modelled from the spec: `Index.most_recent_complete(ceiling)` (§2, §4.6): the id and
subdirectory of the candidate with the greatest id, or `(-1, "")`. -/
def mostRecentComplete (ceiling : Int) : List IndexRecord → Int × String
  | [] => (-1, "")
  | r :: rest =>
    let best := mostRecentComplete ceiling rest
    if r.below ceiling ∧ best.1 < r.id then (r.id, r.name) else best

/-- Modelled from the spec: `Index.mark_fetched(id, dir)`. -/
def markFetched (index : List IndexRecord) (id : Int) : List IndexRecord :=
  index.map fun r => if r.id = id then { r with fetched := true } else r

/-- Modelled from the spec: `Index.mark_failed(id, dir)`. -/
def markFailed (index : List IndexRecord) (id : Int) : List IndexRecord :=
  index.map fun r => if r.id = id then { r with failed := true } else r

/-- The `current` link of the prefix directory: absent, or a link with its target, which
`scr_file_is_readable` finds readable or not (a dangling link is not). -/
inductive Current
  | absent
  | link (target : String) (readable : Bool)
  deriving DecidableEq, Repr

/-- What rank 0's loop sees: the `current` link, the answers of its file-system calls, the
outcome of each attempt, and the ghost records of the attempts made and of the index writes. -/
structure Prefix where
  current : Current
  orc : Nat → Outcome
  tick : Nat
  fetchOk : Nat → Bool
  attempts : List (Int × String)
  writes : List (Nat × List IndexRecord)

/-- A computation of rank 0 on the prefix directory. -/
abbrev SyncM := StateM Prefix

/-- The state after one more call was answered. -/
def Prefix.tock (s : Prefix) : Prefix := { s with tick := s.tick + 1 }

/-- Lines 880–886: the target of a readable `current`, `""` when it is not readable or
`readlink` fails. -/
def readCurrent : SyncM String := fun s =>
  match s.current with
  | .link t true => (if s.orc s.tick = .ok then t else "", s.tock)
  | _ => ("", s)

/-- `scr_file_unlink(scr_current)`: the link is gone, unless the call fails. -/
def unlinkCurrent : SyncM Unit := fun s =>
  ((), { s.tock with current := if s.orc s.tick = .ok then .absent else s.current })

/-- Line 925: `symlink(target, scr_current)`, which fails when `current` exists (`EEXIST`). -/
def symlinkCurrent (target : String) : SyncM Unit := fun s =>
  ((), { s.tock with current := match s.current with
    | .absent => if s.orc s.tick = .ok then .link target true else .absent
    | c => c })

/-- Line 918 with a non-empty `fetch_dir`: the attempt's outcome, recorded with the checkpoint
id and target it is made for. -/
def fetchAttempt (id : Int) (target : String) : SyncM Bool := fun s =>
  (s.fetchOk s.attempts.length, { s with attempts := s.attempts ++ [(id, target)] })

/-- Modelled from the spec: `scr_index_write(prefix, index)` (§6), the index persisted, after
as many attempts as were made. -/
def scrIndexWrite (index : List IndexRecord) : SyncM Unit := fun s =>
  ((), { s with writes := s.writes ++ [(s.attempts.length, index)] })

/-- What the loop carries from one pass to the next: rank 0's index, `current_checkpoint_id`
and `*fetch_attempted`. -/
structure Cand where
  index : List IndexRecord
  ceiling : Int
  attempted : Bool
  deriving DecidableEq, Repr

/-- Lines 878–914 on rank 0: the pass's target, `""` when there is none, with the loop's
values updated. -/
def selectTarget (readIndex : Bool) (st : Cand) : SyncM (String × Cand) := do
  let link ← readCurrent
  -- lines 890–902: the link's checkpoint, or the index's most recent complete one
  let (target, ceiling) :=
    if readIndex then
      if link ≠ "" then (link, getIdByDir st.index link)
      else ((mostRecentComplete st.ceiling st.index).2, (mostRecentComplete st.ceiling st.index).1)
    else (link, st.ceiling)
  if target = "" then return (target, { st with ceiling })
  -- lines 907–913: the attempt is recorded, and persisted, before it is made
  else if readIndex ∧ ceiling ≠ -1 then
    let index := markFetched st.index ceiling
    scrIndexWrite index
    return (target, ⟨index, ceiling, true⟩)
  else return (target, ⟨st.index, ceiling, true⟩)

/-- Lines 919–946, rank 0's own part once `scr_fetch_files` returned `ok`: `current` is pointed
at the target, or unlinked with the checkpoint marked failed and the index persisted. -/
def afterFetch (readIndex : Bool) (target : String) (ok : Bool) (st : Cand) : SyncM Cand := do
  if ok then
    symlinkCurrent target
    return st
  else
    unlinkCurrent
    if readIndex ∧ st.ceiling ≠ -1 ∧ target ≠ "" then
      let index := markFailed st.index st.ceiling
      scrIndexWrite index
      return { st with index }
    else return st

/-- Lines 876–948: one pass of the loop on rank 0; the return code when the loop stops. -/
def syncPass (readIndex : Bool) (st : Cand) : SyncM (Option Bool × Cand) := do
  let (target, st) ← selectTarget readIndex st
  -- an empty `fetch_dir` makes `scr_fetch_files` fail at line 677
  let ok ← if target = "" then pure false else fetchAttempt st.ceiling target
  let st ← afterFetch readIndex target ok st
  -- a success ends the loop (line 928), and so does a failure without a `fetch_dir` (line 943)
  return (if ok ∨ target = "" then some ok else none, st)

/-- The loop of lines 874–949, with `fuel` passes at most: the return code and
`*fetch_attempted`; `none` when the fuel runs out. -/
def syncLoop (readIndex : Bool) : Nat → Cand → Prefix → Option ((Bool × Bool) × Prefix)
  | 0, _, _ => none
  | fuel + 1, st, s =>
    match syncPass readIndex st s with
    | ((some rc, st), s) => some ((rc, st.attempted), s)
    | ((none, st), s) => syncLoop readIndex fuel st s

/-- Lines 837–958 on rank 0: `index` is what `scr_index_read` read, `none` when it failed; the
return code and `*fetch_attempted`, which line 952 broadcasts. -/
def scrFetchSync (fuel : Nat) (index : Option (List IndexRecord)) (s : Prefix) :
    Option ((Bool × Bool) × Prefix) :=
  syncLoop index.isSome fuel ⟨index.getD [], -1, false⟩ s

/-! ## A loop that never ends -/

/-- A loop whose every pass from the stage `j` goes on to the stage `j + 1` never returns. -/
theorem syncLoop_diverges {readIndex : Bool} (inv : Nat → Cand × Prefix)
    (hstep : ∀ j, syncPass readIndex (inv j).1 (inv j).2 = ((none, (inv (j + 1)).1),
      (inv (j + 1)).2)) :
    ∀ fuel j, syncLoop readIndex fuel (inv j).1 (inv j).2 = none := by
  intro fuel
  induction fuel with
  | zero => intro j; rfl
  | succ fuel ih =>
    intro j
    simp only [syncLoop, hstep j]
    exact ih (j + 1)

/-- When `current` names checkpoint 1, unlinking it fails every time and every attempt fails,
each pass attempts checkpoint 1 again: no fuel is enough. -/
theorem scrFetchSync_unlink_refused_loops :
    let s : Prefix := ⟨.link "ckpt.1" true, fun n => if n % 2 = 0 then .ok else .fail, 0,
      fun _ => false, [], []⟩
    ∀ fuel, scrFetchSync fuel (some [⟨1, "ckpt.1", true, false, false⟩]) s = none := by
  intro s fuel
  let index : Nat → List IndexRecord := fun j =>
    if j = 0 then [⟨1, "ckpt.1", true, false, false⟩] else [⟨1, "ckpt.1", true, true, true⟩]
  let inv : Nat → Cand × Prefix := fun j =>
    (⟨index j, if j = 0 then -1 else 1, j ≠ 0⟩,
      { s with
        tick := 2 * j
        attempts := List.replicate j (1, "ckpt.1")
        writes := (List.range j).flatMap fun i =>
          [(i, markFetched (index i) 1), (i + 1, index (i + 1))] })
  refine syncLoop_diverges inv (fun j => ?_) fuel 0
  have h₁ : (2 * j) % 2 = 0 := by omega
  have h₂ : (2 * j + 1) % 2 = 1 := by omega
  have h₃ : 2 * j + 1 + 1 = 2 * (j + 1) := by omega
  have hid : getIdByDir (index j) "ckpt.1" = 1 := by
    by_cases hj : j = 0 <;> simp [index, hj, getIdByDir]
  have hmark : markFailed (markFetched (index j) 1) 1 = index (j + 1) := by
    by_cases hj : j = 0 <;> simp [index, hj, markFetched, markFailed]
  simp [inv, s, syncPass, selectTarget, afterFetch, readCurrent, fetchAttempt, unlinkCurrent,
    scrIndexWrite, Prefix.tock, bind, StateT.bind, pure, StateT.pure, h₁, h₂, h₃, hid, hmark,
    List.replicate_succ', List.range_succ]

/-! ## A success that leaves `current` dangling -/

/-- `current` dangles towards `ckpt.0`; the index has the complete `ckpt.1`, whose fetch
succeeds. The call returns success, with `current` still the dangling link. -/
theorem scrFetchSync_dangling_link_kept :
    let s : Prefix := ⟨.link "ckpt.0" false, fun _ => .ok, 0, fun _ => true, [], []⟩
    (scrFetchSync 3 (some [⟨1, "ckpt.1", true, false, false⟩]) s).map
      (fun p => (p.1.1, p.2.current)) = some (true, .link "ckpt.0" false) := by
  decide

end ScrFetch
