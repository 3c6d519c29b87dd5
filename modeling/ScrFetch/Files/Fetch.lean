import ScrFetch.Files.Recorded

/-!
# `scr_fetch_files`: one rank's attempt at a dataset

`scrFetchFiles` (lines 655–832) is one rank's part of an attempt to fetch the dataset in
`fetch_dir` into the cache. After the collectives that hand it the directory and its file list, it
deletes what the cache holds of the dataset, records the redundancy descriptor in the filemap,
writes the filemap, creates the cache directory, fetches its files (`scrFetchDataRank`, through
`scrFetchFilesList`), and finishes (`scrFetchFinish`): a failure on any rank deletes the dataset
again, otherwise `scr_reddesc_apply` decides.

The crash-recovery discipline of the spec (§2: the filemap is written before the file it
describes is created) is a property of the rank's trace of durable effects:

> `scrFetchFiles_listed`: whatever the calls and the other ranks return, in every run, one that
> returns and one that stops in a chunk loop that never ends alike, every creation in the trace,
> of the cache directory or of a cache file, is listed by the filemap on disk when it happens
> (`Listed`).

A run that stops keeps the state it reached (`IoM`), so the effects it made before it stopped
are in its trace; the effect lemmas of each phase are stated for every outcome.

What the filemap records is earned: the `scr_cache_delete` before the first file gives
`scrFetchFilesList_inv` its empty start, so

> `scrFetchFiles_complete`: when the attempt returns the dataset, every path recorded complete
> holds the bytes of its record's source, given that no source lies in the cache directory.

The filemap argument is a different story. Every change lands on the dataset's own id
(`scrFetchFiles_keeps`), and a failure leaves `map` as it was or without the dataset
(`scrFetchFiles_failure_clears`) when `map` is the global `scr_map`. When it is not, the cleanup
after a failed `scr_reddesc_apply` (line 801) deletes the dataset from `scr_map` and leaves it in
`map` (`scrFetchFiles_apply_failure_keeps_entries`).

Mirroring notes vs the C source:
- What the collectives deliver to the rank, and what the collaborators outside this file answer,
  is `FetchEnv`: the broadcast `fetch_dir`, the file list `scr_fetch_summary` scatters (`none`
  when rank 0's read failed, a code it broadcasts), rank 0's start signal, the logical and of the
  other ranks' values at the two `scr_alltrue` calls, `scr_reddesc_for_checkpoint`,
  `scr_cache_dir_get` and the status of `scr_reddesc_apply`.
- Modelled from the spec: `scr_cache_delete` removes the dataset from the filemap it is given
  and records the durable effect `delete id`; the unlinks it makes are not modelled.
- `scr_cache_dir_create` is the durable effect `mkdir`; `scr_reddesc_apply` is its status alone.
- The barrier, timers, logging, `scr_flush_file_location_set` and the bandwidth report are left
  out: none of them changes a value the rank returns or its filemap.
-/

namespace ScrFetch

/-- What one rank of `scr_fetch_files` receives from the collectives, and what the collaborators
outside this file answer it. -/
structure FetchEnv where
  /-- `fetch_dir` as broadcast from rank 0 (lines 669–671); `[]` is the empty string. -/
  fetchDir : Path
  /-- The rank's file list from `scr_fetch_summary`, `none` when rank 0 failed to read it. -/
  summary : Option FileList
  /-- The start signal rank 0 sends a rank other than 0 in `scr_fetch_data` (line 632). -/
  go : Bool
  /-- Whether every other rank succeeded, at the `scr_alltrue` of `scr_fetch_data`. -/
  othersData : Bool
  /-- Whether every other rank succeeded, at the `scr_alltrue` of line 767. -/
  othersFetch : Bool
  /-- `scr_reddesc_for_checkpoint`. -/
  reddescFor : Int → Reddesc
  /-- `scr_cache_dir_get`. -/
  cacheDir : Reddesc → Int → Path
  /-- Whether `scr_reddesc_apply` succeeds on this rank. -/
  applyOk : Bool

/-- The filemaps `scr_fetch_files` changes: its argument `map`, and the global `scr_map` that
line 801 names; `scrMap = none` when `map` is `scr_map` itself. -/
structure Maps where
  map : Filemap
  scrMap : Option Filemap

/-- Modelled from the spec: `CacheManager.delete(map, id)` (§6) drops dataset `id` from `map`
and deletes its files from the cache. -/
def scrCacheDelete (map : Filemap) (id : Int) : IoM Filemap := fun io =>
  (some (map.removeDataset id), { io with trace := io.trace ++ [.delete id] })

@[simp] theorem scrCacheDelete_bind {β : Type} (map : Filemap) (id : Int) (f : Filemap → IoM β)
    (io : Io) : (scrCacheDelete map id >>= f) io =
      f (map.removeDataset id) { io with trace := io.trace ++ [.delete id] } :=
  rfl

/-- Lines 559–649, one rank's part of `scr_fetch_data`: rank 0 fetches its files, another rank
only when rank 0's start signal says no rank has failed so far; the result is the `scr_alltrue`
of every rank's success. -/
def scrFetchDataRank (cfg : Config) (fuel rank ranks : Nat) (env : FetchEnv) (fl : FileList)
    (dir : Path) (map : Filemap) : IoM (Bool × Filemap) := do
  if rank = 0 ∨ env.go then
    let (rc, map) ← scrFetchFilesList cfg fuel rank ranks fl dir map
    return (rc && env.othersData, map)
  else return (false, map)

/-- Lines 764–803: a failure on any rank deletes the dataset from `map`; otherwise
`scr_reddesc_apply` decides, and its failure deletes the dataset from `scr_map`. -/
def scrFetchFinish (env : FetchEnv) (id ckpt : Int) (success : Bool) (maps : Maps) :
    IoM (Option (Int × Int) × Maps) :=
  if !(success && env.othersFetch) then do
    let map ← scrCacheDelete maps.map id
    return (none, { maps with map := map })
  else if env.applyOk then return (some (id, ckpt), maps)
  -- line 801 names the global `scr_map`, whichever filemap the caller passed
  else match maps.scrMap with
    | none => do
      let map ← scrCacheDelete maps.map id
      return (none, { maps with map := map })
    | some g => do
      let g ← scrCacheDelete g id
      return (none, { maps with scrMap := some g })

/-- Lines 655–832: one rank's attempt to fetch the dataset in `env.fetchDir`; on success the
dataset and checkpoint ids (`*dataset_id`, `*checkpoint_id`), with the filemaps. -/
def scrFetchFiles (cfg : Config) (fuel rank ranks : Nat) (env : FetchEnv) (maps : Maps) :
    IoM (Option (Int × Int) × Maps) :=
  if env.fetchDir = [] then return (none, maps) else do
  let some fl := env.summary | return (none, maps)
  let some id := fl.id | return (none, maps)
  let some ckpt := fl.ckpt | return (none, maps)
  -- lines 733–750: before the first file, the filemap records the descriptor and is written
  let map ← scrCacheDelete maps.map id
  let c := env.reddescFor ckpt
  let map := map.setDesc id rank c
  Io.filemapWrite map
  Io.mkdir (env.cacheDir c id)
  let (success, map) ← scrFetchDataRank cfg fuel rank ranks env fl (env.cacheDir c id) map
  scrFetchFinish env id ckpt success { maps with map := map }

/-! ## The trace of durable effects -/

/-- Whether every creation among the effects `t` is listed by the filemap on disk when it
happens, `disk` being the one on disk before them: a cache file by its path under `(id, rank)`,
a directory by the redundancy descriptor `c` under `(id, rank)`. -/
def Listed (id : Int) (rank : Nat) (c : Reddesc) : Option Filemap → List Effect → Prop
  | _, [] => True
  | _, .mapWrite fm :: t => Listed id rank c (some fm) t
  | disk, .create p :: t => (∃ fm ∈ disk, p ∈ fm.paths id rank) ∧ Listed id rank c disk t
  | disk, .mkdir _ :: t => (∃ fm ∈ disk, (fm id rank).desc = some c) ∧ Listed id rank c disk t
  | disk, .delete _ :: t => Listed id rank c disk t

section Listed

variable {id : Int} {rank : Nat} {c : Reddesc}

/-- Effects listed from whatever filemap is on disk may follow listed ones. -/
theorem Listed.append {disk : Option Filemap} {t₁ t₂ : List Effect}
    (h₁ : Listed id rank c disk t₁) (h₂ : ∀ d, Listed id rank c d t₂) :
    Listed id rank c disk (t₁ ++ t₂) := by
  induction t₁ generalizing disk with
  | nil => exact h₂ disk
  | cons e t ih =>
    cases e with
    | create p => exact ⟨h₁.1, ih h₁.2⟩
    | mkdir p => exact ⟨h₁.1, ih h₁.2⟩
    | mapWrite fm => exact ih h₁
    | delete i => exact ih h₁

/-- Creations of a file the filemap on disk lists are listed. -/
theorem listed_creates {fm : Filemap} {p : Path} {t : List Effect}
    (hp : p ∈ fm.paths id rank) (ht : ∀ e ∈ t, e = .create p) :
    Listed id rank c (some fm) t := by
  induction t with
  | nil => trivial
  | cons e t ih =>
    obtain rfl := ht e (List.mem_cons_self _ _)
    exact ⟨⟨fm, rfl, hp⟩, ih fun e he => ht e (List.mem_cons_of_mem _ he)⟩

end Listed

/-! ## The effects of each phase -/

section Effects

variable {cfg : Config} {fuel rank ranks : Nat} {id : Int}

/-- Each file of the loop is created only after a filemap that lists it is written, whether the
loop returns or stops, and a loop that returns changes the filemap only under `id`. -/
theorem fetchFilesLoop_effects {containers : Option (IntHash ContainerInfo)} {dir : Path} :
    ∀ {l : List (Path × FileRecord)} {rc : Bool} {n : Nat} {map : Filemap} {io io' : Io}
      {x : Option (Bool × Nat × Filemap)},
    fetchFilesLoop cfg fuel rank ranks id containers dir l rc n map io = (x, io') →
    ∃ t, io'.trace = io.trace ++ t ∧ (∀ c d, Listed id rank c d t) ∧ ∀ r ∈ x, map.Keeps id r.2.2
  | [], rc, n, map, io, io', x, h => by
    obtain ⟨rfl, rfl⟩ := Prod.mk.inj h
    exact ⟨[], by simp, fun _ _ => trivial, by rintro _ ⟨⟩; exact .refl _ _⟩
  | (f, rec) :: rest, rc, n, map, io, io', x, h => by
    unfold fetchFilesLoop at h
    by_cases hnf : rec.noFetch
    · rw [if_pos hnf] at h
      exact fetchFilesLoop_effects h
    simp only [if_neg hnf, filemapWrite_bind] at h
    have hadd := Filemap.keeps_modify map id rank (·.addFile (buildPath dir (basename f)))
    cases hs : rec.size with
    | none =>
      simp only [hs, pure_apply, Prod.mk.injEq] at h
      obtain ⟨rfl, rfl⟩ := h
      exact ⟨_, rfl, fun _ _ => trivial, by rintro _ ⟨⟩; exact hadd⟩
    | some filesize =>
      simp only [hs] at h
      rcases bind_eq.1 h with ⟨⟨ok, nf⟩, io₂, hf, h⟩ | ⟨rfl, hf⟩
      · obtain ⟨hconf, hret⟩ := fetchOne_spec hf
        obtain ⟨rfl, -⟩ := hret ok nf rfl
        obtain ⟨t₂, ht₂, hc₂⟩ := hconf.trace
        obtain ⟨t₃, ht₃, hl₃, hk₃⟩ := fetchFilesLoop_effects h
        refine ⟨.mapWrite (map.addFile id rank (buildPath dir (basename f))) :: (t₂ ++ t₃),
          by simp [ht₃, ht₂], fun c d => ?_,
          fun r hr => hadd.trans ((Filemap.keeps_modify _ _ _ _).trans (hk₃ r hr))⟩
        exact (listed_creates (Filemap.mem_paths_addFile _ _ _ _) hc₂).append (hl₃ c)
      · -- the fetch stopped: all it did is create its own file
        obtain ⟨t₂, ht₂, hc₂⟩ := (fetchOne_spec hf).1.trace
        exact ⟨.mapWrite (map.addFile id rank (buildPath dir (basename f))) :: t₂, by simp [ht₂],
          fun _ _ => listed_creates (Filemap.mem_paths_addFile _ _ _ _) hc₂, by rintro _ ⟨⟩⟩

/-- `scr_fetch_files_list` creates each file only after a filemap that lists it is written,
whether it returns or stops, and one that returns changes the filemap only under the list's
id. -/
theorem scrFetchFilesList_effects {fl : FileList} {dir : Path} {map : Filemap} {io io' : Io}
    {x : Option (Bool × Filemap)} (hid : fl.id = some id)
    (h : scrFetchFilesList cfg fuel rank ranks fl dir map io = (x, io')) :
    ∃ t, io'.trace = io.trace ++ t ∧ (∀ c d, Listed id rank c d t) ∧ ∀ r ∈ x, map.Keeps id r.2 := by
  simp only [scrFetchFilesList, hid] at h
  rcases bind_eq.1 h with ⟨⟨rc₁, n, map₁⟩, io₁, hloop, h⟩ | ⟨rfl, hloop⟩
  · simp only [filemapWrite_bind, pure_apply, Prod.mk.injEq] at h
    obtain ⟨rfl, rfl⟩ := h
    obtain ⟨t, ht, hl, hk⟩ := fetchFilesLoop_effects hloop
    exact ⟨t ++ [.mapWrite (map₁.setExpected id rank n)], by simp [ht],
      fun c d => (hl c d).append fun _ => by simp [Listed],
      by
        rintro _ ⟨⟩
        show map.Keeps id (map₁.setExpected id rank n)
        exact (hk (rc₁, n, map₁) rfl).trans (Filemap.keeps_modify _ _ _ _)⟩
  · obtain ⟨t, ht, hl, -⟩ := fetchFilesLoop_effects hloop
    exact ⟨t, ht, hl, by rintro _ ⟨⟩⟩

/-- A rank's part of `scr_fetch_data` has the effects of its file list, if it fetches one. -/
theorem scrFetchDataRank_effects {env : FetchEnv} {fl : FileList} {dir : Path}
    {map : Filemap} {io io' : Io} {x : Option (Bool × Filemap)} (hid : fl.id = some id)
    (h : scrFetchDataRank cfg fuel rank ranks env fl dir map io = (x, io')) :
    ∃ t, io'.trace = io.trace ++ t ∧ (∀ c d, Listed id rank c d t) ∧ ∀ r ∈ x, map.Keeps id r.2 := by
  unfold scrFetchDataRank at h
  split_ifs at h
  · rcases bind_eq.1 h with ⟨⟨rc, map₁⟩, io₁, hl, h⟩ | ⟨rfl, hl⟩
    · simp only [pure_apply, Prod.mk.injEq] at h
      obtain ⟨rfl, rfl⟩ := h
      obtain ⟨t, ht, hl', hk⟩ := scrFetchFilesList_effects hid hl
      exact ⟨t, ht, hl', by rintro _ ⟨⟩; exact hk (rc, map₁) rfl⟩
    · exact scrFetchFilesList_effects hid hl
  · obtain ⟨rfl, rfl⟩ := Prod.mk.inj h
    exact ⟨[], by simp, fun _ _ => trivial, by rintro _ ⟨⟩; exact .refl _ _⟩

/-- The finish returns, whatever the other ranks and `scr_reddesc_apply` answer. -/
theorem scrFetchFinish_returns (env : FetchEnv) (id ckpt : Int) (success : Bool) (maps : Maps)
    (io : Io) : ∃ r io', scrFetchFinish env id ckpt success maps io = (some r, io') := by
  unfold scrFetchFinish
  split_ifs
  · exact ⟨_, _, rfl⟩
  · exact ⟨_, _, rfl⟩
  · cases maps.scrMap <;> exact ⟨_, _, rfl⟩

/-- The finish creates nothing, changes the filemaps only under `id`, and a failure with `map`
the global `scr_map` leaves no file of the dataset in it. -/
theorem scrFetchFinish_spec {env : FetchEnv} {ckpt : Int} {success : Bool} {maps : Maps}
    {io io' : Io} {r : Option (Int × Int) × Maps}
    (h : scrFetchFinish env id ckpt success maps io = (some r, io')) :
    (io'.trace = io.trace ∨ io'.trace = io.trace ++ [.delete id]) ∧ maps.map.Keeps id r.2.map ∧
      (maps.scrMap = none → r.1 = none → ∀ rk, (r.2.map id rk).files = []) := by
  unfold scrFetchFinish at h
  split_ifs at h with hs ha
  · simp only [scrCacheDelete_bind, pure_apply, Prod.mk.injEq, Option.some.injEq] at h
    obtain ⟨rfl, rfl⟩ := h
    exact ⟨.inr rfl, Filemap.keeps_removeDataset _ _, fun _ _ _ => by simp [Entry.empty]⟩
  · simp only [pure_apply, Prod.mk.injEq, Option.some.injEq] at h
    obtain ⟨rfl, rfl⟩ := h
    exact ⟨.inl rfl, .refl _ _, fun _ h => by cases h⟩
  · cases hg : maps.scrMap with
    | none =>
      simp only [hg, scrCacheDelete_bind, pure_apply, Prod.mk.injEq, Option.some.injEq] at h
      obtain ⟨rfl, rfl⟩ := h
      exact ⟨.inr rfl, Filemap.keeps_removeDataset _ _, fun _ _ _ => by simp [Entry.empty]⟩
    | some g =>
      simp only [hg, scrCacheDelete_bind, pure_apply, Prod.mk.injEq, Option.some.injEq] at h
      obtain ⟨rfl, rfl⟩ := h
      exact ⟨.inr rfl, .refl _ _, fun h => by cases h⟩

/-- A finish that returns the dataset took the `scr_reddesc_apply` branch after every rank
succeeded, and changed nothing. -/
theorem scrFetchFinish_some {env : FetchEnv} {ckpt : Int} {success : Bool} {maps : Maps}
    {io io' : Io} {r : Option (Int × Int) × Maps} {x : Int × Int}
    (h : scrFetchFinish env id ckpt success maps io = (some r, io')) (hr : r.1 = some x) :
    x = (id, ckpt) ∧ success = true ∧ r.2 = maps ∧ io' = io := by
  unfold scrFetchFinish at h
  split_ifs at h with hs
  · simp only [scrCacheDelete_bind, pure_apply, Prod.mk.injEq, Option.some.injEq] at h
    obtain ⟨rfl, rfl⟩ := h
    cases hr
  · simp only [pure_apply, Prod.mk.injEq, Option.some.injEq] at h
    obtain ⟨rfl, rfl⟩ := h
    simp only [Bool.not_eq_true', Bool.and_eq_false_iff, not_or, Bool.not_eq_false] at hs
    exact ⟨(Option.some.inj hr).symm, hs.1, rfl, rfl⟩
  · cases hg : maps.scrMap <;>
      simp only [hg, scrCacheDelete_bind, pure_apply, Prod.mk.injEq, Option.some.injEq] at h <;>
      obtain ⟨rfl, rfl⟩ := h <;> cases hr

/-- A rank's part of `scr_fetch_data` that succeeds has fetched its file list. -/
theorem scrFetchDataRank_true {env : FetchEnv} {fl : FileList} {dir : Path} {map map' : Filemap}
    {io io' : Io} (h : scrFetchDataRank cfg fuel rank ranks env fl dir map io = (some (true, map'), io')) :
    ∃ rc, scrFetchFilesList cfg fuel rank ranks fl dir map io = (some (rc, map'), io') := by
  unfold scrFetchDataRank at h
  split_ifs at h
  · obtain ⟨⟨rc, map₁⟩, io₁, hl, h⟩ := bind_eq_some.1 h
    simp only [pure_apply, Option.some.injEq, Prod.mk.injEq] at h
    obtain ⟨⟨-, rfl⟩, rfl⟩ := h
    exact ⟨rc, hl⟩
  · simp at h

end Effects

/-! ## The whole attempt -/

section Attempt

variable {cfg : Config} {fuel rank ranks : Nat} {env : FetchEnv} {maps : Maps} {io io' : Io}
  {r : Option (Int × Int) × Maps}

/-- A run of `scr_fetch_files` returns before its first effect, or deletes the dataset from
`map`, writes the filemap with the descriptor, creates the cache directory and runs the data
phase, which either stops the run or is followed by the finish. -/
theorem scrFetchFiles_eq {x : Option (Option (Int × Int) × Maps)}
    (h : scrFetchFiles cfg fuel rank ranks env maps io = (x, io')) :
    (x = some (none, maps) ∧ io' = io) ∨
    ∃ fl id ckpt y io₁, env.summary = some fl ∧ fl.id = some id ∧ fl.ckpt = some ckpt ∧
      scrFetchDataRank cfg fuel rank ranks env fl (env.cacheDir (env.reddescFor ckpt) id)
        ((maps.map.removeDataset id).setDesc id rank (env.reddescFor ckpt))
        { io with trace := io.trace ++ [.delete id,
          .mapWrite ((maps.map.removeDataset id).setDesc id rank (env.reddescFor ckpt)),
          .mkdir (env.cacheDir (env.reddescFor ckpt) id)] } = (y, io₁) ∧
      ((y = none ∧ x = none ∧ io' = io₁) ∨ ∃ success map r, y = some (success, map) ∧
        x = some r ∧ scrFetchFinish env id ckpt success { maps with map := map } io₁ = (some r, io')) := by
  unfold scrFetchFiles at h
  have early : (pure (none, maps) : IoM (Option (Int × Int) × Maps)) io = (x, io') →
      x = some (none, maps) ∧ io' = io := fun h => by
    obtain ⟨rfl, rfl⟩ := Prod.mk.inj h
    exact ⟨rfl, rfl⟩
  split_ifs at h
  · exact .inl (early h)
  cases hs : env.summary with
  | none => simp only [hs] at h; exact .inl (early h)
  | some fl =>
  cases hid : fl.id with
  | none => simp only [hs, hid] at h; exact .inl (early h)
  | some id =>
  cases hck : fl.ckpt with
  | none => simp only [hs, hid, hck] at h; exact .inl (early h)
  | some ckpt =>
  simp only [hs, hid, hck, scrCacheDelete_bind, filemapWrite_bind, mkdir_bind] at h
  rw [bind_apply] at h
  split at h
  · rename_i r io₁ hd
    obtain ⟨success, map⟩ := r
    obtain ⟨r', io₂, hf⟩ := scrFetchFinish_returns env id ckpt success { maps with map := map } io₁
    rw [hf] at h
    obtain ⟨rfl, rfl⟩ := Prod.mk.inj h
    exact .inr ⟨fl, id, ckpt, _, io₁, rfl, hid, hck, by simpa using hd,
      .inr ⟨success, map, r', rfl, rfl, hf⟩⟩
  · rename_i io₁ hd
    obtain ⟨rfl, rfl⟩ := Prod.mk.inj h
    exact .inr ⟨fl, id, ckpt, _, io₁, rfl, hid, hck, by simpa using hd, .inl ⟨rfl, rfl, rfl⟩⟩

/-- Whatever its calls and the other ranks return, in every run of a rank's `scr_fetch_files`,
one that returns and one that stops alike, the rank creates the cache directory only after
writing a filemap that records the dataset's redundancy descriptor, and each cache file only
after writing a filemap that lists it under `(id, rank)`. -/
theorem scrFetchFiles_listed {x : Option (Option (Int × Int) × Maps)}
    (h : scrFetchFiles cfg fuel rank ranks env maps io = (x, io')) :
    ∃ t, io'.trace = io.trace ++ t ∧ ∀ fl id ckpt, env.summary = some fl → fl.id = some id →
      fl.ckpt = some ckpt → Listed id rank (env.reddescFor ckpt) none t := by
  rcases scrFetchFiles_eq h with ⟨-, rfl⟩ | ⟨fl, id, ckpt, y, io₁, hs, hid, hck, hd, hrest⟩
  · exact ⟨[], by simp, fun _ _ _ _ _ _ => trivial⟩
  obtain ⟨t, ht, hl, -⟩ := scrFetchDataRank_effects hid hd
  obtain ⟨tf, htf, hlf⟩ : ∃ tf, io'.trace = io₁.trace ++ tf ∧
      ∀ c d, Listed id rank c d tf := by
    rcases hrest with ⟨-, -, rfl⟩ | ⟨success, map, r, -, -, hf⟩
    · exact ⟨[], by simp, fun _ _ => trivial⟩
    rcases (scrFetchFinish_spec hf).1 with htf | htf
    exacts [⟨[], by simp [htf], fun _ _ => trivial⟩, ⟨[.delete id], htf, fun _ _ => trivial⟩]
  refine ⟨.delete id :: .mapWrite ((maps.map.removeDataset id).setDesc id rank (env.reddescFor ckpt))
    :: .mkdir (env.cacheDir (env.reddescFor ckpt) id) :: (t ++ tf), by simp [htf, ht],
    fun fl' id' ckpt' hs' hid' hck' => ?_⟩
  obtain rfl : fl' = fl := Option.some.inj (hs'.symm.trans hs)
  obtain rfl : id' = id := Option.some.inj (hid'.symm.trans hid)
  obtain rfl : ckpt' = ckpt := Option.some.inj (hck'.symm.trans hck)
  exact ⟨⟨_, rfl, Filemap.setDesc_desc _ _ _ _⟩, (hl _ _).append (hlf _)⟩

/-- One file copied from `pfs/a`: the run's effects are listed. -/
theorem scrFetchFiles_listed_one_file :
    let io : Io := ⟨fun p => if p = ["pfs", "a"] then some [1, 2, 3] else none, fun _ => none, 3, 0,
      fun _ => .ok, 0, []⟩
    let fl : FileList := ⟨some 7, some 7, none, [(["a"], ⟨false, some 3, none, none, none, some ["pfs"]⟩)]⟩
    let env : FetchEnv := ⟨["pfs"], some fl, true, true, true, fun _ => ⟨0⟩, fun _ _ => ["cache"], true⟩
    ∃ r io', scrFetchFiles ⟨false, 2⟩ 0 0 1 env ⟨Filemap.empty, none⟩ io = (some r, io') ∧
      ∃ t, io'.trace = io.trace ++ t ∧ ∀ fl id ckpt, env.summary = some fl → fl.id = some id →
        fl.ckpt = some ckpt → Listed id 0 (env.reddescFor ckpt) none t := by
  intro io fl env
  exact ⟨_, _, rfl, @scrFetchFiles_listed ⟨false, 2⟩ 0 0 1 env _ io _ _ rfl⟩

/-- Whatever it returns, `scr_fetch_files` changes `map` only under the summary's dataset id. -/
theorem scrFetchFiles_keeps (h : scrFetchFiles cfg fuel rank ranks env maps io = (some r, io')) :
    ∀ fl id, env.summary = some fl → fl.id = some id → maps.map.Keeps id r.2.map := by
  rcases scrFetchFiles_eq h with ⟨⟨⟩, -⟩ | ⟨fl, id, ckpt, y, io₁, hs, hid, -, hd,
    ⟨-, ⟨⟩, -⟩ | ⟨success, map, r', rfl, ⟨⟩, hf⟩⟩
  · exact fun _ _ _ _ => .refl _ _
  intro fl' id' hs' hid'
  obtain rfl : fl' = fl := Option.some.inj (hs'.symm.trans hs)
  obtain rfl : id' = id := Option.some.inj (hid'.symm.trans hid)
  obtain ⟨_, _, _, hk⟩ := scrFetchDataRank_effects hid hd
  exact ((Filemap.keeps_removeDataset _ _).trans (Filemap.keeps_modify _ _ _ _)).trans
    ((hk _ rfl).trans (scrFetchFinish_spec hf).2.1)

/-- One file fetched into dataset 7: `map` changes under dataset 7 alone. -/
theorem scrFetchFiles_keeps_one_file :
    let io : Io := ⟨fun p => if p = ["pfs", "a"] then some [1, 2, 3] else none, fun _ => none, 3, 0,
      fun _ => .ok, 0, []⟩
    let fl : FileList := ⟨some 7, some 7, none, [(["a"], ⟨false, some 3, none, none, none, some ["pfs"]⟩)]⟩
    let env : FetchEnv := ⟨["pfs"], some fl, true, true, true, fun _ => ⟨0⟩, fun _ _ => ["cache"], true⟩
    ∃ r io', scrFetchFiles ⟨false, 2⟩ 0 0 1 env ⟨Filemap.empty, none⟩ io = (some r, io') ∧
      ∀ fl id, env.summary = some fl → fl.id = some id → Filemap.empty.Keeps id r.2.map := by
  intro io fl env
  exact ⟨_, _, rfl, @scrFetchFiles_keeps ⟨false, 2⟩ 0 0 1 env _ io _ _ rfl⟩

/-- When `map` is the global `scr_map`, a failed `scr_fetch_files` leaves `map` as it was, or
without a file of the summary's dataset. -/
theorem scrFetchFiles_failure_clears (halias : maps.scrMap = none)
    (h : scrFetchFiles cfg fuel rank ranks env maps io = (some r, io')) (hfail : r.1 = none) :
    r.2.map = maps.map ∨
      ∃ fl id, env.summary = some fl ∧ fl.id = some id ∧ ∀ rk, (r.2.map id rk).files = [] := by
  rcases scrFetchFiles_eq h with ⟨⟨⟩, -⟩ | ⟨fl, id, ckpt, y, io₁, hs, hid, -, -,
    ⟨-, ⟨⟩, -⟩ | ⟨success, map, r', -, ⟨⟩, hf⟩⟩
  · exact .inl rfl
  exact .inr ⟨fl, id, hs, hid, (scrFetchFinish_spec hf).2.2 halias hfail⟩

/-- `map` is `scr_map` and `scr_reddesc_apply` fails: the attempt fails and dataset 7 is gone
from `map`. -/
theorem scrFetchFiles_failure_clears_one_file :
    let io : Io := ⟨fun p => if p = ["pfs", "a"] then some [1, 2, 3] else none, fun _ => none, 3, 0,
      fun _ => .ok, 0, []⟩
    let fl : FileList := ⟨some 7, some 7, none, [(["a"], ⟨false, some 3, none, none, none, some ["pfs"]⟩)]⟩
    let env : FetchEnv := ⟨["pfs"], some fl, true, true, true, fun _ => ⟨0⟩, fun _ _ => ["cache"], false⟩
    ∃ r io', scrFetchFiles ⟨false, 2⟩ 0 0 1 env ⟨Filemap.empty, none⟩ io = (some r, io') ∧
      r.1 = none ∧ (r.2.map = Filemap.empty ∨
        ∃ fl id, env.summary = some fl ∧ fl.id = some id ∧ ∀ rk, (r.2.map id rk).files = []) := by
  intro io fl env
  exact ⟨_, _, rfl, rfl, @scrFetchFiles_failure_clears ⟨false, 2⟩ 0 0 1 env ⟨Filemap.empty, none⟩ io _ _
    rfl rfl rfl⟩

/-- When a rank's `scr_fetch_files` returns the dataset `(id, ckpt)`, whatever the calls
returned, every path its filemap records for `(id, rank)` with `complete = 1` holds the bytes of
the source of the file record that recorded it last, with its CRC when the CRC is checked; given
that no source of the rank's file list lies in the dataset's cache directory. -/
theorem scrFetchFiles_complete {id ckpt : Int}
    (hout : ∀ fl, env.summary = some fl → fl.ReadsOutside (env.cacheDir (env.reddescFor ckpt) id))
    (h : scrFetchFiles cfg fuel rank ranks env maps io = (some r, io')) (hr : r.1 = some (id, ckpt)) :
    ∃ fl, env.summary = some fl ∧ fl.id = some id ∧ fl.ckpt = some ckpt ∧
      ∀ p m, r.2.map.getMeta id rank p = some m → m.complete = 1 →
        Recorded cfg ranks io.files fl.containers (env.cacheDir (env.reddescFor ckpt) id)
          (fetched fl.files) io'.files p m := by
  rcases scrFetchFiles_eq h with ⟨⟨⟩, -⟩ | ⟨fl, id', ckpt', y, io₁, hs, hid, hck, hd,
    ⟨-, ⟨⟩, -⟩ | ⟨success, map, r', rfl, ⟨⟩, hf⟩⟩
  · cases hr
  obtain ⟨hx, rfl, hmaps, rfl⟩ := scrFetchFinish_some hf hr
  obtain ⟨rfl, rfl⟩ := Prod.mk.inj hx
  obtain ⟨rc, hl⟩ := scrFetchDataRank_true hd
  have hempty : (((maps.map.removeDataset id).setDesc id rank (env.reddescFor ckpt)) id rank).files
      = [] := by simp [Filemap.setDesc, Entry.empty]
  refine ⟨fl, hs, hid, hck, fun p m hm => ?_⟩
  rw [hmaps] at hm
  exact (scrFetchFilesList_inv hid (hout fl hs) (.start hempty) hl).complete p m hm

/-- One file copied from `pfs/a` into dataset 7: the attempt returns the dataset, and `cache/a`,
recorded complete, holds the bytes of `pfs/a`. -/
theorem scrFetchFiles_complete_one_file :
    let io : Io := ⟨fun p => if p = ["pfs", "a"] then some [1, 2, 3] else none, fun _ => none, 3, 0,
      fun _ => .ok, 0, []⟩
    let fl : FileList := ⟨some 7, some 7, none, [(["a"], ⟨false, some 3, none, none, none, some ["pfs"]⟩)]⟩
    let env : FetchEnv := ⟨["pfs"], some fl, true, true, true, fun _ => ⟨0⟩, fun _ _ => ["cache"], true⟩
    ∃ r io', scrFetchFiles ⟨false, 2⟩ 0 0 1 env ⟨Filemap.empty, none⟩ io = (some r, io') ∧
      r.1 = some (7, 7) ∧ ∃ fl, env.summary = some fl ∧ fl.id = some 7 ∧ fl.ckpt = some 7 ∧
        ∀ p m, r.2.map.getMeta 7 0 p = some m → m.complete = 1 →
          Recorded ⟨false, 2⟩ 1 io.files fl.containers (env.cacheDir (env.reddescFor 7) 7)
            (fetched fl.files) io'.files p m := by
  intro io fl env
  exact ⟨_, _, rfl, rfl, @scrFetchFiles_complete ⟨false, 2⟩ 0 0 1 env ⟨Filemap.empty, none⟩ io _ _ 7 7
    (fun _ hs => by cases hs; exact ⟨fun _ h => (nomatch h), by decide⟩) rfl rfl⟩

end Attempt

/-- When `map` is not the global `scr_map`, a failed `scr_reddesc_apply` deletes the dataset
from `scr_map` and leaves it in `map`: the attempt fails with `map` still listing the fetched
`cache/a` under dataset 7, while `scr_map` has nothing for it. -/
theorem scrFetchFiles_apply_failure_keeps_entries :
    let io : Io := ⟨fun p => if p = ["pfs", "a"] then some [1, 2, 3] else none, fun _ => none, 3, 0,
      fun _ => .ok, 0, []⟩
    let fl : FileList := ⟨some 7, some 7, none, [(["a"], ⟨false, some 3, none, none, none, some ["pfs"]⟩)]⟩
    let env : FetchEnv := ⟨["pfs"], some fl, true, true, true, fun _ => ⟨0⟩, fun _ _ => ["cache"], false⟩
    (scrFetchFiles ⟨false, 2⟩ 0 0 1 env ⟨Filemap.empty, some Filemap.empty⟩ io).1.map
      (fun p => (p.1, (p.2.map 7 0).files.map Prod.fst, p.2.scrMap.map fun g => (g 7 0).files.length)) =
      some (none, [["cache", "a"]], some 0) := by
  decide

end ScrFetch
