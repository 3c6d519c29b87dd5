import ScrFetch.Files.List

/-!
# `scr_fetch_summary`: the summary scattered by rank

Rank 0 reads the dataset's summary; every rank gets rank 0's status, the dataset header and the
container catalogue by broadcast, and its own files through `scr_hash_exchange`, which routes the
entries of `rank2file/RANK` to the ranks their keys name (`scrFetchSummary`, lines 464–556).

> `scrFetchSummary_scatter`: every rank returns rank 0's status; on success rank `r` of `N`
> holds the summary's header, its catalogue when it is not empty, and under `FILE` exactly the
> records keyed `r`, each with `PATH` set to the directory. So a record keyed by a rank of the
> job reaches that rank and no other, and a record keyed by anything else reaches none
> (`scrFetchSummary_drops_key_past_ranks`).

Mirroring notes vs the C source:
- `scr_summary_read` is not in `src/`; what it reads is modelled from the spec (§4.4) as
  `Summary`: the header's id and checkpoint id, the catalogue (empty when absent) and, for each
  key of `rank2file/RANK`, the `FILE` hash under it. A failed read and an unreadable directory
  are both `none`.
- The collectives are evaluated: a broadcast hands every rank rank 0's value, and
  `hashExchange` (modelled from the spec: `Transport.exchange` routes keyed payloads to their
  integer-addressed destinations) hands rank `r` what each rank addressed to `r`. `Sync.Job`
  shows that every rank calls these collectives together.
- `file_list` is the empty hash `scr_fetch_files` passes in; on failure it stays empty.
-/

namespace ScrFetch

/-- Modelled from the spec: what `scr_summary_read` reads from a summary file (§4.4). -/
structure Summary where
  id : Option Int
  ckpt : Option Int
  containers : IntHash ContainerInfo
  rank2file : IntHash (List (Path × FileRecord))

/-- An empty hash, what a rank that sends nothing passes to `scr_hash_exchange`. -/
def IntHash.empty {α : Type} : IntHash α := ⟨[], List.nodup_nil⟩

@[simp] theorem IntHash.get_empty {α : Type} (k : Int) : (IntHash.empty : IntHash α).get k = none :=
  rfl

/-- Modelled from the spec: `scr_hash_exchange(send, recv)` over `ranks` ranks, as rank `rank`
sees it: keyed by source, the payload each rank addressed to `rank`. A payload addressed to a key
that is no rank of the job reaches no rank. -/
def hashExchange {α : Type} (ranks : Nat) (send : Nat → IntHash α) (rank : Nat) :
    List (Nat × α) :=
  (List.range ranks).filterMap fun src => ((send src).get rank).map (src, ·)

/-- Lines 464–556 on rank `rank` of `ranks`: the status every rank gets from rank 0 and the
rank's file list, given what rank 0's `scr_summary_read` read from `dir`. -/
def scrFetchSummary (ranks rank : Nat) (dir : Path) (read : Option Summary) : Bool × FileList :=
  -- line 486: every rank gets rank 0's return code
  match read with
  | none => (false, ⟨none, none, none, []⟩)
  | some s =>
    -- line 522: only rank 0 sends, `rank2file/RANK`
    let recv := hashExchange ranks (fun src => if src = 0 then s.rank2file else .empty) rank
    -- lines 526–539: each payload received replaces `FILE`
    let files := recv.foldl (fun _ e => e.2) []
    -- lines 543–552: every file gets `PATH = dir`
    let files := files.map fun e => (e.1, { e.2 with path := some dir })
    (true, ⟨s.id, s.ckpt, if 0 < s.containers.entries.length then some s.containers else none, files⟩)

/-- Only rank 0 sends, so a rank of the job receives exactly rank 0's payload for it, if any. -/
theorem hashExchange_from_root {α : Type} {ranks : Nat} (h : IntHash α) (rank : Nat)
    (hpos : 0 < ranks) :
    hashExchange ranks (fun src => if src = 0 then h else .empty) rank =
      ((h.get rank).map (0, ·)).toList := by
  obtain ⟨n, rfl⟩ : ∃ n, ranks = n + 1 := ⟨ranks - 1, by omega⟩
  simp only [hashExchange, List.range_succ_eq_map, List.filterMap_cons, List.filterMap_map,
    Function.comp_def, Nat.succ_ne_zero, if_false, if_true, IntHash.get_empty, Option.map_none']
  cases h.get rank <;> simp

/-- With unique keys, the entries of key `k` are the one `get k` finds, if any. -/
theorem filter_key_eq {α : Type} (k : Int) :
    ∀ l : List (Int × α), (l.map Prod.fst).Nodup →
      l.filter (fun e => e.1 = k) = ((l.lookup k).map (k, ·)).toList
  | [], _ => rfl
  | (k', v) :: rest, hnd => by
    rw [List.map_cons, List.nodup_cons] at hnd
    by_cases hk : k' = k
    · subst hk
      have hnone : rest.filter (fun e => e.1 = k') = [] :=
        List.filter_eq_nil_iff.2 fun e he h => hnd.1 (List.mem_map.2 ⟨e, he, by simpa using h⟩)
      simp [List.lookup_cons, hnone]
    · have hne : (k == k') = false := by simpa using Ne.symm hk
      simp [List.filter_cons, hk, List.lookup_cons, hne, filter_key_eq k rest hnd.2]

/-- Collecting, rank by rank over the ranks of a job, what each finds under its own key collects
every entry keyed by a rank of the job exactly once. -/
theorem IntHash.flatMap_range_get {α γ : Type} (h : IntHash α) (g : Nat → α → List γ) :
    ∀ ranks : Nat, List.Perm ((List.range ranks).flatMap fun r => ((h.get r).map (g r)).getD [])
      ((h.entries.filter fun e => 0 ≤ e.1 ∧ e.1 < (ranks : Int)).flatMap fun e => g e.1.toNat e.2)
  | 0 => by
    rw [List.filter_eq_nil_iff.2 fun e _ => by simp only [decide_eq_true_eq]; omega]
    rfl
  | n + 1 => by
    have hsplit := List.filter_append_perm (fun e : Int × α => decide (e.1 < (n : Int)))
      (h.entries.filter fun e => 0 ≤ e.1 ∧ e.1 < ((n + 1 : Nat) : Int))
    rw [List.filter_filter, List.filter_filter] at hsplit
    have hlow : (h.entries.filter fun e =>
        decide (e.1 < (n : Int)) && decide (0 ≤ e.1 ∧ e.1 < ((n + 1 : Nat) : Int))) =
        h.entries.filter fun e => 0 ≤ e.1 ∧ e.1 < (n : Int) :=
      List.filter_congr fun e _ => by rw [← Bool.decide_and]; exact decide_eq_decide.2 (by omega)
    have htop : (h.entries.filter fun e =>
        !decide (e.1 < (n : Int)) && decide (0 ≤ e.1 ∧ e.1 < ((n + 1 : Nat) : Int))) =
        h.entries.filter fun e => e.1 = (n : Int) :=
      List.filter_congr fun e _ => by
        rw [← decide_not, ← Bool.decide_and]; exact decide_eq_decide.2 (by omega)
    rw [hlow, htop, filter_key_eq _ _ h.nodup] at hsplit
    rw [List.range_succ, List.flatMap_append, List.flatMap_singleton]
    refine ((IntHash.flatMap_range_get h g n).append_right _).trans
      (List.Perm.trans ?_ (hsplit.flatMap_right _))
    rw [List.flatMap_append]
    refine List.Perm.append_left _ (List.Perm.of_eq ?_)
    simp only [IntHash.get]
    cases h.entries.lookup (n : Int) <;> simp

/-- On success every rank of the job holds, under `FILE`, the records keyed by its rank, each with
`PATH` set to `dir`. -/
theorem scrFetchSummary_files {ranks : Nat} (hpos : 0 < ranks) (dir : Path) (s : Summary)
    (r : Nat) :
    (scrFetchSummary ranks r dir (some s)).2.files =
      ((s.rank2file.get r).getD []).map fun e => (e.1, { e.2 with path := some dir }) := by
  simp only [scrFetchSummary, hashExchange_from_root _ _ hpos]
  cases s.rank2file.get r <;> rfl

/-- Every rank returns rank 0's status. On success, rank `r` of the job holds the summary's
dataset header, its container catalogue exactly when that is not empty, and under `FILE` the
records keyed `r` in `rank2file/RANK`, each with `PATH` set to `dir` and otherwise unchanged.
Over the whole job, the records delivered, each with its rank, are the records keyed by a rank of
the job, each once. -/
theorem scrFetchSummary_scatter (ranks : Nat) (dir : Path) (read : Option Summary) :
    (∀ r, (scrFetchSummary ranks r dir read).1 = read.isSome) ∧
    ∀ s, read = some s →
      (∀ r < ranks,
        (scrFetchSummary ranks r dir read).2.id = s.id ∧
        (scrFetchSummary ranks r dir read).2.ckpt = s.ckpt ∧
        ((scrFetchSummary ranks r dir read).2.containers = some s.containers ↔
          s.containers.entries ≠ []) ∧
        ((scrFetchSummary ranks r dir read).2.containers = none ↔ s.containers.entries = []) ∧
        (scrFetchSummary ranks r dir read).2.files =
          ((s.rank2file.get r).getD []).map fun e => (e.1, { e.2 with path := some dir })) ∧
      List.Perm
        ((List.range ranks).flatMap fun r => (scrFetchSummary ranks r dir read).2.files.map (r, ·))
        ((s.rank2file.entries.filter fun e => 0 ≤ e.1 ∧ e.1 < (ranks : Int)).flatMap
          fun e => e.2.map fun f => (e.1.toNat, f.1, { f.2 with path := some dir })) := by
  refine ⟨fun r => by cases read <;> rfl, fun s hs => ?_⟩
  subst hs
  refine ⟨fun r hr => ⟨rfl, rfl, ?_, ?_, scrFetchSummary_files (Nat.zero_lt_of_lt hr) dir s r⟩, ?_⟩
  · cases h : s.containers.entries <;> simp [scrFetchSummary, h]
  · cases h : s.containers.entries <;> simp [scrFetchSummary, h]
  · refine List.Perm.trans (List.Perm.of_eq (List.flatMap_congr fun r hr => ?_))
      (s.rank2file.flatMap_range_get (fun r v => v.map fun f => (r, f.1, { f.2 with path := some dir })) ranks)
    rw [scrFetchSummary_files (Nat.zero_lt_of_lt (List.mem_range.1 hr))]
    cases s.rank2file.get r <;> simp

/-- Two ranks, one file each and no containers: rank 1 holds `b` alone, with `PATH` set, and no
catalogue. -/
theorem scrFetchSummary_scatter_two_ranks :
    let ra : FileRecord := ⟨false, some 1, none, none, none, none⟩
    let rb : FileRecord := ⟨false, some 2, none, none, none, none⟩
    let s : Summary := ⟨some 7, some 7, .empty, ⟨[(0, [(["a"], ra)]), (1, [(["b"], rb)])], by decide⟩⟩
    (scrFetchSummary 2 1 ["pfs"] (some s)).2.files = [(["b"], { rb with path := some ["pfs"] })] ∧
      (scrFetchSummary 2 1 ["pfs"] (some s)).2.containers = none := by
  intro ra rb s
  obtain ⟨⟨-, -, -, hc, hf⟩, -⟩ := ((scrFetchSummary_scatter 2 ["pfs"] (some s)).2 s rfl).imp_left
    fun h => h 1 (by decide)
  exact ⟨hf, hc.2 rfl⟩

/-- A job of one rank whose summary keys its only record by rank `1`: the read succeeds, and the
record reaches no rank. -/
theorem scrFetchSummary_drops_key_past_ranks :
    let rb : FileRecord := ⟨false, some 2, none, none, none, none⟩
    let s : Summary := ⟨some 7, some 7, .empty, ⟨[(1, [(["b"], rb)])], by decide⟩⟩
    (scrFetchSummary 1 0 ["pfs"] (some s)).1 = true ∧
      ∀ r < 1, (scrFetchSummary 1 r ["pfs"] (some s)).2.files = [] := by
  refine ⟨rfl, fun r hr => ?_⟩
  obtain rfl := Nat.lt_one_iff.1 hr
  rfl

end ScrFetch
