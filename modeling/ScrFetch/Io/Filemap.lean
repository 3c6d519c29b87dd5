import Mathlib.Data.List.Nodup
import ScrFetch.Io.Basic

/-!
# The filemap

`scr_filemap` is one of the collaborators the spec keeps out of the core (§3, §6): a per-process
record, keyed by `(dataset id, rank)`, of the files a rank holds with their meta data, the
number of files it expects, and the redundancy descriptor. The fetch only calls its interface:
`add_file`, `set_meta`, `set_expected_files`, `set_desc`, `write`, and `CacheManager.delete`
drops a dataset from it. Files are keyed by path, so a second `add_file` of a path changes
nothing; `Entry` carries that as `nodup`.
-/

namespace ScrFetch

/-- `SCR_META_FILE_FULL`, the file type the fetch records (spec §4.3: `filetype=FULL`). -/
def scrMetaFileFull : String := "FULL"

/-- The `scr_meta` fields the fetch sets (lines 404–418). -/
structure Meta where
  filename : String
  filetype : String
  filesize : Nat
  complete : Int
  ranks : Nat
  crc32 : Option UInt32
  deriving DecidableEq, Repr

/-- A redundancy descriptor, by its index among the configured `scr_reddescs`: the fetch
stores it in the filemap, names the cache directory after it and hands it to
`scr_reddesc_apply`. -/
structure Reddesc where
  index : Nat
  deriving DecidableEq, Repr

/-- Modelled from the spec: what the filemap holds for one `(dataset, rank)` (§3): its files
(a file added by `add_file` has no meta yet), the expected file count and the redundancy
descriptor. -/
structure Entry where
  files : List (Path × Option Meta)
  expected : Option Nat
  desc : Option Reddesc
  nodup : (files.map Prod.fst).Nodup

/-- An entry with nothing in it. -/
def Entry.empty : Entry := ⟨[], none, none, List.nodup_nil⟩

/-- Modelled from the spec: `add_file(id, rank, path)` records `path` without meta. -/
def Entry.addFile (e : Entry) (p : Path) : Entry :=
  if h : p ∈ e.files.map Prod.fst then e
  else { e with
    files := e.files ++ [(p, none)]
    nodup := by
      rw [List.map_append, List.nodup_append]
      exact ⟨e.nodup, List.nodup_singleton _, by simpa using h⟩ }

/-- Replacing the meta of `p` keeps every key. -/
theorem map_fst_setMeta (l : List (Path × Option Meta)) (p : Path) (m : Meta) :
    (l.map fun q => if q.1 = p then (p, some m) else q).map Prod.fst = l.map Prod.fst := by
  rw [List.map_map]
  exact List.map_congr_left fun q _ => by by_cases h : q.1 = p <;> simp [h]

/-- Modelled from the spec: `set_meta(id, rank, path, meta)` records `meta` for `path`. -/
def Entry.setMeta (e : Entry) (p : Path) (m : Meta) : Entry :=
  if h : p ∈ e.files.map Prod.fst then
    { e with
      files := e.files.map fun q => if q.1 = p then (p, some m) else q
      nodup := by rw [map_fst_setMeta]; exact e.nodup }
  else { e with
    files := e.files ++ [(p, some m)]
    nodup := by
      rw [List.map_append, List.nodup_append]
      exact ⟨e.nodup, List.nodup_singleton _, by simpa using h⟩ }

/-- The meta recorded for `p`, if `p` is recorded with one. -/
def Entry.getMeta (e : Entry) (p : Path) : Option Meta := (e.files.lookup p).join

theorem lookup_cons_ne {β : Type} {l : List (Path × β)} {q k : Path} {w : β} (hq : q ≠ k) :
    ((k, w) :: l).lookup q = l.lookup q := by
  have hb : (q == k) = false := by simpa using hq
  simp only [List.lookup_cons, hb]

theorem lookup_map_replace (l : List (Path × Option Meta)) (p q : Path) (v : Option Meta) :
    (l.map fun e => if e.1 = p then (p, v) else e).lookup q =
      if q = p ∧ p ∈ l.map Prod.fst then some v else l.lookup q := by
  induction l with
  | nil => simp
  | cons e l ih =>
    obtain ⟨k, w⟩ := e
    by_cases hk : k = p
    · subst hk
      by_cases hq : q = k
      · subst hq; simp
      · simp [lookup_cons_ne hq, hq, ih]
    · by_cases hq : q = k
      · subst hq; simp [hk]
      · simp only [List.map_cons, hk, if_false, lookup_cons_ne hq, ih, List.mem_cons,
          or_iff_right (Ne.symm hk)]

/-- `add_file` records no meta: what is recorded for every path stays as it was. -/
theorem Entry.getMeta_addFile (e : Entry) (p q : Path) : (e.addFile p).getMeta q = e.getMeta q := by
  unfold Entry.addFile Entry.getMeta
  split_ifs with h
  · rfl
  · rw [List.lookup_append]
    cases hl : e.files.lookup q with
    | some x => rfl
    | none =>
      by_cases hq : q = p
      · subst hq; simp
      · simp [lookup_cons_ne hq]

theorem Entry.getMeta_setMeta (e : Entry) (p q : Path) (m : Meta) :
    (e.setMeta p m).getMeta q = if q = p then some m else e.getMeta q := by
  unfold Entry.setMeta Entry.getMeta
  split_ifs with h hq hq
  · simp [lookup_map_replace, hq, h]
  · simp [lookup_map_replace, hq]
  · subst hq
    rw [List.lookup_append]
    have : e.files.lookup q = none := by
      simp only [List.lookup_eq_none_iff, bne_iff_ne, ne_eq]
      exact fun x hx hqx => h (List.mem_map.2 ⟨x, hx, hqx.symm⟩)
    simp [this]
  · rw [List.lookup_append]
    cases hl : e.files.lookup q with
    | some x => rfl
    | none => simp [lookup_cons_ne hq]

theorem Entry.mem_addFile (e : Entry) (p : Path) : p ∈ (e.addFile p).files.map Prod.fst := by
  unfold Entry.addFile
  split_ifs with h
  · exact h
  · simp

/-- Modelled from the spec: a process's filemap, `(dataset_id, rank) → entry` (§3). -/
abbrev Filemap := Int → Nat → Entry

namespace Filemap

/-- The filemap with no entries. -/
def empty : Filemap := fun _ _ => Entry.empty

/-- Change the entry of `(id, rank)` alone. -/
def modify (fm : Filemap) (id : Int) (rank : Nat) (f : Entry → Entry) : Filemap :=
  fun i r => if i = id ∧ r = rank then f (fm i r) else fm i r

/-- `scr_filemap_add_file`. -/
def addFile (fm : Filemap) (id : Int) (rank : Nat) (p : Path) : Filemap :=
  fm.modify id rank (·.addFile p)

/-- `scr_filemap_set_meta`. -/
def setMeta (fm : Filemap) (id : Int) (rank : Nat) (p : Path) (m : Meta) : Filemap :=
  fm.modify id rank (·.setMeta p m)

/-- `scr_filemap_set_expected_files`. -/
def setExpected (fm : Filemap) (id : Int) (rank : Nat) (n : Nat) : Filemap :=
  fm.modify id rank fun e => { e with expected := some n }

/-- `scr_filemap_set_desc`. -/
def setDesc (fm : Filemap) (id : Int) (rank : Nat) (d : Reddesc) : Filemap :=
  fm.modify id rank fun e => { e with desc := some d }

/-- Modelled from the spec: what `CacheManager.delete(map, id)` leaves of the filemap:
dataset `id` is gone, for every rank. -/
def removeDataset (fm : Filemap) (id : Int) : Filemap :=
  fun i r => if i = id then Entry.empty else fm i r

/-- The paths recorded under `(id, rank)`. -/
def paths (fm : Filemap) (id : Int) (rank : Nat) : List Path := (fm id rank).files.map Prod.fst

/-- The meta recorded for `p` under `(id, rank)`. -/
def getMeta (fm : Filemap) (id : Int) (rank : Nat) (p : Path) : Option Meta :=
  (fm id rank).getMeta p

@[simp] theorem modify_self (fm : Filemap) (id : Int) (rank : Nat) (f : Entry → Entry) :
    fm.modify id rank f id rank = f (fm id rank) := by simp [modify]

theorem modify_other {fm : Filemap} {id i : Int} {rank r : Nat} (f : Entry → Entry)
    (h : ¬(i = id ∧ r = rank)) : fm.modify id rank f i r = fm i r := by simp [modify, h]

theorem modify_ne_id {fm : Filemap} {id i : Int} (rank r : Nat) (f : Entry → Entry)
    (h : i ≠ id) : fm.modify id rank f i r = fm i r := modify_other f (by simp [h])

@[simp] theorem getMeta_addFile (fm : Filemap) (id : Int) (rank : Nat) (p q : Path) :
    (fm.addFile id rank p).getMeta id rank q = fm.getMeta id rank q := by
  simp [getMeta, addFile, Entry.getMeta_addFile]

@[simp] theorem getMeta_setMeta (fm : Filemap) (id : Int) (rank : Nat) (p q : Path) (m : Meta) :
    (fm.setMeta id rank p m).getMeta id rank q = if q = p then some m else fm.getMeta id rank q := by
  simp [getMeta, setMeta, Entry.getMeta_setMeta]

@[simp] theorem getMeta_setExpected (fm : Filemap) (id : Int) (rank n : Nat) (q : Path) :
    (fm.setExpected id rank n).getMeta id rank q = fm.getMeta id rank q := by
  simp [getMeta, setExpected, Entry.getMeta]

theorem mem_paths_addFile (fm : Filemap) (id : Int) (rank : Nat) (p : Path) :
    p ∈ (fm.addFile id rank p).paths id rank := by
  simpa [paths, addFile] using Entry.mem_addFile (fm id rank) p

@[simp] theorem setDesc_desc (fm : Filemap) (id : Int) (rank : Nat) (d : Reddesc) :
    (fm.setDesc id rank d id rank).desc = some d := by
  simp [setDesc]

@[simp] theorem removeDataset_self (fm : Filemap) (id : Int) (rank : Nat) :
    fm.removeDataset id id rank = Entry.empty := by
  simp [removeDataset]

/-- `fm'` holds what `fm` holds for every dataset but `id`. -/
def Keeps (id : Int) (fm fm' : Filemap) : Prop := ∀ i, i ≠ id → ∀ r, fm' i r = fm i r

theorem Keeps.refl (id : Int) (fm : Filemap) : Keeps id fm fm := fun _ _ _ => rfl

theorem Keeps.trans {id : Int} {fm₁ fm₂ fm₃ : Filemap} (h₁ : Keeps id fm₁ fm₂)
    (h₂ : Keeps id fm₂ fm₃) : Keeps id fm₁ fm₃ :=
  fun i hi r => (h₂ i hi r).trans (h₁ i hi r)

/-- Every change the fetch makes to `(id, rank)`: `add_file`, `set_meta`, `set_expected_files`
and `set_desc` are all `modify`. -/
theorem keeps_modify (fm : Filemap) (id : Int) (rank : Nat) (f : Entry → Entry) :
    Keeps id fm (fm.modify id rank f) :=
  fun _ hi r => modify_ne_id _ r f hi

theorem keeps_removeDataset (fm : Filemap) (id : Int) : Keeps id fm (fm.removeDataset id) :=
  fun i hi _ => by simp [removeDataset, hi]

end Filemap

end ScrFetch
