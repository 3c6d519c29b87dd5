import ScrFetch.Container.Frame
import ScrFetch.Files.List

/-!
# What a complete filemap record guarantees

The filemap is how a later run knows which cache files to trust. This module proves that the
trust is earned:

> `scrFetchFilesList_complete`: whatever the calls return, when `scr_fetch_files_list` returns,
> every path the filemap records for `(id, rank)` with `complete = 1` holds exactly the bytes of
> the source of the file record that recorded it last (the concatenation of its segments, or
> `<PATH>/<basename>`), and the CRC in its meta data, when the CRC is checked, is theirs.

The spec side is `fetched` (the records the loop gets to `set_meta` for), `lastFor` (the one
that did so last for a path) and `SourceBytes` (what a record's source holds: its segments taken
in ascending key order, `IntHash.InKeyOrder`, with no sort in the statement). The proof is the
loop invariant `ListInv`, kept by each file (`fetchOne_spec`) because fetching a file writes
that file alone (`scrFetchFileFromContainers_confined`, `scrCopyTo_spec`). It assumes what the
caller provides: the filemap has nothing for `(id, rank)` yet (`scr_fetch_files` has just run
`scr_cache_delete`), and no source lies in the cache directory.

The second assumption cannot be dropped: when a source is a cache file, an earlier file of the
list can overwrite it before a later file is read from it, and the later file is recorded
complete holding bytes its source did not hold when the call began
(`scrFetchFilesList_source_in_cache_dir`).
-/

namespace ScrFetch

/-! ## The spec side -/

/-- The file records the loop gets to `set_meta` for: those before the first one without a
`SIZE`, less the `NOFETCH` ones. -/
def fetched : List (Path × FileRecord) → List (Path × FileRecord)
  | [] => []
  | (f, r) :: rest =>
    if r.noFetch then fetched rest
    else match r.size with
      | some _ => (f, r) :: fetched rest
      | none => []

/-- The record of `l` that `set_meta` recorded last for the cache path `p`. -/
def lastFor (dir : Path) (l : List (Path × FileRecord)) (p : Path) :
    Option (Path × FileRecord) :=
  (l.filter fun e => buildPath dir (basename e.1) = p).getLast?

/-- `bytes` are what the source of record `rec`, fetched under the name `name`, holds in
`files`: in container mode the file its segments describe, taken in ascending key order, and
`<PATH>/<name>` otherwise. -/
def SourceBytes (files : Path → Option Bytes) (containers : Option (IntHash ContainerInfo))
    (name : String) (rec : FileRecord) (bytes : Bytes) : Prop :=
  match containers with
  | some cons => ∃ segs vs, rec.segments = some segs ∧ segs.InKeyOrder vs ∧
      segmentsBytes files cons vs = some bytes
  | none => ∃ d, rec.path = some d ∧ files (buildPath d name) = some bytes

/-- The file list reads nothing in `dir`: no container lies in it and no file's `PATH` is it. -/
structure FileList.ReadsOutside (fl : FileList) (dir : Path) : Prop where
  containers : ∀ cons, fl.containers = some cons → ∀ n, cons.NotContainer (buildPath dir n)
  paths : ∀ e ∈ fl.files, e.2.path ≠ some dir

theorem buildPath_ne {d dir : Path} (h : d ≠ dir) (n m : String) : buildPath d n ≠ buildPath dir m := by
  intro heq
  exact h (List.append_inj_left' heq rfl)

theorem lastFor_append_self {dir p : Path} {l : List (Path × FileRecord)} {e : Path × FileRecord}
    (he : buildPath dir (basename e.1) = p) : lastFor dir (l ++ [e]) p = some e := by
  simp [lastFor, List.filter_append, he]

theorem lastFor_append_other {dir p : Path} {l : List (Path × FileRecord)} {e : Path × FileRecord}
    (he : buildPath dir (basename e.1) ≠ p) : lastFor dir (l ++ [e]) p = lastFor dir l p := by
  simp [lastFor, List.filter_append, he]

/-- The segments read only containers, none of which is in `dir`. -/
theorem segmentsBytes_congr {files files' : Path → Option Bytes} {cons : IntHash ContainerInfo}
    {dir : Path} (hnc : ∀ n, cons.NotContainer (buildPath dir n))
    (hf : ∀ q, (∀ n, q ≠ buildPath dir n) → files q = files' q) (segs : List Segment) :
    segmentsBytes files cons segs = segmentsBytes files' cons segs := by
  induction segs with
  | nil => rfl
  | cons seg rest ih =>
    have : segmentBytes files cons seg = segmentBytes files' cons seg := by
      unfold segmentBytes
      rcases hs : scrContainerGetNameSizeOffsetLength seg cons with _ | ⟨name, _, _, _⟩
      · rfl
      · simp only [hf name fun n => (hnc n).name_ne hs]
    simp only [segmentsBytes, this, ih]

/-- A record's source lies outside `dir`, so writing in `dir` does not change its bytes. -/
theorem sourceBytes_congr {files files' : Path → Option Bytes} {fl : FileList} {dir : Path}
    (hout : fl.ReadsOutside dir) {e : Path × FileRecord} (he : e ∈ fl.files)
    (hf : ∀ q, (∀ n, q ≠ buildPath dir n) → files q = files' q) (name : String) (bytes : Bytes) :
    SourceBytes files fl.containers name e.2 bytes ↔
      SourceBytes files' fl.containers name e.2 bytes := by
  unfold SourceBytes
  cases hc : fl.containers with
  | some cons =>
    simp only [segmentsBytes_congr (hout.containers cons hc) hf]
  | none =>
    cases hp : e.2.path with
    | none => simp
    | some d =>
      have hd : d ≠ dir := fun h => hout.paths e he (h ▸ hp)
      simp only [Option.some.injEq, exists_eq_left', hf _ (buildPath_ne hd name)]

/-! ## Fetching one file -/

/-- `scr_copy_to` returns, whatever the calls it makes return. -/
theorem scrCopyTo_returns (src dstDir : Path) (io : Io) :
    ∃ r io', scrCopyTo src dstDir io = (some r, io') := by
  unfold scrCopyTo
  split <;> exact ⟨_, _, rfl⟩

/-- `scr_copy_to` writes its destination alone, and a copy that succeeds is the source. -/
theorem scrCopyTo_spec {src dstDir dst : Path} {rc : Bool} {crc : UInt32} {io io' : Io}
    (h : scrCopyTo src dstDir io = (some (rc, dst, crc), io')) :
    dst = buildPath dstDir (basename src) ∧ io.Confined dst io' ∧
      (rc = true → ∃ data, io.files src = some data ∧ io'.files dst = some data ∧
        crc = crc32 0 data) := by
  unfold scrCopyTo at h
  split at h <;> simp only [Prod.mk.injEq, Option.some.injEq] at h <;>
    obtain ⟨⟨rfl, rfl, rfl⟩, rfl⟩ := h
  · exact ⟨rfl, ⟨fun q hq => by simp [Function.update_noteq hq], _, rfl, by simp⟩,
      fun _ => ⟨_, ‹_›, by simp, rfl⟩⟩
  · exact ⟨rfl, ⟨fun q hq => by simp [Function.update_noteq hq], _, rfl, by simp⟩,
      fun h => by cases h⟩
  · exact ⟨rfl, .of_eq rfl rfl, fun h => by cases h⟩

/-- `scr_fetch_file` returns, whatever the calls it makes return. -/
theorem scrFetchFile_returns (cfg : Config) (srcDir : Path) (meta : Meta) (dstDir : Path)
    (io : Io) : ∃ r io', scrFetchFile cfg srcDir meta dstDir io = (some r, io') := by
  obtain ⟨_, io₁, h⟩ := scrCopyTo_returns (buildPath srcDir meta.filename) dstDir io
  unfold scrFetchFile
  rw [bind_apply_of_eq h]
  cases meta.crc32 <;> exact ⟨_, _, rfl⟩

/-- `scr_fetch_file` copies `<srcDir>/<filename>` to `<dstDir>/<filename>` and writes nothing
else; when it succeeds the copy holds the source's bytes, whose CRC is the meta's when checked. -/
theorem scrFetchFile_spec {cfg : Config} {srcDir dstDir nf : Path} {meta : Meta} {ok : Bool}
    {io io' : Io} (h : scrFetchFile cfg srcDir meta dstDir io = (some (ok, nf), io')) :
    nf = buildPath dstDir meta.filename ∧ io.Confined nf io' ∧
      (ok = true → ∃ data, io.files (buildPath srcDir meta.filename) = some data ∧
        io'.files nf = some data ∧
        (cfg.crcOnFlush = true → ∀ c, meta.crc32 = some c → crc32 0 data = c)) := by
  obtain ⟨⟨rc, dst, crc⟩, io₁, hcp, h⟩ := bind_eq_some.1 h
  obtain ⟨rfl, hconf, hdata⟩ := scrCopyTo_spec hcp
  cases hm : meta.crc32 with
  | none =>
    simp only [hm, pure_apply, Prod.mk.injEq, Option.some.injEq] at h
    obtain ⟨⟨rfl, rfl⟩, rfl⟩ := h
    refine ⟨by simp, hconf, fun hok => ?_⟩
    obtain ⟨data, hs, hd, -⟩ := hdata hok
    exact ⟨data, by simpa using hs, hd, fun _ c hc => by cases hc⟩
  | some mc =>
    simp only [hm, pure_apply, Prod.mk.injEq, Option.some.injEq] at h
    obtain ⟨⟨rfl, rfl⟩, rfl⟩ := h
    refine ⟨by simp, hconf, fun hok => ?_⟩
    simp only [Bool.and_eq_true, Bool.not_eq_true', Bool.and_eq_false_iff, bne_eq_false_iff_eq]
      at hok
    obtain ⟨data, hs, hd, rfl⟩ := hdata hok.1
    refine ⟨data, by simpa using hs, hd, fun hon c hc => ?_⟩
    cases hc
    simpa [hon] using hok.2

/-- Fetching one file as `<dir>/<n>` writes that file alone, whether it returns or stops; when
it returns, it names that file, and a fetch that succeeds, from sources none of which is that
file, leaves in it the bytes of the record's source, whose CRC is the record's when checked. -/
theorem fetchOne_spec {cfg : Config} {fuel ranks filesize : Nat} {dir : Path}
    {containers : Option (IntHash ContainerInfo)} {n : String} {rec : FileRecord}
    {x : Option (Bool × Path)} {io io' : Io}
    (h : fetchOne cfg fuel dir containers (buildPath dir n)
      (fileMeta ranks (buildPath dir n) rec filesize) rec io = (x, io')) :
    io.Confined (buildPath dir n) io' ∧ ∀ ok nf, x = some (ok, nf) → nf = buildPath dir n ∧
      ((∀ cons, containers = some cons → cons.NotContainer (buildPath dir n)) → ok = true →
        ∃ bytes, SourceBytes io.files containers n rec bytes ∧ io'.files nf = some bytes ∧
          (cfg.crcOnFlush = true → ∀ c, rec.crc = some c → crc32 0 bytes = c)) := by
  unfold fetchOne at h
  cases hc : containers with
  | some cons =>
    rw [hc] at h
    rcases bind_eq.1 h with ⟨r, io₁, hr, h⟩ | ⟨rfl, hr⟩
    · obtain ⟨rfl, rfl⟩ := Prod.mk.inj h
      refine ⟨scrFetchFileFromContainers_confined hr, ?_⟩
      rintro _ _ ⟨⟩
      refine ⟨rfl, fun hcons hok => ?_⟩
      subst hok
      cases hs : rec.segments with
      | none => simp [hs, scrFetchFileFromContainers] at hr
      | some segs =>
        rw [hs] at hr
        obtain ⟨bytes, hb, hf, hcrc⟩ := scrFetchFileFromContainers_true (hcons cons rfl) hr
        exact ⟨bytes, ⟨segs, _, hs, IntHash.inKeyOrder_iff.2 rfl, hb⟩, hf, hcrc⟩
    · exact ⟨scrFetchFileFromContainers_confined hr, fun _ _ h => by cases h⟩
  | none =>
    rw [hc] at h
    cases hp : rec.path with
    | none =>
      rw [hp] at h
      obtain ⟨rfl, rfl⟩ := Prod.mk.inj h
      exact ⟨.of_eq rfl rfl, by rintro _ _ ⟨⟩; exact ⟨rfl, fun _ h => by cases h⟩⟩
    | some fromDir =>
      simp only [hp] at h
      have hnf : buildPath dir (fileMeta ranks (buildPath dir n) rec filesize).filename =
          buildPath dir n := by simp [fileMeta]
      obtain ⟨⟨ok, nf⟩, io₁, hret⟩ := scrFetchFile_returns cfg fromDir
        (fileMeta ranks (buildPath dir n) rec filesize) dir io
      rw [hret] at h
      obtain ⟨rfl, rfl⟩ := Prod.mk.inj h
      obtain ⟨rfl, hconf, hdata⟩ := scrFetchFile_spec hret
      refine ⟨hnf ▸ hconf, ?_⟩
      rintro _ _ ⟨⟩
      refine ⟨hnf, fun _ hok => ?_⟩
      obtain ⟨data, hs, hd, hcrc⟩ := hdata hok
      exact ⟨data, ⟨fromDir, hp, by simpa [fileMeta] using hs⟩, hd, hcrc⟩

/-! ## The loop -/

/-- `p` is recorded with meta `m` by the last record of `done` for it: `m` is the meta built for
that record, and `files` holds at `p` the bytes that record's source holds in `src`, with the
meta's CRC when the CRC is checked. -/
def Recorded (cfg : Config) (ranks : Nat) (src : Path → Option Bytes)
    (containers : Option (IntHash ContainerInfo)) (dir : Path) (done : List (Path × FileRecord))
    (files : Path → Option Bytes) (p : Path) (m : Meta) : Prop :=
  ∃ e filesize bytes, lastFor dir done p = some e ∧ e.2.size = some filesize ∧
    m = fileMeta ranks p e.2 filesize ∧ SourceBytes src containers (basename p) e.2 bytes ∧
    files p = some bytes ∧ (cfg.crcOnFlush = true → ∀ c, m.crc32 = some c → crc32 0 bytes = c)

/-- In plain-file mode, a path recorded by a record with a `PATH` holds what `<PATH>/<name>`
holds in `src`. -/
theorem Recorded.source_eq {cfg : Config} {ranks : Nat} {src files : Path → Option Bytes}
    {dir p d : Path} {done : List (Path × FileRecord)} {m : Meta} {e : Path × FileRecord}
    (hr : Recorded cfg ranks src none dir done files p m) (hl : lastFor dir done p = some e)
    (hd : e.2.path = some d) : src (buildPath d (basename p)) = files p := by
  obtain ⟨e', -, bytes, hl', -, -, ⟨d', hd', hb⟩, hf, -⟩ := hr
  obtain rfl := Option.some.inj (hl.symm.trans hl')
  obtain rfl := Option.some.inj (hd.symm.trans hd')
  rw [hb, hf]

/-- The invariant of `fetchFilesLoop` once the records `done` are through `set_meta`: the
sources are as they were in `io₀`, and every path recorded complete is recorded by the last
record of `done` for it. -/
structure ListInv (cfg : Config) (ranks : Nat) (io₀ : Io) (fl : FileList) (dir : Path) (id : Int)
    (rank : Nat) (done : List (Path × FileRecord)) (io : Io) (map : Filemap) : Prop where
  sources : ∀ q, (∀ n, q ≠ buildPath dir n) → io.files q = io₀.files q
  complete : ∀ p m, map.getMeta id rank p = some m → m.complete = 1 →
    Recorded cfg ranks io₀.files fl.containers dir done io.files p m

section Loop

variable {cfg : Config} {fuel rank ranks : Nat} {io₀ : Io} {fl : FileList} {dir : Path} {id : Int}

/-- Writing the filemap, and changes to it that record no meta, keep the invariant. -/
theorem ListInv.of_frame {done : List (Path × FileRecord)} {io io' : Io} {map map' : Filemap}
    (hi : ListInv cfg ranks io₀ fl dir id rank done io map) (hf : io'.files = io.files)
    (hm : ∀ p, map'.getMeta id rank p = map.getMeta id rank p) :
    ListInv cfg ranks io₀ fl dir id rank done io' map' :=
  ⟨fun q hq => hf ▸ hi.sources q hq, fun p m h hc => hf ▸ hi.complete p m (hm p ▸ h) hc⟩

/-- One file through `fetchOne` and `set_meta` keeps the invariant, with its record appended. -/
theorem ListInv.fetch (hout : fl.ReadsOutside dir) {done : List (Path × FileRecord)} {f : Path}
    {rec : FileRecord} {filesize : Nat} {ok : Bool} {nf : Path} {io io' : Io} {map : Filemap}
    (hi : ListInv cfg ranks io₀ fl dir id rank done io map) (hmem : (f, rec) ∈ fl.files)
    (hs : rec.size = some filesize)
    (h : fetchOne cfg fuel dir fl.containers (buildPath dir (basename f))
      (fileMeta ranks (buildPath dir (basename f)) rec filesize) rec io = (some (ok, nf), io')) :
    ListInv cfg ranks io₀ fl dir id rank (done ++ [(f, rec)]) io'
      (map.setMeta id rank nf (if ok then fileMeta ranks (buildPath dir (basename f)) rec filesize
        else { fileMeta ranks (buildPath dir (basename f)) rec filesize with complete := 0 })) := by
  obtain ⟨hconf, hret⟩ := fetchOne_spec h
  obtain ⟨rfl, hok⟩ := hret ok nf rfl
  refine ⟨fun q hq => (hconf.files q (hq _)).trans (hi.sources q hq), fun p m hm hc => ?_⟩
  rw [Filemap.getMeta_setMeta] at hm
  by_cases hp : p = buildPath dir (basename f)
  · subst hp
    cases ok with
    | false => simp at hm; subst hm; simp [fileMeta] at hc
    | true =>
      simp only [if_true, Option.some.injEq] at hm
      subst hm
      obtain ⟨bytes, hb, hfile, hcrc⟩ := hok (fun cons hc => hout.containers cons hc _) rfl
      refine ⟨(f, rec), filesize, bytes, lastFor_append_self rfl, hs, rfl, ?_, hfile, hcrc⟩
      rw [basename_buildPath]
      exact (sourceBytes_congr hout hmem hi.sources _ _).1 hb
  · rw [if_neg hp] at hm
    obtain ⟨e, fs, bytes, hl, hsz, hm', hb, hfile, hcrc⟩ := hi.complete p m hm hc
    exact ⟨e, fs, bytes, (lastFor_append_other (Ne.symm hp)).trans hl, hsz, hm', hb,
      (hconf.files p hp).trans hfile, hcrc⟩

/-- The loop keeps the invariant, over the records it gets to `set_meta` for. -/
theorem fetchFilesLoop_inv (hout : fl.ReadsOutside dir) :
    ∀ {l : List (Path × FileRecord)} {done : List (Path × FileRecord)} {rc : Bool} {n : Nat}
      {map : Filemap} {io io' : Io} {r : Bool × Nat × Filemap},
    fetchFilesLoop cfg fuel rank ranks id fl.containers dir l rc n map io = (some r, io') →
    (∀ e ∈ l, e ∈ fl.files) → ListInv cfg ranks io₀ fl dir id rank done io map →
    ListInv cfg ranks io₀ fl dir id rank (done ++ fetched l) io' r.2.2
  | [], done, rc, n, map, io, io', r, h, _, hi => by
    simp only [fetchFilesLoop, pure_apply, Prod.mk.injEq, Option.some.injEq] at h
    obtain ⟨rfl, rfl⟩ := h
    simpa [fetched] using hi
  | (f, rec) :: rest, done, rc, n, map, io, io', r, h, hl, hi => by
    have hsub : ∀ e ∈ rest, e ∈ fl.files := fun e he => hl e (List.mem_cons_of_mem _ he)
    unfold fetchFilesLoop at h
    by_cases hnf : rec.noFetch
    · rw [if_pos hnf] at h
      simpa [fetched, hnf] using fetchFilesLoop_inv hout h hsub hi
    simp only [if_neg hnf, filemapWrite_bind] at h
    have hi₁ : ListInv cfg ranks io₀ fl dir id rank done
        { io with trace := io.trace ++ [.mapWrite (map.addFile id rank (buildPath dir (basename f)))] }
        (map.addFile id rank (buildPath dir (basename f))) :=
      hi.of_frame rfl fun p => Filemap.getMeta_addFile _ _ _ _ p
    cases hs : rec.size with
    | none =>
      simp only [hs, pure_apply, Prod.mk.injEq, Option.some.injEq] at h
      obtain ⟨rfl, rfl⟩ := h
      simpa [fetched, hnf, hs] using hi₁
    | some filesize =>
      simp only [hs] at h
      obtain ⟨⟨ok, nf⟩, io₂, hf, h⟩ := bind_eq_some.1 h
      have := fetchFilesLoop_inv hout h hsub (hi₁.fetch hout (hl _ (List.mem_cons_self _ _)) hs hf)
      simpa [fetched, hnf, hs] using this

/-- A filemap with nothing for `(id, rank)` starts the invariant. -/
theorem ListInv.start {io : Io} {map : Filemap} (hempty : (map id rank).files = []) :
    ListInv cfg ranks io fl dir id rank [] io map :=
  ⟨fun _ _ => rfl, fun p m hm _ => by simp [Filemap.getMeta, Entry.getMeta, hempty] at hm⟩

/-- `scr_fetch_files_list` keeps the invariant, over the records it gets to `set_meta` for. -/
theorem scrFetchFilesList_inv {rc : Bool} {map map' : Filemap} {io io' : Io}
    (hid : fl.id = some id) (hout : fl.ReadsOutside dir)
    (hi : ListInv cfg ranks io₀ fl dir id rank [] io map)
    (h : scrFetchFilesList cfg fuel rank ranks fl dir map io = (some (rc, map'), io')) :
    ListInv cfg ranks io₀ fl dir id rank (fetched fl.files) io' map' := by
  simp only [scrFetchFilesList, hid] at h
  obtain ⟨⟨rc₁, n, map₁⟩, io₁, hloop, h⟩ := bind_eq_some.1 h
  simp only [filemapWrite_bind, pure_apply, Option.some.injEq, Prod.mk.injEq] at h
  obtain ⟨⟨-, rfl⟩, rfl⟩ := h
  have hinv := fetchFilesLoop_inv hout hloop (fun e he => he) hi
  exact (List.nil_append _ ▸ hinv).of_frame rfl fun p => Filemap.getMeta_setExpected _ _ _ _ p

end Loop

/-- When `scr_fetch_files_list` returns, whatever its calls returned, every path the filemap
records for `(id, rank)` with `complete = 1` holds the bytes of the source of the file record
that recorded it last, under that record's meta data, with its CRC when the CRC is checked;
given, as `scr_fetch_files` provides, that the filemap records nothing for `(id, rank)` yet and
that no source lies in the cache directory. -/
theorem scrFetchFilesList_complete {cfg : Config} {fuel rank ranks : Nat} {fl : FileList}
    {dir : Path} {map map' : Filemap} {io io' : Io} {rc : Bool} {id : Int}
    (hid : fl.id = some id) (hempty : (map id rank).files = []) (hout : fl.ReadsOutside dir)
    (h : scrFetchFilesList cfg fuel rank ranks fl dir map io = (some (rc, map'), io'))
    (p : Path) (m : Meta) (hm : map'.getMeta id rank p = some m) (hc : m.complete = 1) :
    Recorded cfg ranks io.files fl.containers dir (fetched fl.files) io'.files p m :=
  (scrFetchFilesList_inv hid hout (.start hempty) h).complete p m hm hc

/-- One file copied from `pfs/a`: `cache/a` is recorded complete, holding the bytes of `pfs/a`. -/
theorem scrFetchFilesList_one_file :
    let io : Io := ⟨fun p => if p = ["pfs", "a"] then some [1, 2, 3] else none, fun _ => none, 3, 0,
      fun _ => .ok, 0, []⟩
    let r : FileRecord := ⟨false, some 3, none, none, none, some ["pfs"]⟩
    let fl : FileList := ⟨some 7, some 7, none, [(["a"], r)]⟩
    ∃ map' io', scrFetchFilesList ⟨false, 2⟩ 0 0 1 fl ["cache"] Filemap.empty io =
        (some (true, map'), io') ∧
      Recorded ⟨false, 2⟩ 1 io.files none ["cache"] (fetched fl.files) io'.files ["cache", "a"]
        (fileMeta 1 ["cache", "a"] r 3) := by
  intro io r fl
  exact ⟨_, _, rfl, @scrFetchFilesList_complete ⟨false, 2⟩ 0 0 1 fl ["cache"] Filemap.empty _ io _
    true 7 rfl rfl ⟨fun _ h => (nomatch h), by decide⟩ rfl _ _ (by decide) rfl⟩

/-- A `PATH` that is the cache directory: `p/n` is copied from `pfs/n` into `cache/n`, then `q/n`,
whose `PATH` is `cache`, from `cache/n` onto itself. `cache/n` is recorded complete by `q/n` and
holds `[1, 2]`, the bytes the first copy wrote, while the source of `q/n` held `[9, 9]` when
`scr_fetch_files_list` was called. -/
theorem scrFetchFilesList_source_in_cache_dir :
    let io : Io := ⟨fun p => if p = ["pfs", "n"] then some [1, 2]
      else if p = ["cache", "n"] then some [9, 9] else none, fun _ => none, 3, 0, fun _ => .ok, 0, []⟩
    let q : FileRecord := ⟨false, some 2, none, none, none, some ["cache"]⟩
    let fl : FileList := ⟨some 7, some 7, none,
      [(["p", "n"], ⟨false, some 2, none, none, none, some ["pfs"]⟩), (["q", "n"], q)]⟩
    let r := scrFetchFilesList ⟨false, 4⟩ 0 0 1 fl ["cache"] Filemap.empty io
    r.1.map (fun x => (x.1, x.2.getMeta 7 0 ["cache", "n"])) =
        some (true, some (fileMeta 1 ["cache", "n"] q 2)) ∧
      (fileMeta 1 ["cache", "n"] q 2).complete = 1 ∧ r.2.files ["cache", "n"] = some [1, 2] ∧
      ¬ Recorded ⟨false, 4⟩ 1 io.files fl.containers ["cache"] (fetched fl.files) r.2.files
        ["cache", "n"] (fileMeta 1 ["cache", "n"] q 2) :=
  ⟨by decide, rfl, by decide, fun hr => absurd (hr.source_eq rfl rfl) (by decide)⟩

end ScrFetch
