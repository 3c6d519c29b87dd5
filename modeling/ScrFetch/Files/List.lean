import ScrFetch.Container.Reader

/-!
# `scr_fetch_files_list`: one rank's files into the cache

A rank's part of the summary names its files. For each one that is not marked `NOFETCH`,
`scrFetchFilesList` (lines 330–458) records `<dir>/<basename>` in the filemap and writes the
filemap, then builds the file's meta data with `complete = 1` and fetches the file: from its
segments when the dataset has containers (`scrFetchFileFromContainers`), otherwise from
`<PATH>/<basename>` (`scrFetchFile`, lines 37–89, through `scr_copy_to`). A failed fetch sets
`complete = 0`; either way the meta data goes into the filemap. A file without a `SIZE` ends the
loop. Last, the number of files the rank expects goes into the filemap, which is written again.

Mirroring notes vs the C source:
- A file's hash is `FileRecord`, with the keys the loop reads: whether `NOFETCH` is present,
  `SIZE`, `COMPLETE`, `CRC`, `SEGMENT` and `PATH`. `COMPLETE` is read (lines 396–401) into a
  variable nothing uses: line 410 sets the meta complete whatever it holds.
- The return code of `scr_dataset_get_id` is not checked (line 343): a list without an id leaves
  `id` undefined, and the model does not return (`IoM.stop`).
- `scr_my_rank_world` and `scr_ranks_world` are `rank` and `ranks`; `scr_filemap_write` of
  `scr_map_file` is the durable effect `mapWrite` of the filemap written.
- `scr_meta_set_filename` keeps the base name of the path it is given (modelled from the
  spec: the meta's file name is what `scr_fetch_file` appends to `PATH`).
- `scr_build_path` cannot fail on component lists: the `SCR_MAX_FILENAME` limit is not modelled.
-/

namespace ScrFetch

/-- A file's hash in the rank's file list: the keys lines 362–425 read. -/
structure FileRecord where
  noFetch : Bool
  size : Option Nat
  /-- `COMPLETE`, absent meaning complete (spec §3). -/
  complete : Option Int
  crc : Option UInt32
  segments : Option (IntHash Segment)
  path : Option Path

/-- A rank's file list (spec §4.3): the dataset's id and checkpoint id, the container catalogue,
and the files by their names in the summary. -/
structure FileList where
  id : Option Int
  ckpt : Option Int
  containers : Option (IntHash ContainerInfo)
  files : List (Path × FileRecord)

/-- Modelled from the spec: `scr_copy_to(src, dst_dir, buf_size, dst, crc)` (§4.1). One call
copies `src` to `dst_dir/basename(src)` with the CRC-32 of the bytes written; or it reports an
error, having created the destination with the first `n` bytes of `src` in it (`short n`), or
without creating it (`fail`, or no `src`). Its descriptors and buffer are released on every
path (§5), so they do not appear. -/
def scrCopyTo (src dstDir : Path) : IoM (Bool × Path × UInt32) := fun io =>
  let dst := buildPath dstDir (basename src)
  match io.orc io.tick, io.files src with
  | .ok, some data =>
    (some (true, dst, crc32 0 data), { io.tock with
      files := Function.update io.files dst (some data)
      trace := io.trace ++ [.create dst] })
  | .short n, some data =>
    (some (false, dst, crc32 0 (data.take n)), { io.tock with
      files := Function.update io.files dst (some (data.take n))
      trace := io.trace ++ [.create dst] })
  | _, _ => (some (false, dst, crc32 0 []), io.tock)

/-- Lines 37–89: copy `meta`'s file from `srcDir` into `dstDir`; whether it succeeded, and the
name `scr_copy_to` gave the copy. -/
def scrFetchFile (cfg : Config) (srcDir : Path) (meta : Meta) (dstDir : Path) :
    IoM (Bool × Path) := do
  let filename := buildPath srcDir meta.filename
  let (rc, newfile, crc) ← scrCopyTo filename dstDir
  -- lines 70–79: a CRC in the meta data must match the one computed
  match meta.crc32 with
  | some metaCrc => pure (rc && !(cfg.crcOnFlush && crc != metaCrc), newfile)
  | none => pure (rc, newfile)

/-- Lines 403–418: the meta data of a file fetched as `newfile`, optimistically complete. -/
def fileMeta (ranks : Nat) (newfile : Path) (rec : FileRecord) (filesize : Nat) : Meta where
  filename := basename newfile
  filetype := scrMetaFileFull
  filesize := filesize
  complete := 1
  ranks := ranks
  crc32 := rec.crc

/-- Lines 421–445: fetch one file as `newfile`, from its segments when the dataset has
containers, otherwise from its `PATH`; whether it succeeded, and the name `set_meta` records. -/
def fetchOne (cfg : Config) (fuel : Nat) (dir : Path) (containers : Option (IntHash ContainerInfo))
    (newfile : Path) (meta : Meta) (rec : FileRecord) : IoM (Bool × Path) :=
  match containers with
  | some _ => do
    let ok ← scrFetchFileFromContainers cfg fuel newfile meta rec.segments containers
    pure (ok, newfile)
  | none =>
    match rec.path with
    | some fromDir => scrFetchFile cfg fromDir meta dir
    | none => pure (false, newfile)

/-- Lines 349–434: the loop over the files, with the result so far, the number of files to
fetch, and the filemap. -/
def fetchFilesLoop (cfg : Config) (fuel rank ranks : Nat) (id : Int)
    (containers : Option (IntHash ContainerInfo)) (dir : Path) :
    List (Path × FileRecord) → Bool → Nat → Filemap → IoM (Bool × Nat × Filemap)
  | [], rc, n, map => pure (rc, n, map)
  | (file, rec) :: rest, rc, n, map =>
    if rec.noFetch then fetchFilesLoop cfg fuel rank ranks id containers dir rest rc n map
    else do
      let newfile := buildPath dir (basename file)
      -- lines 372–375: record the file, and write the filemap, before creating the file
      let map := map.addFile id rank newfile
      Io.filemapWrite map
      match rec.size with
      | none => pure (false, n + 1, map)
      | some filesize =>
        let meta := fileMeta ranks newfile rec filesize
        let (ok, newfile) ← fetchOne cfg fuel dir containers newfile meta rec
        let meta := if ok then meta else { meta with complete := 0 }
        fetchFilesLoop cfg fuel rank ranks id containers dir rest (rc && ok) (n + 1)
          (map.setMeta id rank newfile meta)

/-- Lines 330–458: fetch the rank's files into `dir`, recording them in the filemap. -/
def scrFetchFilesList (cfg : Config) (fuel rank ranks : Nat) (fl : FileList) (dir : Path)
    (map : Filemap) : IoM (Bool × Filemap) := do
  let some id := fl.id | IoM.stop
  let (rc, n, map) ← fetchFilesLoop cfg fuel rank ranks id fl.containers dir fl.files true 0 map
  let map := map.setExpected id rank n
  Io.filemapWrite map
  pure (rc, map)

/-! ### What the loop leaves unread -/

/-- The loop never reads `COMPLETE`: a list whose records say anything else there is fetched and
recorded in exactly the same way. -/
theorem fetchFilesLoop_complete_irrelevant (cfg : Config) (fuel rank ranks : Nat) (id : Int)
    (containers : Option (IntHash ContainerInfo)) (dir : Path) (c : Path → Option Int) :
    ∀ (files : List (Path × FileRecord)) rc n map,
      fetchFilesLoop cfg fuel rank ranks id containers dir
        (files.map fun e => (e.1, { e.2 with complete := c e.1 })) rc n map =
      fetchFilesLoop cfg fuel rank ranks id containers dir files rc n map
  | [], _, _, _ => rfl
  | (f, rec) :: rest, rc, n, map => by
    have ih := fetchFilesLoop_complete_irrelevant cfg fuel rank ranks id containers dir c rest
    simp only [List.map_cons, fetchFilesLoop, ih]
    rfl

/-- A record whose `COMPLETE` is `0`, fetched from `pfs/a`, is recorded with `complete = 1`. -/
theorem scrFetchFilesList_incomplete_recorded_complete :
    let io : Io := ⟨fun p => if p = ["pfs", "a"] then some [1, 2, 3] else none, fun _ => none, 3, 0,
      fun _ => .ok, 0, []⟩
    let r : FileRecord := ⟨false, some 3, some 0, none, none, some ["pfs"]⟩
    let fl : FileList := ⟨some 7, some 7, none, [(["a"], r)]⟩
    ∃ map' io' m, scrFetchFilesList ⟨false, 2⟩ 0 0 1 fl ["cache"] Filemap.empty io =
        (some (true, map'), io') ∧ r.complete = some 0 ∧
      map'.getMeta 7 0 ["cache", "a"] = some m ∧ m.complete = 1 :=
  ⟨_, _, _, rfl, rfl, rfl, rfl⟩

/-- A record without `SIZE` ends the loop (line 383): the record after it, whose source `pfs/b`
is there to copy, is neither recorded nor fetched, and the rank expects one file of two. -/
theorem scrFetchFilesList_stops_at_missing_size :
    let io : Io := ⟨fun p => if p = ["pfs", "b"] then some [1, 2, 3] else none, fun _ => none, 3, 0,
      fun _ => .ok, 0, []⟩
    let a : FileRecord := ⟨false, none, none, none, none, some ["pfs"]⟩
    let b : FileRecord := ⟨false, some 3, none, none, none, some ["pfs"]⟩
    let fl : FileList := ⟨some 7, some 7, none, [(["a"], a), (["b"], b)]⟩
    ∃ map' io', scrFetchFilesList ⟨false, 2⟩ 0 0 1 fl ["cache"] Filemap.empty io =
        (some (false, map'), io') ∧
      map'.paths 7 0 = [["cache", "a"]] ∧ (map' 7 0).expected = some 1 ∧
      io'.files ["cache", "b"] = none :=
  ⟨_, _, rfl, rfl, rfl, rfl⟩

end ScrFetch
