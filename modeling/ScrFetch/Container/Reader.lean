import Mathlib.Data.List.Sort
import ScrFetch.Io.Posix

/-!
# `scr_fetch_file_from_containers`

A file of a container-mode dataset is stored as segments: `SEGMENT/<key>` gives a `LENGTH`
and a `CONTAINER` with an `ID` and an `OFFSET`; the catalogue `CONTAINER/<id>` gives the
container's `NAME` and `SIZE`. `scrFetchFileFromContainers` (lines 139–326) opens the
destination with `O_TRUNC`, sorts the segments by integer key (line 197), and for each one
opens its container, seeks to `OFFSET`, and copies `LENGTH` bytes through the transfer buffer
(`copyChunks`, lines 247–293), folding them into the rolling CRC; at the end it closes the
destination, frees the buffer and checks the CRC against the meta data.

Mirroring notes vs the C source:
- Hash values are typed: a key that is absent or does not parse is `none`. `scr_hash_sort_int`
  is `IntHash.sorted`, an insertion sort on the unique integer keys.
- `nread` and `nwrite` are C `int`s holding `ssize_t` results: `toInt32` wraps them, and the
  comparison `nread < count` converts `nread` to `unsigned long` (`toULong`).
- The chunk loop spends one unit of `fuel` per pass; running out of fuel stops the run
  (`IoM.stop`): a call that does not return, in the state its effects so far left. With `scr_file_buf_size = 0` and a non-empty segment the loop reads
  zero bytes forever, and no fuel is enough.
- `break` in the chunk loop leaves only the `while`: the container is still closed and the
  next segment is still read. `break` in the segment loop (lookup, open or seek failed)
  leaves the `for`, and after a failed `lseek` the container's descriptor stays open.
- `posix_fadvise` has no effect on the outcome and is left out; the `NULL` checks of `meta`,
  `segments` and `containers` are the `none` cases of the typed arguments.
-/

namespace ScrFetch

/-- The process-wide settings the fetch reads (spec §9: one immutable configuration). -/
structure Config where
  crcOnFlush : Bool
  fileBufSize : Nat

/-- A hash with integer keys, its entries in insertion order; keys are unique. -/
structure IntHash (α : Type) where
  entries : List (Int × α)
  nodup : (entries.map Prod.fst).Nodup

/-- `scr_hash_getf(h, "%d", k)`. -/
def IntHash.get {α : Type} (h : IntHash α) (k : Int) : Option α := h.entries.lookup k

/-- `scr_hash_sort_int(h, SCR_HASH_SORT_ASCENDING)`, then the walk from
`scr_hash_elem_first`: the values in ascending key order. -/
def IntHash.sorted {α : Type} (h : IntHash α) : List α :=
  (h.entries.insertionSort fun a b => a.1 ≤ b.1).map Prod.snd

/-- A `SEGMENT` entry: `LENGTH`, and the `CONTAINER`'s `ID` and `OFFSET`. -/
structure Segment where
  length : Option Nat
  id : Option Int
  offset : Option Nat

/-- A `CONTAINER` catalogue entry: `NAME` and `SIZE`. -/
structure ContainerInfo where
  name : Option Path
  size : Option Nat

/-- Lines 93–137: the container's name and size, the offset into it and the length. -/
def scrContainerGetNameSizeOffsetLength (seg : Segment) (containers : IntHash ContainerInfo) :
    Option (Path × Nat × Nat × Nat) := do
  let length ← seg.length
  let id ← seg.id
  let offset ← seg.offset
  let info ← containers.get id
  let name ← info.name
  let size ← info.size
  pure (name, size, offset, length)

/-- A C conversion to `int`: two's complement wrap-around. -/
def toInt32 (n : Int) : Int := Int.bmod n (2 ^ 32)

/-- A C conversion of an `int` to `unsigned long`. -/
def toULong (n : Int) : Nat := (n % 2 ^ 64).toNat

/-- Lines 262–264: `if (scr_crc_on_flush) crc = crc32(crc, buf, nread)`. -/
def Config.foldCrc (cfg : Config) (crc : UInt32) (buf : Bytes) : UInt32 :=
  if cfg.crcOnFlush then crc32 crc buf else crc

/-- Lines 252–291: one pass of the chunk loop, reading at most `scr_file_buf_size` bytes of
the `remaining` ones; `some remaining` to go on, `none` at a `break`. -/
def copyChunk (cfg : Config) (fdSrc fdCon : Int) (remaining : Nat) (crc : UInt32) :
    IoM (Option Nat × UInt32) := do
  let count := if remaining > cfg.fileBufSize then cfg.fileBufSize else remaining
  let (r, bytes) ← Io.readAttempt fdCon count
  let nread := toInt32 r
  -- lines 260–278: write what was read
  let (ok, crc, remaining) ← if 0 < nread then do
      let buf := bytes.take nread.toNat
      let crc := cfg.foldCrc crc buf
      let nwrite ← Io.writeAttempt fdSrc buf
      pure (toInt32 nwrite == nread, crc, remaining - nread.toNat)
    else pure (true, crc, remaining)
  -- lines 270–291: a short write, a short read or a read error ends the loop
  if !ok || decide (toULong nread < count) || decide (nread < 0) then pure (none, crc)
  else pure (some remaining, crc)

/-- Lines 248–293: copy `remaining` bytes from `fdCon` to `fdSrc`; the loop's `rc` and rolling
`crc` when it ends. -/
def copyChunks (cfg : Config) (fdSrc fdCon : Int) :
    Nat → Nat → Bool → UInt32 → IoM (Bool × UInt32)
  | 0, _, _, _ => IoM.stop
  | fuel + 1, remaining, rc, crc =>
    if remaining = 0 then pure (rc, crc) else do
    let (next, crc) ← copyChunk cfg fdSrc fdCon remaining crc
    match next with
    | none => pure (false, crc)
    | some remaining => copyChunks cfg fdSrc fdCon fuel remaining rc crc

/-- Lines 196–299: every segment in order, each from its own container. -/
def readSegments (cfg : Config) (fuel : Nat) (fdSrc : Int) (containers : IntHash ContainerInfo) :
    List Segment → Bool → UInt32 → IoM (Bool × UInt32)
  | [], rc, crc => pure (rc, crc)
  | seg :: rest, rc, crc =>
    match scrContainerGetNameSizeOffsetLength seg containers with
    | none => pure (false, crc)
    | some (name, _, offset, length) => do
      let fdCon ← Io.openRead name
      if fdCon < 0 then return (false, crc)
      let sought ← Io.lseek fdCon offset
      if !sought then return (false, crc)
      let (rc, crc) ← copyChunks cfg fdSrc fdCon fuel length rc crc
      let closed ← Io.close fdCon
      readSegments cfg fuel fdSrc containers rest (rc && closed) crc

/-- Lines 141–326: fetch `file` from its segments; `true` is `SCR_SUCCESS`. -/
def scrFetchFileFromContainers (cfg : Config) (fuel : Nat) (file : Path) (meta : Meta)
    (segments : Option (IntHash Segment)) (containers : Option (IntHash ContainerInfo)) :
    IoM Bool := do
  if file = [] then return false
  match segments, containers with
  | some segments, some containers =>
    let fdSrc ← Io.openTrunc file
    if fdSrc < 0 then return false
    let allocated ← Io.malloc
    if !allocated then
      let _ ← Io.close fdSrc
      return false
    let (rc, crc) ← readSegments cfg fuel fdSrc containers segments.sorted true (crc32 0 [])
    let closed ← Io.close fdSrc
    Io.free
    let rc := rc && closed
    if rc && cfg.crcOnFlush then
      if let some crc2 := meta.crc32 then
        if crc ≠ crc2 then return false
    return rc
  | _, _ => return false

/-- A segment whose `OFFSET` is `2^63`, a negative `off_t`: `lseek` refuses it, the segment loop
breaks before `scr_close` of the container, and the call returns `SCR_FAILURE` with the
container still open at descriptor 4, while the destination's descriptor 3 is closed and the
buffer freed. -/
theorem scrFetchFileFromContainers_seek_refused_leaks :
    let io : Io := ⟨fun p => if p = ["box"] then some [0, 1, 2, 3, 4, 5, 6, 7] else none,
      fun _ => none, 3, 0, fun _ => .ok, 0, []⟩
    let segs : IntHash Segment := ⟨[(0, ⟨some 2, some 7, some (2 ^ 63)⟩)], by decide⟩
    let cons : IntHash ContainerInfo := ⟨[(7, ⟨some ["box"], some 8⟩)], by decide⟩
    let r := scrFetchFileFromContainers ⟨true, 2⟩ 10 ["x"] ⟨"x", "FULL", 2, 1, 1, none⟩ (some segs)
      (some cons) io
    r.1 = some false ∧ r.2.fds 3 = none ∧ r.2.fds 4 = some ⟨["box"], 0⟩ ∧ r.2.bufs = 0 := by
  decide

end ScrFetch
