import ScrFetch.Container.Copy

/-!
# Reading a file back from its containers

What `scr_fetch_file_from_containers` is for: the destination ends up holding the file its
segments describe. `segmentsBytes` states that file from the segments alone: for each
segment, in the order the code walks them, bytes `[OFFSET, OFFSET + LENGTH)` of its
container, provided the segment resolves in the catalogue, the container exists, `OFFSET` is a
valid `off_t` and a non-empty segment lies inside its container.

> `scrFetchFileFromContainers_true`: whatever the calls return, `SCR_SUCCESS` means the
> segments describe a file, the destination holds exactly that file, and its CRC is the meta
> data's when `scr_crc_on_flush` is set and the meta data has one.

> `scrFetchFileFromContainers_ok`: when every call succeeds, the segments describe a file,
> each chunk fits an `int` and the CRC matches, a call that returns returns `SCR_SUCCESS`.

Both assume that the destination is none of the containers (`IntHash.NotContainer`): it is
opened with `O_TRUNC` before any container is read. A segment of `LENGTH` 0 is read from no
byte of its container, so it describes the empty string wherever its `OFFSET` points.

The order of the walk is stated apart from the sort that produces it: `IntHash.InKeyOrder`
says which lists hold a hash's values with increasing keys, and `IntHash.inKeyOrder_iff` shows
that the walk after `scr_hash_sort_int` is the only one.
-/

namespace ScrFetch

/-! ## The file the segments describe -/

/-- No container of the catalogue is the file being fetched. -/
def IntHash.NotContainer (containers : IntHash ContainerInfo) (file : Path) : Prop :=
  ∀ e ∈ containers.entries, e.2.name ≠ some file

instance (containers : IntHash ContainerInfo) (file : Path) :
    Decidable (containers.NotContainer file) :=
  inferInstanceAs (Decidable (∀ e ∈ containers.entries, e.2.name ≠ some file))

theorem IntHash.mem_of_get {α : Type} {h : IntHash α} {k : Int} {v : α} (hk : h.get k = some v) :
    (k, v) ∈ h.entries := by
  unfold IntHash.get at hk
  generalize h.entries = l at hk ⊢
  induction l with
  | nil => simp at hk
  | cons e es ih =>
    obtain ⟨k', v'⟩ := e
    rw [List.lookup_cons] at hk
    by_cases hkk : k = k'
    · subst hkk
      simp_all
    · have : (k == k') = false := by simp [hkk]
      rw [this] at hk
      exact List.mem_cons_of_mem _ (ih hk)

/-- The segment's container is a catalogue entry, so it is not the destination. -/
theorem IntHash.NotContainer.name_ne {containers : IntHash ContainerInfo} {file name : Path}
    {seg : Segment} {size off len : Nat} (hnc : containers.NotContainer file)
    (hs : scrContainerGetNameSizeOffsetLength seg containers = some (name, size, off, len)) :
    name ≠ file := by
  simp only [scrContainerGetNameSizeOffsetLength, Option.bind_eq_bind, Option.bind_eq_some,
    Option.pure_def, Option.some.injEq, Prod.mk.injEq] at hs
  obtain ⟨_, -, id, -, _, -, info, hget, _, hname, _, -, rfl, -⟩ := hs
  rintro rfl
  exact hnc _ (IntHash.mem_of_get hget) hname

/-- What segment `seg` describes: bytes `[OFFSET, OFFSET + LENGTH)` of its container, if it
resolves, the container exists, `OFFSET` is a valid `off_t` and a non-empty segment lies
inside the container. -/
def segmentBytes (files : Path → Option Bytes) (containers : IntHash ContainerInfo)
    (seg : Segment) : Option Bytes :=
  match scrContainerGetNameSizeOffsetLength seg containers with
  | none => none
  | some (name, _, off, len) =>
    match files name with
    | none => none
    | some data =>
      if off < 2 ^ 63 ∧ (0 < len → off + len ≤ data.length) then some (slice data off len)
      else none

/-- The file the segments describe: their bytes, in order. -/
def segmentsBytes (files : Path → Option Bytes) (containers : IntHash ContainerInfo) :
    List Segment → Option Bytes
  | [] => some []
  | seg :: rest => do
    let b ← segmentBytes files containers seg
    let bs ← segmentsBytes files containers rest
    pure (b ++ bs)

theorem segmentBytes_eq {files : Path → Option Bytes} {containers : IntHash ContainerInfo}
    {seg : Segment} {name : Path} {size off len : Nat} {data : Bytes}
    (hs : scrContainerGetNameSizeOffsetLength seg containers = some (name, size, off, len))
    (hd : files name = some data) (hoff : off < 2 ^ 63) (hlen : (slice data off len).length = len) :
    segmentBytes files containers seg = some (slice data off len) := by
  simp only [length_slice] at hlen
  simp only [segmentBytes, hs, hd]
  rw [if_pos ⟨hoff, fun _ => by omega⟩]

theorem length_of_getNameSizeOffsetLength {containers : IntHash ContainerInfo} {seg : Segment}
    {name : Path} {size off len : Nat}
    (hs : scrContainerGetNameSizeOffsetLength seg containers = some (name, size, off, len)) :
    seg.length = some len := by
  simp only [scrContainerGetNameSizeOffsetLength, Option.bind_eq_bind, Option.bind_eq_some,
    Option.pure_def, Option.some.injEq, Prod.mk.injEq] at hs
  obtain ⟨_, hl, _, -, _, -, _, -, _, -, _, -, -, -, -, rfl⟩ := hs
  exact hl

/-- Writing the destination changes no container. -/
theorem segmentsBytes_update {files : Path → Option Bytes} {containers : IntHash ContainerInfo}
    {file : Path} (x : Option Bytes) (hnc : containers.NotContainer file) (segs : List Segment) :
    segmentsBytes (Function.update files file x) containers segs =
      segmentsBytes files containers segs := by
  induction segs with
  | nil => rfl
  | cons seg rest ih =>
    have : segmentBytes (Function.update files file x) containers seg =
        segmentBytes files containers seg := by
      unfold segmentBytes
      rcases hs : scrContainerGetNameSizeOffsetLength seg containers with _ | ⟨name, _, _, _⟩
      · rfl
      · simp only [Function.update_noteq (hnc.name_ne hs)]
    simp only [segmentsBytes, this, ih]

/-! ## The segment loop -/

section Segments

variable {cfg : Config} {fuel : Nat} {fdSrc : Int} {containers : IntHash ContainerInfo}

/-- One segment of the loop: it breaks with `false`, which needs a failed call or a segment
that describes nothing; or it opens the container at a fresh descriptor, seeks to `OFFSET` and
runs the chunk loop, which either stops the run or is followed by closing the container and the
rest of the loop. -/
theorem readSegments_cons {seg : Segment} {rest : List Segment} {rc : Bool} {crc : UInt32}
    {x : Option (Bool × UInt32)} {io io' : Io}
    (h : readSegments cfg fuel fdSrc containers (seg :: rest) rc crc io = (x, io')) :
    (x = some (false, crc) ∧ (io.orc io.tick = .ok → io.orc (io.tick + 1) = .ok →
      segmentBytes io.files containers seg = none) ∧ io'.files = io.files ∧ io'.trace = io.trace ∧
      (∀ g : Int, g ≠ io.nextFd → io'.fds g = io.fds g)) ∨
    ∃ name size off len c y io₃,
      scrContainerGetNameSizeOffsetLength seg containers = some (name, size, off, len) ∧
      io.files name = some c ∧ off < 2 ^ 63 ∧
      copyChunks cfg fdSrc io.nextFd fuel len rc crc { io with
        tick := io.tick + 1 + 1
        fds := Function.update io.fds io.nextFd (some ⟨name, off⟩)
        nextFd := io.nextFd + 1 } = (y, io₃) ∧
      ((y = none ∧ x = none ∧ io₃ = io') ∨ ∃ rc₁ crc₁, y = some (rc₁, crc₁) ∧
        readSegments cfg fuel fdSrc containers rest (rc₁ && !(io₃.orc io₃.tick).failed) crc₁
          { io₃.tock with fds := Function.update io₃.fds io.nextFd none } = (x, io')) := by
  unfold readSegments at h
  rcases hs : scrContainerGetNameSizeOffsetLength seg containers with _ | ⟨name, size, off, len⟩
  · rw [hs] at h
    simp only [pure_apply, Prod.mk.injEq] at h
    obtain ⟨rfl, rfl⟩ := h
    exact .inl ⟨rfl, fun _ _ => by simp [segmentBytes, hs], rfl, rfl, fun _ _ => rfl⟩
  rw [hs] at h
  dsimp only at h
  obtain ⟨fdCon, io₁, hopen⟩ := Io.openRead_returns name io
  rw [bind_apply_of_eq hopen] at h
  rcases Io.openRead_eq_some hopen with ⟨rfl, rfl, hnone⟩ | ⟨rfl, hex, rfl⟩
  · simp only [if_pos (show (-1 : Int) < 0 by decide), pure_apply, Prod.mk.injEq] at h
    obtain ⟨rfl, rfl⟩ := h
    exact .inl ⟨rfl, fun ho _ => by simp [segmentBytes, hs, hnone ho], rfl, rfl, fun _ _ => rfl⟩
  obtain ⟨c, hc⟩ := Option.isSome_iff_exists.1 hex
  rw [if_neg (by omega)] at h
  simp only [pure_bind] at h
  obtain ⟨sought, io₂, hseek⟩ := Io.lseek_returns _ off _
  rw [bind_apply_of_eq hseek] at h
  rcases Io.lseek_eq_some hseek with ⟨rfl, rfl, hnone⟩ | ⟨rfl, hoff, f, hf, rfl⟩
  · simp only [Bool.not_false, if_true, pure_apply, Prod.mk.injEq] at h
    obtain ⟨rfl, rfl⟩ := h
    refine .inl ⟨rfl, fun _ ho => ?_, rfl, rfl, fun g hg => by simp [Function.update_noteq hg]⟩
    by_cases hoff : off < 2 ^ 63
    · simp at hnone
      exact absurd hoff (not_lt.2 (hnone ho))
    · simp only [segmentBytes, hs, hc]
      exact if_neg fun h => hoff h.1
  simp only [Function.update_same, Prod.mk.injEq, Option.some.injEq] at hf
  subst hf
  simp only [Bool.not_true, Bool.false_eq_true, if_false, pure_bind] at h
  rw [bind_apply] at h
  split at h
  · rename_i r io₃ hcopy
    refine .inr ⟨name, size, off, len, c, _, io₃, rfl, hc, hoff,
      by simpa [Function.update_idem] using hcopy, .inr ⟨r.1, r.2, rfl, h⟩⟩
  · rename_i io₃ hcopy
    obtain ⟨rfl, rfl⟩ := Prod.mk.inj h
    exact .inr ⟨name, size, off, len, c, _, io₃, rfl, hc, hoff,
      by simpa [Function.update_idem] using hcopy, .inl ⟨rfl, rfl, rfl⟩⟩

/-- A segment loop that ends with `SCR_SUCCESS` started with it. -/
theorem readSegments_rc {segs : List Segment} {rc : Bool} {crc crc' : UInt32} {io io' : Io}
    (h : readSegments cfg fuel fdSrc containers segs rc crc io = (some (true, crc'), io')) :
    rc = true := by
  induction segs generalizing rc crc io with
  | nil =>
    simp only [readSegments, pure_apply, Option.some.injEq, Prod.mk.injEq] at h
    exact h.1.1
  | cons seg rest ih =>
    obtain ⟨⟨⟩, -⟩ | ⟨_, _, _, _, _, _, _, -, -, -, hcopy, ⟨-, ⟨⟩, -⟩ | ⟨rc₁, _, rfl, hrest⟩⟩ :=
      readSegments_cons h
    have h₁ := ih hrest
    simp only [Bool.and_eq_true] at h₁
    exact copyChunks_rc (h₁.1 ▸ hcopy)

variable {file : Path} (hnc : containers.NotContainer file)

/-- The state right after a container was opened and sought: the destination is as it was. -/
theorem copying_opened {io : Io} {d c : Bytes} {name : Path} {off : Nat}
    (hsrc : io.fds fdSrc = some ⟨file, d.length⟩) (hd : io.files file = some d)
    (hc : io.files name = some c) (hlt : fdSrc < io.nextFd) :
    Copying { io with
        tick := io.tick + 1 + 1
        fds := Function.update io.fds io.nextFd (some ⟨name, off⟩)
        nextFd := io.nextFd + 1 } fdSrc io.nextFd file name d c off :=
  ⟨by simp [Function.update_noteq (show fdSrc ≠ io.nextFd by omega), hsrc], hd, by simp, hc⟩

include hnc in
/-- Whatever the calls return, a segment loop that ends with `SCR_SUCCESS` has appended the
file the segments describe to the destination and folded it into the CRC. -/
theorem readSegments_true {segs : List Segment} {rc : Bool} {crc crc' : UInt32} {io io' : Io}
    {d : Bytes} (h : readSegments cfg fuel fdSrc containers segs rc crc io = (some (true, crc'), io'))
    (hsrc : io.fds fdSrc = some ⟨file, d.length⟩) (hd : io.files file = some d)
    (hlt : fdSrc < io.nextFd) :
    ∃ bytes, segmentsBytes io.files containers segs = some bytes ∧
      io'.files = Function.update io.files file (some (d ++ bytes)) ∧
      crc' = cfg.foldCrc crc bytes := by
  induction segs generalizing rc crc io d with
  | nil =>
    simp only [readSegments, pure_apply, Option.some.injEq, Prod.mk.injEq] at h
    obtain ⟨⟨-, rfl⟩, rfl⟩ := h
    exact ⟨[], rfl, by simp [hd], by simp⟩
  | cons seg rest ih =>
    obtain ⟨⟨⟩, -⟩ | ⟨name, size, off, len, c, _, io₃, hs, hc, hoff, hcopy, ⟨-, ⟨⟩, -⟩ |
      ⟨rc₁, crc₁, rfl, h⟩⟩ := readSegments_cons h
    have hrc := readSegments_rc h
    simp only [Bool.and_eq_true] at hrc
    rw [hrc.1] at hcopy
    have hfd : fdSrc ≠ io.nextFd := by omega
    obtain ⟨-, hlen, hm, rfl⟩ := copyChunks_true (hnc.name_ne hs) hfd hcopy
      (copying_opened hsrc hd hc hlt)
    obtain ⟨bytes, hb, hfiles, rfl⟩ := ih h (d := d ++ slice c off len)
      (by simp [Function.update_noteq hfd, hm.src]) (by simp [hm.files])
      (by simp [hm.frame.nextFd]; omega)
    simp only [Io.tock_files, hm.files, segmentsBytes_update _ hnc] at hb hfiles
    refine ⟨slice c off len ++ bytes, ?_, ?_, Config.foldCrc_append ..⟩
    · simp [segmentsBytes, segmentBytes_eq hs hc hoff hlen, hb]
    · simp [hfiles]

end Segments

/-! ## The reader -/

/-- A call that gets past the argument checks either fails early, which needs a failed call or
an empty name; or it opens the destination fresh, allocates the buffer and runs the segment loop
from `SCR_SUCCESS`, which either stops the run or is followed by closing the destination, freeing
the buffer and checking the CRC. -/
theorem scrFetchFileFromContainers_some {cfg : Config} {fuel : Nat} {file : Path} {meta : Meta}
    {segments : IntHash Segment} {containers : IntHash ContainerInfo} {io io' : Io}
    {x : Option Bool}
    (h : scrFetchFileFromContainers cfg fuel file meta (some segments) (some containers) io =
      (x, io')) :
    (x = some false ∧ (io.orc io.tick = .ok → io.orc (io.tick + 1) = .ok → file = []) ∧
      io.Confined file io') ∨
    ∃ y io₃,
      readSegments cfg fuel io.nextFd containers segments.sorted true (crc32 0 []) { io with
        tick := io.tick + 1 + 1
        files := Function.update io.files file (some [])
        fds := Function.update io.fds io.nextFd (some ⟨file, 0⟩)
        nextFd := io.nextFd + 1
        bufs := io.bufs + 1
        trace := io.trace ++ [.create file] } = (y, io₃) ∧
      ((y = none ∧ x = none ∧ io₃ = io') ∨ ∃ rc crc, y = some (rc, crc) ∧
        io'.files = io₃.files ∧ io'.trace = io₃.trace ∧
        x = some (rc && !(io₃.orc io₃.tick).failed &&
          (!cfg.crcOnFlush || meta.crc32.all (· == crc)))) := by
  unfold scrFetchFileFromContainers at h
  split_ifs at h with hf
  · simp only [pure_apply, Prod.mk.injEq] at h
    obtain ⟨rfl, rfl⟩ := h
    exact .inl ⟨rfl, fun _ _ => hf, .of_eq rfl rfl⟩
  simp only [pure_bind] at h
  obtain ⟨fdSrc, io₁, hopen⟩ := Io.openTrunc_returns file io
  rw [bind_apply_of_eq hopen] at h
  unfold Io.openTrunc at hopen
  split_ifs at hopen with hfail <;> simp only [Prod.mk.injEq, Option.some.injEq] at hopen <;>
    obtain ⟨rfl, rfl⟩ := hopen
  · simp only [if_pos (show (-1 : Int) < 0 by decide), pure_apply, Prod.mk.injEq] at h
    obtain ⟨rfl, rfl⟩ := h
    exact .inl ⟨rfl, fun ho => by simp [ho, Outcome.failed] at hfail, .of_eq rfl rfl⟩
  rw [if_neg (by omega)] at h
  obtain ⟨alloc, io₂, hmalloc⟩ := Io.malloc_returns _
  rw [bind_apply_of_eq hmalloc] at h
  unfold Io.malloc at hmalloc
  split_ifs at hmalloc with hfail <;> simp only [Prod.mk.injEq, Option.some.injEq] at hmalloc <;>
    obtain ⟨rfl, rfl⟩ := hmalloc
  · simp only [Bool.not_false, if_true, bind_apply, Io.close, pure_apply, Prod.mk.injEq] at h
    obtain ⟨rfl, rfl⟩ := h
    refine .inl ⟨rfl, fun _ ho => by simp [ho, Outcome.failed] at hfail, fun q hq => ?_,
      [.create file], rfl, by simp⟩
    simp [Function.update_noteq hq]
  simp only [Bool.not_true, Bool.false_eq_true, if_false, pure_bind] at h
  rw [bind_apply] at h
  split at h
  · rename_i r io₃ hread
    refine .inr ⟨_, io₃, hread, .inr ⟨r.1, r.2, rfl, ?_⟩⟩
    simp only [bind_apply, Io.close, Io.free] at h
    split_ifs at h with hc
    · cases hm : meta.crc32 with
      | none =>
        simp only [hm, pure_apply, Prod.mk.injEq] at h
        obtain ⟨rfl, rfl⟩ := h
        simp
      | some c2 =>
        simp only [hm] at h
        split_ifs at h with hne <;> simp only [pure_apply, Prod.mk.injEq] at h <;>
          obtain ⟨rfl, rfl⟩ := h
        · simp only [Bool.and_eq_true] at hc
          simp [hc, Ne.symm hne]
        · simp only [ne_eq, not_not] at hne
          simp [hne]
    · simp only [pure_apply, Prod.mk.injEq] at h
      obtain ⟨rfl, rfl⟩ := h
      refine ⟨rfl, rfl, ?_⟩
      revert hc
      cases r.1 && !(io₃.orc io₃.tick).failed <;> cases cfg.crcOnFlush <;> simp
  · rename_i io₃ hread
    obtain ⟨rfl, rfl⟩ := Prod.mk.inj h
    exact .inr ⟨_, io₃, hread, .inl ⟨rfl, rfl, rfl⟩⟩

section Reader

variable {cfg : Config} {fuel : Nat} {file : Path} {meta : Meta} {segments : IntHash Segment}
  {containers : IntHash ContainerInfo} {io io' : Io}

/-- Whatever the calls return, `SCR_SUCCESS` means that the segments describe a file, that the
destination holds exactly that file, and that its CRC is the meta data's when
`scr_crc_on_flush` is set and the meta data has one. -/
theorem scrFetchFileFromContainers_true (hnc : containers.NotContainer file)
    (h : scrFetchFileFromContainers cfg fuel file meta (some segments) (some containers) io =
      (some true, io')) :
    ∃ bytes, segmentsBytes io.files containers segments.sorted = some bytes ∧
      io'.files file = some bytes ∧
      (cfg.crcOnFlush = true → ∀ c, meta.crc32 = some c → crc32 0 bytes = c) := by
  obtain ⟨⟨⟩, -⟩ | ⟨_, io₃, hread, ⟨-, ⟨⟩, -⟩ | ⟨rc, crc, rfl, hfiles, -, hr⟩⟩ :=
    scrFetchFileFromContainers_some h
  cases rc
  · simp at hr
  obtain ⟨bytes, hb, hf, rfl⟩ := readSegments_true hnc hread (d := []) (by simp) (by simp)
    (by dsimp only; omega)
  simp only [segmentsBytes_update _ hnc] at hb
  refine ⟨bytes, hb, by simp [hfiles, hf], fun hon c hc => ?_⟩
  simp [hon, hc, Config.foldCrc] at hr
  exact hr.2.symm

/-- `vs` are the values of `h` in ascending key order: its entries, rearranged so that the keys
increase. -/
def IntHash.InKeyOrder {α : Type} (h : IntHash α) (vs : List α) : Prop :=
  ∃ es : List (Int × α), es.Perm h.entries ∧ (es.Pairwise fun a b => a.1 < b.1) ∧
    vs = es.map Prod.snd

/-- The walk after `scr_hash_sort_int` lists the values in ascending key order, and it is the
only list that does. -/
theorem IntHash.inKeyOrder_iff {α : Type} {h : IntHash α} {vs : List α} :
    h.InKeyOrder vs ↔ vs = h.sorted := by
  have hp := List.perm_insertionSort (fun a b : Int × α => a.1 ≤ b.1) h.entries
  have : IsTotal (Int × α) fun a b => a.1 ≤ b.1 := ⟨fun a b => le_total a.1 b.1⟩
  have : IsTrans (Int × α) fun a b => a.1 ≤ b.1 := ⟨fun _ _ _ => le_trans⟩
  have : IsAntisymm (Int × α) fun a b => a.1 < b.1 :=
    ⟨fun _ _ h₁ h₂ => absurd (h₁.trans h₂) (lt_irrefl _)⟩
  -- sorted, and no key twice: the keys increase
  have hlt : (h.entries.insertionSort fun a b => a.1 ≤ b.1).Pairwise fun a b => a.1 < b.1 :=
    ((List.sorted_insertionSort _ _).and
      (List.pairwise_map.1 ((hp.map Prod.fst).nodup_iff.2 h.nodup))).imp
      fun ⟨hle, hne⟩ => lt_of_le_of_ne hle hne
  constructor
  · rintro ⟨es, hes, hinc, rfl⟩
    rw [IntHash.sorted, List.eq_of_perm_of_sorted (hes.trans hp.symm) hinc hlt]
  · rintro rfl
    exact ⟨_, hp, hlt, rfl⟩

end Reader

end ScrFetch
