import ScrFetch.Container.Correct

/-!
# The chunk loop ends, unless the buffer is empty

`copyChunks` spends one unit of fuel per pass, so whether `scrFetchFileFromContainers` returns
is a question about fuel. A pass asks for `count = min remaining scr_file_buf_size` bytes, takes
what it read off `remaining`, and goes on only when it read all `count` of them.

> `scrFetchFileFromContainers_returns`: with a buffer of at least one byte, the call returns
> whatever its calls return, given one unit of fuel more than the longest segment: a pass that
> goes on has read at least one byte (`copyChunk_progress`), and what it takes off `remaining`
> is what it read, never more, so the unsigned subtraction never wraps.

> `scrFetchFileFromContainers_zero_buffer`: the code does not check `scr_file_buf_size`
> (line 143). When it is `0` a pass asks for nothing, reads nothing and goes on with the same
> `remaining` (`copyChunk_zero_buffer`), so once a segment of positive length is open no fuel
> is enough.
-/

namespace ScrFetch

section Pass

variable {cfg : Config} {fdSrc fdCon : Int}

/-- With a buffer of at least one byte, a pass that goes on read `k ≥ 1` bytes and took exactly
those off `remaining`, whatever its calls returned. -/
theorem copyChunk_progress {remaining rem' : Nat} {crc crc' : UInt32} {io io' : Io}
    (hB : 0 < cfg.fileBufSize) (h0 : 0 < remaining)
    (h : copyChunk cfg fdSrc fdCon remaining crc io = (some (some rem', crc'), io')) :
    ∃ k, 0 < k ∧ rem' + k = remaining := by
  obtain ⟨r, bytes, io₁, hr, ⟨hpos, -, -, hnext⟩ | ⟨hpos, nwrite, -, -, hnext⟩⟩ :=
    copyChunk_eq_some h
  · -- nothing was read: going on needs an empty request, and the request is not empty
    simp only [eq_ite_iff, Option.some_ne_none, and_false, false_or, Option.some.injEq,
      not_or] at hnext
    obtain ⟨⟨hshort, hneg⟩, -⟩ := hnext
    have hz : toInt32 r = 0 := by omega
    have hz' : toULong 0 = 0 := by decide
    rw [hz, hz'] at hshort
    omega
  · -- bytes were read, at most the request, and all taken off `remaining`
    simp only [eq_ite_iff, Option.some_ne_none, and_false, false_or, Option.some.injEq] at hnext
    obtain ⟨-, hrem⟩ := hnext
    rcases Io.readAttempt_eq_some hr with ⟨rfl, -, -⟩ | ⟨f, m, -, hm, -, rfl, rfl, -⟩
    · exact absurd hpos (by decide)
    have hlen : (io.avail f m).length ≤ min remaining cfg.fileBufSize := by
      simp only [Io.avail, length_slice]; omega
    have := toInt32_le (by omega) hpos
    exact ⟨(toInt32 (io.avail f m).length).toNat, by omega, by omega⟩

/-- With an empty buffer a pass asks for nothing and reads nothing: when the container's
descriptor is open and the read is answered, it goes on with the same `remaining`. -/
theorem copyChunk_zero_buffer {remaining : Nat} {crc : UInt32} {io : Io} {f : OpenFile}
    (hB : cfg.fileBufSize = 0) (hok : io.orc io.tick = .ok) (hfd : io.fds fdCon = some f) :
    copyChunk cfg fdSrc fdCon remaining crc io =
      (some (some remaining, crc), { io.tock with fds := Function.update io.fds fdCon (some f) }) := by
  have hcount : (if remaining > cfg.fileBufSize then cfg.fileBufSize else remaining) = 0 := by
    split_ifs <;> omega
  have hr : Io.readAttempt fdCon 0 io =
      (some (0, []), { io.tock with fds := Function.update io.fds fdCon (some f) }) := by
    simp [Io.readAttempt, hfd, hok, Io.avail]
  unfold copyChunk
  rw [hcount, bind_apply_of_eq hr]
  rfl

end Pass

/-! ## The loop -/

section Loop

variable {cfg : Config} {fdSrc fdCon : Int}

/-- With a buffer of at least one byte, the chunk loop returns, whatever its calls return, once
its fuel exceeds `remaining`. -/
theorem copyChunks_isSome (hB : 0 < cfg.fileBufSize) :
    ∀ {fuel remaining : Nat}, remaining < fuel → ∀ rc crc io,
      (copyChunks cfg fdSrc fdCon fuel remaining rc crc io).1.isSome
  | 0, _, hfuel, _, _, _ => absurd hfuel (Nat.not_lt_zero _)
  | fuel + 1, remaining, hfuel, rc, crc, io => by
    unfold copyChunks
    split_ifs with h0
    · rfl
    obtain ⟨⟨next, crc₁⟩, io₁, h1⟩ := @copyChunk_returns cfg fdSrc fdCon remaining crc io
    rw [bind_apply_of_eq h1]
    cases next with
    | none => rfl
    | some rem =>
      obtain ⟨k, hk, rfl⟩ := copyChunk_progress hB (Nat.pos_of_ne_zero h0) h1
      exact copyChunks_isSome hB (by omega) rc crc₁ io₁

/-- With an empty buffer, a chunk loop with bytes to copy from an open container whose reads are
all answered never returns, whatever its fuel. -/
theorem copyChunks_zero_buffer (hB : cfg.fileBufSize = 0) {remaining : Nat} (h0 : 0 < remaining)
    (rc : Bool) (crc : UInt32) :
    ∀ (fuel : Nat) {io : Io} {f : OpenFile}, (∀ t, io.orc t = .ok) → io.fds fdCon = some f →
      (copyChunks cfg fdSrc fdCon fuel remaining rc crc io).1 = none
  | 0, _, _, _, _ => rfl
  | fuel + 1, io, f, hok, hfd => by
    unfold copyChunks
    rw [if_neg (by omega), bind_apply_of_eq (copyChunk_zero_buffer hB (hok _) hfd)]
    exact copyChunks_zero_buffer hB h0 rc crc fuel (f := f) hok (by simp)

end Loop

/-! ## The segment loop and the reader -/

section Reader

variable {cfg : Config} {fuel : Nat} {containers : IntHash ContainerInfo}

/-- With a buffer of at least one byte, the segment loop returns, whatever its calls return,
when its fuel exceeds every segment's `LENGTH`. -/
theorem readSegments_isSome (hB : 0 < cfg.fileBufSize) (fdSrc : Int) :
    ∀ {segs : List Segment}, (∀ seg ∈ segs, ∀ len ∈ seg.length, len < fuel) → ∀ rc crc io,
      (readSegments cfg fuel fdSrc containers segs rc crc io).1.isSome
  | [], _, _, _, _ => rfl
  | seg :: rest, hfuel, rc, crc, io => by
    unfold readSegments
    rcases hs : scrContainerGetNameSizeOffsetLength seg containers with _ | ⟨name, size, off, len⟩
    · rfl
    dsimp only
    obtain ⟨fdCon, io₁, ho⟩ := Io.openRead_returns name io
    rw [bind_apply_of_eq ho]
    split_ifs with hneg
    · rfl
    obtain ⟨sought, io₂, hl⟩ := Io.lseek_returns fdCon off io₁
    simp only [pure_bind]
    rw [bind_apply_of_eq hl]
    split_ifs
    · rfl
    have hlen : len < fuel := hfuel seg (.head _) len (length_of_getNameSizeOffsetLength hs)
    obtain ⟨⟨rc₁, crc₁⟩, hc⟩ := Option.isSome_iff_exists.1
      (@copyChunks_isSome cfg fdSrc fdCon hB _ _ hlen rc crc io₂)
    rw [bind_apply_of_eq (Prod.ext_iff.2 ⟨hc, rfl⟩)]
    exact readSegments_isSome hB fdSrc (fun s hs => hfuel s (.tail _ hs)) _ _ _

theorem IntHash.mem_sorted {α : Type} {h : IntHash α} {a : α} :
    a ∈ h.sorted ↔ ∃ k, (k, a) ∈ h.entries := by
  simp [IntHash.sorted, (List.perm_insertionSort _ _).mem_iff]

/-- With a buffer of at least one byte, `scr_fetch_file_from_containers` returns, whatever its
calls return, when its fuel exceeds every segment's `LENGTH`. -/
theorem scrFetchFileFromContainers_returns (hB : 0 < cfg.fileBufSize) (file : Path) (meta : Meta)
    (segments : Option (IntHash Segment)) (containers : Option (IntHash ContainerInfo))
    (hfuel : ∀ s ∈ segments, ∀ e ∈ s.entries, ∀ len ∈ e.2.length, len < fuel) (io : Io) :
    (scrFetchFileFromContainers cfg fuel file meta segments containers io).1.isSome := by
  unfold scrFetchFileFromContainers
  split_ifs
  · rfl
  simp only [pure_bind]
  split
  · rename_i segs cons
    obtain ⟨fdSrc, io₁, ho⟩ := Io.openTrunc_returns file io
    rw [bind_apply_of_eq ho]
    split_ifs
    · rfl
    obtain ⟨alloc, io₂, hm⟩ := Io.malloc_returns io₁
    rw [bind_apply_of_eq hm]
    split_ifs
    · rfl
    have hseg : ∀ seg ∈ segs.sorted, ∀ len ∈ seg.length, len < fuel := fun seg hseg len hlen => by
      obtain ⟨k, hk⟩ := IntHash.mem_sorted.1 hseg
      exact hfuel segs rfl _ hk len hlen
    obtain ⟨⟨rc, crc⟩, hr⟩ := Option.isSome_iff_exists.1
      (readSegments_isSome hB fdSrc hseg true (crc32 0 []) io₂)
    rw [bind_apply_of_eq (Prod.ext_iff.2 ⟨hr, rfl⟩), bind_apply_of_eq (x := Io.close fdSrc) rfl,
      bind_apply_of_eq (x := Io.free) rfl]
    split_ifs
    · cases meta.crc32
      · rfl
      · dsimp only
        split_ifs <;> rfl
    · rfl
  · rfl

/-- Short reads and all: a one-segment file read with a two-byte buffer returns with four units
of fuel. -/
theorem scrFetchFileFromContainers_returns_short_reads :
    let io : Io := ⟨fun p => if p = ["box"] then some [0, 1, 2] else none, fun _ => none, 3, 0,
      fun _ => .short 1, 0, []⟩
    let segs : IntHash Segment := ⟨[(0, ⟨some 3, some 7, some 0⟩)], by decide⟩
    let cons : IntHash ContainerInfo := ⟨[(7, ⟨some ["box"], some 3⟩)], by decide⟩
    (∀ s ∈ some segs, ∀ e ∈ s.entries, ∀ len ∈ e.2.length, len < 4) ∧
      (scrFetchFileFromContainers ⟨false, 2⟩ 4 ["x"] ⟨"x", "FULL", 3, 1, 1, none⟩ (some segs)
        (some cons) io).1.isSome := by
  intro io segs cons
  have hfuel : ∀ s ∈ some segs, ∀ e ∈ s.entries, ∀ len ∈ e.2.length, len < 4 := by
    simp [segs]
  exact ⟨hfuel, scrFetchFileFromContainers_returns (by decide) _ _ _ _ hfuel io⟩

/-- With an empty buffer, when every call succeeds, a segment loop whose first segment is
non-empty and lies in a container that exists, at an offset `lseek` accepts, never returns. -/
theorem readSegments_zero_buffer (hB : cfg.fileBufSize = 0) {fdSrc : Int} {seg : Segment}
    {rest : List Segment} {rc : Bool} {crc : UInt32} {io : Io} {name : Path} {size off len : Nat}
    (hok : ∀ t, io.orc t = .ok)
    (hs : scrContainerGetNameSizeOffsetLength seg containers = some (name, size, off, len))
    (hlen : 0 < len) (hc : (io.files name).isSome) (hoff : off < 2 ^ 63) :
    (readSegments cfg fuel fdSrc containers (seg :: rest) rc crc io).1 = none := by
  obtain ⟨d, hd⟩ := Option.isSome_iff_exists.1 hc
  have ho : Io.openRead name io = (some (io.nextFd : Int), { io.tock with
      fds := Function.update io.fds io.nextFd (some ⟨name, 0⟩), nextFd := io.nextFd + 1 }) := by
    simp [Io.openRead, hok, hd, Outcome.failed]
  unfold readSegments
  rw [hs]
  dsimp only
  rw [bind_apply_of_eq ho, if_neg (by omega)]
  simp only [pure_bind]
  rw [bind_apply_of_eq (by simp only [Io.lseek]; simp [hok, Outcome.failed]; rw [if_neg (by omega)])]
  rw [if_neg (by decide)]
  exact bind_fst_of_stop (copyChunks_zero_buffer hB hlen rc crc fuel (f := ⟨name, off⟩) hok (by simp))

/-- With an empty buffer, when every call succeeds, a call whose first segment in key order is
non-empty and lies in a container that exists, at an offset `lseek` accepts, never returns. -/
theorem scrFetchFileFromContainers_zero_buffer (hB : cfg.fileBufSize = 0) {file : Path}
    {meta : Meta} {segments : IntHash Segment} {seg : Segment} {rest : List Segment} {io : Io}
    {name : Path} {size off len : Nat} (hok : ∀ t, io.orc t = .ok) (hfile : file ≠ [])
    (hsorted : segments.sorted = seg :: rest)
    (hs : scrContainerGetNameSizeOffsetLength seg containers = some (name, size, off, len))
    (hlen : 0 < len) (hc : (io.files name).isSome) (hoff : off < 2 ^ 63) :
    (scrFetchFileFromContainers cfg fuel file meta (some segments) (some containers) io).1 = none := by
  unfold scrFetchFileFromContainers
  rw [if_neg hfile]
  simp only [pure_bind]
  rw [bind_apply_of_eq (by simp [Io.openTrunc, hok, Outcome.failed]; exact ⟨rfl, rfl⟩),
    if_neg (by omega)]
  rw [bind_apply_of_eq (by simp [Io.malloc, hok, Outcome.failed]; exact ⟨rfl, rfl⟩),
    if_neg (by decide), hsorted]
  refine bind_fst_of_stop (readSegments_zero_buffer hB (by simpa using hok) hs hlen ?_ hoff)
  show (Function.update io.files file (some []) name).isSome
  rw [Function.update_apply]
  split_ifs <;> simp [hc]

/-- With `scr_file_buf_size = 0`, a file of one two-byte segment of the container `box`, every
call succeeding: the call does not return, whatever the fuel. -/
theorem scrFetchFileFromContainers_zero_buffer_hangs :
    let io : Io := ⟨fun p => if p = ["box"] then some [0, 1] else none, fun _ => none, 3, 0,
      fun _ => .ok, 0, []⟩
    let segs : IntHash Segment := ⟨[(0, ⟨some 2, some 7, some 0⟩)], by decide⟩
    let cons : IntHash ContainerInfo := ⟨[(7, ⟨some ["box"], some 2⟩)], by decide⟩
    ∀ fuel, (scrFetchFileFromContainers ⟨false, 0⟩ fuel ["x"] ⟨"x", "FULL", 2, 1, 1, none⟩
      (some segs) (some cons) io).1 = none := fun fuel =>
  scrFetchFileFromContainers_zero_buffer rfl (fun _ => rfl) (by decide) rfl rfl (by decide) rfl
    (by decide)

end Reader

end ScrFetch
