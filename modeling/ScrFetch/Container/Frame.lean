import ScrFetch.Container.Correct

/-!
# What the reader leaves alone

Whatever its calls return, `scr_fetch_file_from_containers` changes the bytes of no file but its
destination, and records no durable effect but the destination's creation:

> `scrFetchFileFromContainers_confined`: every run is `Io.Confined` to the destination, one that
> returns and one that stops in the chunk loop alike.

The fetch of a file list rests on it: fetching one file leaves every other cache file, every
container and the filemap's place in the trace as they were. The destination's descriptor is
the only one the reader writes through, and it stays open on the destination (`Io.OnFile`)
until it is closed.
-/

namespace ScrFetch

section Frame

variable {cfg : Config} {fuel : Nat} {fdSrc fdCon : Int} {file : Path}
  {containers : IntHash ContainerInfo}

/-- A pass of the chunk loop reads through `fdCon` and writes through `fdSrc` alone. -/
theorem copyChunk_confined {rem : Nat} {crc : UInt32} {x : Option Nat × UInt32} {io io' : Io}
    (h : copyChunk cfg fdSrc fdCon rem crc io = (some x, io')) (hon : io.OnFile fdSrc file) :
    io.Confined file io' ∧ io'.OnFile fdSrc file ∧ io'.nextFd = io.nextFd := by
  obtain ⟨r, bytes, io₁, hr, hpass⟩ := copyChunk_eq_some h
  obtain ⟨hc₁, hon₁, hn₁⟩ : io.Confined file io₁ ∧ io₁.OnFile fdSrc file ∧
      io₁.nextFd = io.nextFd := by
    rcases Io.readAttempt_eq_some hr with ⟨-, rfl, -⟩ | ⟨f, m, hf, -, -, -, -, rfl⟩
    · exact ⟨.of_eq rfl rfl, hon, rfl⟩
    refine ⟨.of_eq rfl rfl, fun g hg => ?_, rfl⟩
    by_cases hfd : fdSrc = fdCon
    · subst hfd
      simp only [Function.update_same, Option.some.injEq] at hg
      rw [← hg]
      exact hon f hf
    · simp only [Function.update_noteq hfd] at hg
      exact hon g hg
  rcases hpass with ⟨-, rfl, -⟩ | ⟨-, nwrite, hw, -⟩
  · exact ⟨hc₁, hon₁, hn₁⟩
  rcases Io.writeAttempt_eq_some hw with ⟨-, rfl, -⟩ | ⟨f, m, hf, -, -, rfl⟩
  · exact ⟨hc₁.trans (.of_eq rfl rfl), hon₁, hn₁⟩
  have hpath := hon₁ f hf
  refine ⟨hc₁.trans ⟨fun q hq => ?_, [], by simp, by simp⟩, fun g hg => ?_, hn₁⟩
  · simp [Function.update_noteq (hpath ▸ hq)]
  · simp only [Function.update_same, Option.some.injEq] at hg
    rw [← hg]
    exact hpath

/-- The chunk loop reads through `fdCon` and writes through `fdSrc` alone, whether it returns or
runs out of fuel. -/
theorem copyChunks_confined : ∀ {fuel rem : Nat} {rc : Bool} {crc : UInt32}
    {x : Option (Bool × UInt32)} {io io' : Io},
    copyChunks cfg fdSrc fdCon fuel rem rc crc io = (x, io') → io.OnFile fdSrc file →
    io.Confined file io' ∧ io'.OnFile fdSrc file ∧ io'.nextFd = io.nextFd
  | 0, _, _, _, _, _, _, h, hon => by
    obtain ⟨-, rfl⟩ := Prod.mk.inj h
    exact ⟨.of_eq rfl rfl, hon, rfl⟩
  | fuel + 1, rem, rc, crc, x, io, io', h, hon => by
    unfold copyChunks at h
    split_ifs at h
    · obtain ⟨-, rfl⟩ := Prod.mk.inj h
      exact ⟨.of_eq rfl rfl, hon, rfl⟩
    obtain ⟨⟨next, crc₁⟩, io₁, h1⟩ := @copyChunk_returns cfg fdSrc fdCon rem crc io
    rw [bind_apply_of_eq h1] at h
    obtain ⟨hc₁, hon₁, hn₁⟩ := copyChunk_confined h1 hon
    cases next with
    | none =>
      obtain ⟨-, rfl⟩ := Prod.mk.inj h
      exact ⟨hc₁, hon₁, hn₁⟩
    | some rem' =>
      obtain ⟨hc₂, hon₂, hn₂⟩ := copyChunks_confined h hon₁
      exact ⟨hc₁.trans hc₂, hon₂, hn₂.trans hn₁⟩

/-- The segment loop opens, reads and closes containers, and writes through `fdSrc` alone,
whether it returns or stops. -/
theorem readSegments_confined {segs : List Segment} {rc : Bool} {crc : UInt32}
    {x : Option (Bool × UInt32)} {io io' : Io}
    (h : readSegments cfg fuel fdSrc containers segs rc crc io = (x, io'))
    (hon : io.OnFile fdSrc file) (hlt : fdSrc < io.nextFd) : io.Confined file io' := by
  induction segs generalizing rc crc io with
  | nil =>
    obtain ⟨-, rfl⟩ := Prod.mk.inj h
    exact .of_eq rfl rfl
  | cons seg rest ih =>
    obtain ⟨-, -, hf, ht, -⟩ | ⟨name, size, off, len, c, y, io₃, -, -, -, hcopy, hnext⟩ :=
      readSegments_cons h
    · exact .of_eq hf ht
    have hfd : fdSrc ≠ io.nextFd := by omega
    have hopen : io.Confined file { io with
        tick := io.tick + 1 + 1
        fds := Function.update io.fds io.nextFd (some ⟨name, off⟩)
        nextFd := io.nextFd + 1 } := .of_eq rfl rfl
    obtain ⟨hc₁, hon₁, hn₁⟩ := copyChunks_confined hcopy
      (fun f hf => hon f (by simpa [Function.update_noteq hfd] using hf))
    rcases hnext with ⟨-, -, rfl⟩ | ⟨rc₁, crc₁, rfl, hnext⟩
    · exact hopen.trans hc₁
    have hc₂ := ih hnext (fun f hf => hon₁ f (by simpa [Function.update_noteq hfd] using hf))
      (by simp [hn₁]; omega)
    have hclose : io₃.Confined file { io₃.tock with fds := Function.update io₃.fds io.nextFd none } :=
      .of_eq rfl rfl
    exact (hopen.trans (hc₁.trans hclose)).trans hc₂

/-- Whatever its calls return, and whether it returns or stops, the reader changes no file but
its destination and records no effect but the destination's creation. -/
theorem scrFetchFileFromContainers_confined {meta : Meta} {segments : Option (IntHash Segment)}
    {cons : Option (IntHash ContainerInfo)} {x : Option Bool} {io io' : Io}
    (h : scrFetchFileFromContainers cfg fuel file meta segments cons io = (x, io')) :
    io.Confined file io' := by
  cases segments with
  | none =>
    simp [scrFetchFileFromContainers] at h
    obtain ⟨-, rfl⟩ := h
    exact .of_eq rfl rfl
  | some segments =>
  cases cons with
  | none =>
    simp [scrFetchFileFromContainers] at h
    obtain ⟨-, rfl⟩ := h
    exact .of_eq rfl rfl
  | some cons =>
  obtain ⟨-, -, hc⟩ | ⟨y, io₃, hread, hrest⟩ := scrFetchFileFromContainers_some h
  · exact hc
  suffices hc₃ : io.Confined file io₃ by
    rcases hrest with ⟨-, -, rfl⟩ | ⟨-, -, -, hf, ht, -⟩
    exacts [hc₃, hc₃.trans (.of_eq hf ht)]
  have hopen : io.Confined file { io with
      tick := io.tick + 1 + 1
      files := Function.update io.files file (some [])
      fds := Function.update io.fds io.nextFd (some ⟨file, 0⟩)
      nextFd := io.nextFd + 1
      bufs := io.bufs + 1
      trace := io.trace ++ [.create file] } :=
    ⟨fun q hq => by simp [Function.update_noteq hq], [.create file], rfl, by simp⟩
  refine hopen.trans (readSegments_confined hread (fun f hf => ?_) (by dsimp only; omega))
  simp only [Function.update_same, Option.some.injEq] at hf
  rw [← hf]

end Frame

end ScrFetch
