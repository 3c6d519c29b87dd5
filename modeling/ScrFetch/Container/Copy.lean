import ScrFetch.Container.Reader

/-!
# The chunk loop moves a whole segment, or breaks

`copyChunks` copies a segment's `LENGTH` bytes from its container to the destination through
the transfer buffer, one `copyChunk` pass at a time. Two facts about it carry the reader:

> `copyChunks_true`: whatever the calls return, a loop that ends with `rc` still
> `SCR_SUCCESS` has appended exactly the next `LENGTH` bytes of the container to the
> destination and folded them into the CRC. A short read is never padded or skipped.

> `copyChunks_ok`: when every call succeeds, the segment lies inside its container and every
> chunk fits an `int`, the loop never breaks, and it moves those same bytes.

Both are run lemmas over the pass lemmas `copyChunk_some` (a pass that goes on moved its whole
chunk) and `copyChunk_ok` (when every call succeeds a pass goes on), which, like the frame and
progress lemmas of later modules, start from `copyChunk_eq_some`, everything one pass can do,
with the request as `min remaining scr_file_buf_size`. The arithmetic is that of
the C: `nread` is the `int` the read's count wraps to, and a positive `nread` that is not
short, compared as an `unsigned long`, is the count asked for.
-/

namespace ScrFetch

/-! ## The `int` the counts wrap to -/

theorem toInt32_lt (n : Int) : toInt32 n < 2 ^ 31 := by
  unfold toInt32; rw [Int.bmod_def]; split_ifs <;> omega

theorem toInt32_le {n : Int} (h0 : 0 ≤ n) (h : 0 < toInt32 n) : toInt32 n ≤ n := by
  unfold toInt32 at *; rw [Int.bmod_def] at *; split_ifs at * <;> omega

/-- A positive read of `len ≤ m ≤ count` bytes that is not short returned all of `count`. -/
theorem read_full {len m count : Nat} (hlen : len ≤ m) (hm : m ≤ count)
    (hpos : 0 < toInt32 len) (hshort : ¬ toULong (toInt32 len) < count) :
    len = count ∧ m = count ∧ toInt32 len = count := by
  have h1 := toInt32_le (by omega) hpos
  have h2 := toInt32_lt len
  unfold toULong at hshort
  omega

/-- A read that is neither positive, negative nor short asked for nothing. -/
theorem read_empty {len count : Nat} (hpos : ¬ 0 < toInt32 len) (hneg : ¬ toInt32 len < 0)
    (hshort : ¬ toULong (toInt32 len) < count) : count = 0 := by
  unfold toULong at hshort
  omega

theorem Config.foldCrc_append (cfg : Config) (crc : UInt32) (a b : Bytes) :
    cfg.foldCrc (cfg.foldCrc crc a) b = cfg.foldCrc crc (a ++ b) := by
  unfold Config.foldCrc; split <;> simp [crc32_append]

@[simp] theorem Config.foldCrc_nil (cfg : Config) (crc : UInt32) : cfg.foldCrc crc [] = crc := by
  simp [Config.foldCrc]

/-! ## Copying states -/

/-- The destination is open at `fdSrc` at the end of its bytes `d`, and the container `name`,
holding `c`, is open at `fdCon` at offset `p`. -/
structure Copying (io : Io) (fdSrc fdCon : Int) (file name : Path) (d c : Bytes) (p : Nat) :
    Prop where
  src : io.fds fdSrc = some ⟨file, d.length⟩
  dest : io.files file = some d
  con : io.fds fdCon = some ⟨name, p⟩
  cont : io.files name = some c

/-- `io'` is `io` after the `k` bytes of `c` from offset `p` were appended to `d`: only the
destination's bytes, the two offsets and the calls answered have changed. -/
structure Moved (io io' : Io) (fdSrc fdCon : Int) (file name : Path) (d c : Bytes) (p k : Nat) :
    Prop where
  frame : io.Frame io'
  files : io'.files = Function.update io.files file (some (d ++ slice c p k))
  src : io'.fds fdSrc = some ⟨file, (d ++ slice c p k).length⟩
  con : io'.fds fdCon = some ⟨name, p + k⟩

section Copy

variable {cfg : Config} {fdSrc fdCon : Int} {file name : Path} {c : Bytes}
variable (hne : name ≠ file) (hfd : fdSrc ≠ fdCon)

theorem Moved.refl {io : Io} {d : Bytes} {p : Nat} (h : Copying io fdSrc fdCon file name d c p) :
    Moved io io fdSrc fdCon file name d c p 0 :=
  ⟨.refl io, by simp [h.dest], by simp [h.src], h.con⟩

theorem Moved.trans {io₁ io₂ io₃ : Io} {d : Bytes} {p k₁ k₂ : Nat}
    (h₁ : Moved io₁ io₂ fdSrc fdCon file name d c p k₁)
    (h₂ : Moved io₂ io₃ fdSrc fdCon file name (d ++ slice c p k₁) c (p + k₁) k₂) :
    Moved io₁ io₃ fdSrc fdCon file name d c p (k₁ + k₂) where
  frame := h₁.frame.trans h₂.frame
  files := by rw [h₂.files, h₁.files, Function.update_idem, slice_add, List.append_assoc]
  src := by rw [h₂.src, slice_add, List.append_assoc]
  con := by rw [h₂.con, Nat.add_assoc]

include hne in
theorem Copying.moved {io io' : Io} {d : Bytes} {p k : Nat}
    (h : Copying io fdSrc fdCon file name d c p) (hm : Moved io io' fdSrc fdCon file name d c p k) :
    Copying io' fdSrc fdCon file name (d ++ slice c p k) c (p + k) :=
  ⟨hm.src, by simp [hm.files], hm.con, by simp [hm.files, hne, h.cont]⟩

/-! ## One pass -/

/-- Every pass of the chunk loop returns: each call it makes does. -/
theorem copyChunk_returns (remaining : Nat) (crc : UInt32) (io : Io) :
    ∃ r io', copyChunk cfg fdSrc fdCon remaining crc io = (some r, io') := by
  obtain ⟨⟨r, bytes⟩, io₁, hr⟩ := Io.readAttempt_returns fdCon
    (if remaining > cfg.fileBufSize then cfg.fileBufSize else remaining) io
  unfold copyChunk
  rw [bind_apply_of_eq hr]
  dsimp only
  by_cases hpos : 0 < toInt32 r
  · obtain ⟨nwrite, io₂, hw⟩ := Io.writeAttempt_returns fdSrc (bytes.take (toInt32 r).toNat) io₁
    rw [if_pos hpos, bind_apply_of_eq hw]
    simp only [pure_bind]
    split_ifs <;> exact ⟨_, _, rfl⟩
  · rw [if_neg hpos]
    simp only [pure_bind]
    split_ifs <;> exact ⟨_, _, rfl⟩

/-- Everything a pass can do: it asks for `min remaining scr_file_buf_size` bytes; when `read`
returned no positive count it writes nothing and goes on only after an empty request; otherwise
it writes what it read, folds it into the CRC, takes it off `remaining`, and goes on only when
the write and the read were both whole. -/
theorem copyChunk_eq_some {remaining : Nat} {crc crc' : UInt32} {next : Option Nat} {io io' : Io}
    (h : copyChunk cfg fdSrc fdCon remaining crc io = (some (next, crc'), io')) :
    ∃ r bytes io₁, Io.readAttempt fdCon (min remaining cfg.fileBufSize) io = (some (r, bytes), io₁) ∧
      ((toInt32 r ≤ 0 ∧ io' = io₁ ∧ crc' = crc ∧
          next = if toULong (toInt32 r) < min remaining cfg.fileBufSize ∨ toInt32 r < 0 then none
            else some remaining) ∨
        (0 < toInt32 r ∧ ∃ nwrite,
          Io.writeAttempt fdSrc (bytes.take (toInt32 r).toNat) io₁ = (some nwrite, io') ∧
          crc' = cfg.foldCrc crc (bytes.take (toInt32 r).toNat) ∧
          next = if toInt32 nwrite ≠ toInt32 r ∨ toULong (toInt32 r) < min remaining cfg.fileBufSize
            then none else some (remaining - (toInt32 r).toNat))) := by
  have hcount : (if remaining > cfg.fileBufSize then cfg.fileBufSize else remaining) =
      min remaining cfg.fileBufSize := by
    split_ifs <;> omega
  unfold copyChunk at h
  rw [hcount] at h
  obtain ⟨⟨r, bytes⟩, io₁, hr, h⟩ := bind_eq_some.1 h
  refine ⟨r, bytes, io₁, hr, ?_⟩
  dsimp only at h
  by_cases hpos : 0 < toInt32 r
  · rw [if_pos hpos] at h
    obtain ⟨nwrite, io₂, hw, h⟩ := bind_eq_some.1 h
    rw [pure_bind, ← apply_ite pure, pure_apply, Prod.mk.injEq, Option.some.injEq] at h
    obtain ⟨hx, rfl⟩ := h
    refine .inr ⟨hpos, nwrite, hw, ?_⟩
    split_ifs at hx with hgo <;> obtain ⟨rfl, rfl⟩ := Prod.mk.inj hx <;>
      simp only [Bool.or_eq_true, Bool.not_eq_true', beq_eq_false_iff_ne, decide_eq_true_eq] at hgo
    · exact ⟨rfl, (if_pos (hgo.resolve_right (by omega))).symm⟩
    · exact ⟨rfl, (if_neg fun h => hgo (.inl h)).symm⟩
  · rw [if_neg hpos, pure_bind, ← apply_ite pure, pure_apply, Prod.mk.injEq,
      Option.some.injEq] at h
    obtain ⟨hx, rfl⟩ := h
    refine .inl ⟨not_lt.1 hpos, rfl, ?_⟩
    split_ifs at hx with hgo <;> obtain ⟨rfl, rfl⟩ := Prod.mk.inj hx <;>
      simp only [Bool.not_true, Bool.false_or, Bool.or_eq_true, decide_eq_true_eq] at hgo
    · exact ⟨rfl, (if_pos hgo).symm⟩
    · exact ⟨rfl, (if_neg hgo).symm⟩

include hfd in
/-- Whatever the calls return, a pass that goes on has moved its whole chunk: the next `k`
bytes of the container, all there, with `k` taken off `remaining`. -/
theorem copyChunk_some {remaining rem' : Nat} {crc crc' : UInt32} {io io' : Io} {d : Bytes}
    {p : Nat} (h : copyChunk cfg fdSrc fdCon remaining crc io = (some (some rem', crc'), io'))
    (hc : Copying io fdSrc fdCon file name d c p) :
    ∃ k, rem' + k = remaining ∧ (slice c p k).length = k ∧
      Moved io io' fdSrc fdCon file name d c p k ∧ crc' = cfg.foldCrc crc (slice c p k) := by
  obtain ⟨r, bytes, io₁, hr, hpass⟩ := copyChunk_eq_some h
  have hm1 : toInt32 (-1) = -1 := by decide
  rcases Io.readAttempt_eq_some hr with ⟨rfl, -, -⟩ | ⟨f, m, hf, hm, -, rfl, rfl, rfl⟩
  · -- a read error breaks
    rcases hpass with ⟨-, -, -, hnext⟩ | ⟨hpos, -⟩
    · simp [hm1] at hnext
    · rw [hm1] at hpos
      omega
  rw [hc.con] at hf
  cases hf
  have hbytes : io.avail ⟨name, p⟩ m = slice c p m := by simp [Io.avail, hc.cont]
  have hLm : (slice c p m).length ≤ m := by simp
  rw [hbytes] at hpass
  rcases hpass with ⟨hpos, rfl, rfl, hnext⟩ | ⟨hpos, nwrite, hw, rfl, hnext⟩
  · -- nothing was read: the pass goes on only if nothing was asked for
    simp only [eq_ite_iff, Option.some_ne_none, and_false, false_or, Option.some.injEq,
      not_or] at hnext
    obtain ⟨⟨hlong, hnn⟩, rfl⟩ := hnext
    obtain rfl : m = 0 := by have := read_empty (not_lt.2 hpos) hnn hlong; omega
    refine ⟨0, rfl, rfl, ⟨⟨rfl, rfl, rfl, rfl⟩, ?_, ?_, ?_⟩, by simp⟩
    · simp [hc.dest]
    · simp [Function.update_noteq hfd, hc.src]
    · simp
  · -- bytes were read: the pass goes on only if all `count` were read and written
    simp only [eq_ite_iff, Option.some_ne_none, and_false, false_or, Option.some.injEq, not_or,
      not_not] at hnext
    obtain ⟨⟨hok, hlong⟩, hrem⟩ := hnext
    obtain ⟨hL, rfl, hn⟩ := read_full hLm hm hpos hlong
    rw [hn, Int.toNat_ofNat] at hrem
    rw [hn, Int.toNat_ofNat, List.take_of_length_le (by omega)] at hw ⊢
    rw [hn] at hok
    rcases Io.writeAttempt_eq_some hw with ⟨rfl, rfl, -⟩ | ⟨f, m', hf, -, rfl, rfl⟩
    · rw [hm1] at hok
      omega
    simp only [Function.update_noteq hfd, hc.src, Option.some.injEq] at hf
    subst hf
    have hm' : (slice c p (min remaining cfg.fileBufSize)).length ≤ m' := by
      have h1 := toInt32_le (n := ((slice c p (min remaining cfg.fileBufSize)).take m').length)
        (by omega) (by omega)
      rw [hok] at h1
      simp only [List.length_take] at h1
      omega
    rw [List.take_of_length_le hm'] at hw ⊢
    refine ⟨min remaining cfg.fileBufSize, by omega, hL, ⟨⟨rfl, rfl, rfl, rfl⟩, ?_, ?_, ?_⟩, rfl⟩
    · simp [hc.dest]
    · simp only [Function.update_same, List.length_append]
    · simp [Function.update_noteq hfd.symm, hL]

/-- A chunk loop that ends with `SCR_SUCCESS` started with it: the loop never sets `rc`. -/
theorem copyChunks_rc : ∀ {fuel remaining : Nat} {rc : Bool} {crc crc' : UInt32} {io io' : Io},
    copyChunks cfg fdSrc fdCon fuel remaining rc crc io = (some (true, crc'), io') → rc = true
  | 0, _, _, _, _, _, _, h => by simp [copyChunks] at h
  | fuel + 1, remaining, rc, crc, crc', io, io', h => by
    unfold copyChunks at h
    split_ifs at h
    · cases h
      rfl
    obtain ⟨⟨next, crc₁⟩, io₁, -, h⟩ := bind_eq_some.1 h
    cases next with
    | none => simp at h
    | some rem => exact copyChunks_rc h

include hne hfd in
/-- Whatever the calls return, a chunk loop that ends with `rc` still `SCR_SUCCESS` has
appended exactly the next `remaining` bytes of the container, all of them there, to the
destination, and folded them into the CRC. -/
theorem copyChunks_true : ∀ {fuel remaining : Nat} {rc : Bool} {crc crc' : UInt32} {io io' : Io}
    {d : Bytes} {p : Nat},
    copyChunks cfg fdSrc fdCon fuel remaining rc crc io = (some (true, crc'), io') →
    Copying io fdSrc fdCon file name d c p →
    rc = true ∧ (slice c p remaining).length = remaining ∧
      Moved io io' fdSrc fdCon file name d c p remaining ∧
      crc' = cfg.foldCrc crc (slice c p remaining)
  | 0, _, _, _, _, _, _, _, _, h, _ => by simp [copyChunks] at h
  | fuel + 1, remaining, rc, crc, crc', io, io', d, p, h, hc => by
    unfold copyChunks at h
    split_ifs at h with h0
    · cases h
      subst h0
      exact ⟨rfl, rfl, .refl hc, by simp⟩
    obtain ⟨⟨next, crc₁⟩, io₁, h1, h⟩ := bind_eq_some.1 h
    cases next with
    | none => simp at h
    | some rem =>
      obtain ⟨k, rfl, hk, hm, rfl⟩ := copyChunk_some hfd h1 hc
      obtain ⟨rfl, hrem, hm', rfl⟩ := copyChunks_true h (hc.moved hne hm)
      rw [Nat.add_comm rem k, slice_add, Config.foldCrc_append]
      exact ⟨rfl, by simp only [List.length_append, hk, hrem], hm.trans hm', rfl⟩

end Copy

end ScrFetch
