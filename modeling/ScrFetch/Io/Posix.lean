import ScrFetch.Io.Filemap

/-!
# The system calls of the fetch

A shallow model of the calls the fetch makes on its own process: `scr_open`, `lseek`,
`scr_read_attempt`, `scr_write_attempt`, `scr_close`, `malloc`/`scr_free`, and the durable
effects `scr_filemap_write` and the cache-directory creation. `Io` is the process's view:
regular files by path, open descriptors with their offsets, live transfer buffers, and the
trace of durable effects in the order they happen.

Whether a call succeeds is the environment's choice: `orc` answers the `tick`-th call with
`ok`, `fail`, or (for a read or a write) a transfer cut short after `n` bytes. A theorem
stated for every `orc` holds for every outcome of every call. What does not depend on the
environment is modelled from POSIX: reading an existing file, seeking past its end (allowed),
seeking to an offset whose `off_t` is negative (refused), `close` releasing the descriptor
even when it reports an error. `scr_read_attempt` and `scr_write_attempt` are not in `src/`;
they are modelled from the spec (§4.1–4.2): at most the requested count, short only at end
of file or on an error, `-1` on an error with nothing transferred.
-/

namespace ScrFetch

/-- The environment's answer to one call. -/
inductive Outcome
  | ok
  | fail
  | short (n : Nat)
  deriving DecidableEq, Repr

/-- Whether the call reports an error. -/
def Outcome.failed : Outcome → Bool
  | .fail => true
  | _ => false

/-- An open file description: the file and the current offset. -/
structure OpenFile where
  path : Path
  pos : Nat
  deriving DecidableEq, Repr

/-- A durable effect, in the order the process performs them. -/
inductive Effect
  | create (p : Path)
  | mkdir (p : Path)
  | mapWrite (fm : Filemap)
  | delete (id : Int)

/-- The process's view of the system. -/
structure Io where
  files : Path → Option Bytes
  fds : Int → Option OpenFile
  nextFd : Nat
  bufs : Nat
  orc : Nat → Outcome
  tick : Nat
  trace : List Effect

/-- A computation of the process: what it returns, `none` when it stops without returning (its
fuel ran out, or it read a value C leaves undefined), and the state it reached either way. A run
that hangs keeps the durable effects it performed before it stopped. -/
def IoM (α : Type) : Type := Io → Option α × Io

instance : Monad IoM where
  pure a io := (some a, io)
  bind x f io := match x io with
    | (some a, io₁) => f a io₁
    | (none, io₁) => (none, io₁)

/-- Stop without returning, in the state reached. -/
def IoM.stop {α : Type} : IoM α := fun io => (none, io)

namespace Io

/-- The state after one more call was answered. -/
def tock (io : Io) : Io := { io with tick := io.tick + 1 }

@[simp] theorem tock_files (io : Io) : io.tock.files = io.files := rfl
@[simp] theorem tock_fds (io : Io) : io.tock.fds = io.fds := rfl
@[simp] theorem tock_nextFd (io : Io) : io.tock.nextFd = io.nextFd := rfl
@[simp] theorem tock_orc (io : Io) : io.tock.orc = io.orc := rfl
@[simp] theorem tock_tick (io : Io) : io.tock.tick = io.tick + 1 := rfl
@[simp] theorem tock_bufs (io : Io) : io.tock.bufs = io.bufs := rfl
@[simp] theorem tock_trace (io : Io) : io.tock.trace = io.trace := rfl

/-- `scr_open(p, O_RDONLY)`: a descriptor at offset 0 on an existing file, or `-1`. -/
def openRead (p : Path) : IoM Int := fun io =>
  match (io.orc io.tick).failed, io.files p with
  | false, some _ =>
    (some io.nextFd, { io.tock with
      fds := Function.update io.fds io.nextFd (some ⟨p, 0⟩)
      nextFd := io.nextFd + 1 })
  | _, _ => (some (-1), io.tock)

/-- `scr_open(p, O_WRONLY | O_CREAT | O_TRUNC, S_IRUSR | S_IWUSR)`: `p` exists and is empty,
and a descriptor at offset 0 is open on it; or `-1`. -/
def openTrunc (p : Path) : IoM Int := fun io =>
  if (io.orc io.tick).failed then (some (-1), io.tock)
  else
    (some io.nextFd, { io.tock with
      files := Function.update io.files p (some [])
      fds := Function.update io.fds io.nextFd (some ⟨p, 0⟩)
      nextFd := io.nextFd + 1
      trace := io.trace ++ [.create p] })

/-- `lseek(fd, (off_t) off, SEEK_SET) != (off_t) -1`. An `unsigned long` of `2^63` or more is
a negative `off_t`, which `lseek` refuses; an offset past the end of the file is allowed. -/
def lseek (fd : Int) (off : Nat) : IoM Bool := fun io =>
  match io.fds fd with
  | some f =>
    if (io.orc io.tick).failed || 2 ^ 63 ≤ off then (some false, io.tock)
    else (some true, { io.tock with fds := Function.update io.fds fd (some { f with pos := off }) })
  | none => (some false, io.tock)

/-- The bytes a descriptor's next read of `count` bytes can see. -/
def avail (io : Io) (f : OpenFile) (count : Nat) : Bytes :=
  slice ((io.files f.path).getD []) f.pos count

/-- `scr_read_attempt(name, fd, buf, count)`: the number of bytes read and the bytes. -/
def readAttempt (fd : Int) (count : Nat) : IoM (Int × Bytes) := fun io =>
  match io.fds fd, io.orc io.tick with
  | some f, .ok =>
    let got := io.avail f count
    (some (got.length, got), { io.tock with
      fds := Function.update io.fds fd (some { f with pos := f.pos + got.length }) })
  | some f, .short n =>
    let got := (io.avail f count).take n
    (some (got.length, got), { io.tock with
      fds := Function.update io.fds fd (some { f with pos := f.pos + got.length }) })
  | _, _ => (some (-1, []), io.tock)

/-- `bs` written over `data` at offset `pos` (a gap past the end reads as zeros). -/
def writeAt (data : Bytes) (pos : Nat) (bs : Bytes) : Bytes :=
  data.take pos ++ List.replicate (pos - data.length) 0 ++ bs ++ data.drop (pos + bs.length)

/-- `scr_write_attempt(name, fd, buf, n)` for the `n` bytes `buf`: the number written. -/
def writeAttempt (fd : Int) (buf : Bytes) : IoM Int := fun io =>
  match io.fds fd, io.orc io.tick with
  | some f, .ok =>
    (some buf.length, { io.tock with
      files := Function.update io.files f.path (some (writeAt ((io.files f.path).getD []) f.pos buf))
      fds := Function.update io.fds fd (some { f with pos := f.pos + buf.length }) })
  | some f, .short n =>
    let put := buf.take n
    (some put.length, { io.tock with
      files := Function.update io.files f.path (some (writeAt ((io.files f.path).getD []) f.pos put))
      fds := Function.update io.fds fd (some { f with pos := f.pos + put.length }) })
  | _, _ => (some (-1), io.tock)

/-- `scr_close(name, fd) == SCR_SUCCESS`; the descriptor is released either way. -/
def close (fd : Int) : IoM Bool := fun io =>
  (some (!(io.orc io.tick).failed), { io.tock with fds := Function.update io.fds fd none })

/-- `malloc(n) != NULL` for a transfer buffer. -/
def malloc : IoM Bool := fun io =>
  if (io.orc io.tick).failed then (some false, io.tock)
  else (some true, { io.tock with bufs := io.bufs + 1 })

/-- `scr_free(&buf)` of a buffer `malloc` returned. -/
def free : IoM Unit := fun io => (some (), { io with bufs := io.bufs - 1 })

/-- Modelled from the spec: `Filemap.write(path)`, the filemap persisted (§6). -/
def filemapWrite (fm : Filemap) : IoM Unit := fun io =>
  (some (), { io with trace := io.trace ++ [.mapWrite fm] })

/-- Modelled from the spec: `CacheManager.dir_create(desc, id)` (§6). -/
def mkdir (p : Path) : IoM Unit := fun io =>
  (some (), { io with trace := io.trace ++ [.mkdir p] })

/-- `io'` agrees with `io` on everything but the files, the descriptors and the calls answered. -/
structure Frame (io io' : Io) : Prop where
  orc : io'.orc = io.orc
  nextFd : io'.nextFd = io.nextFd
  bufs : io'.bufs = io.bufs
  trace : io'.trace = io.trace

theorem Frame.refl (io : Io) : Frame io io := ⟨rfl, rfl, rfl, rfl⟩

theorem Frame.trans {io₁ io₂ io₃ : Io} (h₁ : Frame io₁ io₂) (h₂ : Frame io₂ io₃) :
    Frame io₁ io₃ :=
  ⟨h₂.orc.trans h₁.orc, h₂.nextFd.trans h₁.nextFd, h₂.bufs.trans h₁.bufs, h₂.trace.trans h₁.trace⟩

/-- `io'` differs from `io` at most in the bytes of `file`, and its trace adds at most creations
of `file`. -/
structure Confined (file : Path) (io io' : Io) : Prop where
  files : ∀ q, q ≠ file → io'.files q = io.files q
  trace : ∃ l, io'.trace = io.trace ++ l ∧ ∀ e ∈ l, e = .create file

theorem Confined.of_eq {file : Path} {io io' : Io} (hf : io'.files = io.files)
    (ht : io'.trace = io.trace) : Confined file io io' :=
  ⟨fun _ _ => by rw [hf], [], by rw [ht, List.append_nil], by simp⟩

theorem Confined.trans {file : Path} {io₁ io₂ io₃ : Io} (h₁ : Confined file io₁ io₂)
    (h₂ : Confined file io₂ io₃) : Confined file io₁ io₃ := by
  obtain ⟨l₁, ht₁, hl₁⟩ := h₁.trace
  obtain ⟨l₂, ht₂, hl₂⟩ := h₂.trace
  refine ⟨fun q hq => (h₂.files q hq).trans (h₁.files q hq), l₁ ++ l₂, ?_, ?_⟩
  · rw [ht₂, ht₁, List.append_assoc]
  · intro e he
    rcases List.mem_append.1 he with he | he
    exacts [hl₁ e he, hl₂ e he]

/-- The descriptor `fd`, when open, is open on `file`. -/
def OnFile (io : Io) (fd : Int) (file : Path) : Prop := ∀ f, io.fds fd = some f → f.path = file

/-- An open for reading returns `-1` (always when the file does not exist), or a fresh
descriptor at offset 0 on the file. -/
theorem openRead_eq_some {p : Path} {io io' : Io} {fd : Int} (h : openRead p io = (some fd, io')) :
    (fd = -1 ∧ io' = io.tock ∧ (io.orc io.tick = .ok → io.files p = none)) ∨
    (fd = io.nextFd ∧ (io.files p).isSome ∧ io' = { io.tock with
      fds := Function.update io.fds io.nextFd (some ⟨p, 0⟩), nextFd := io.nextFd + 1 }) := by
  unfold openRead at h
  split at h
  · cases h
    exact .inr ⟨rfl, by simp_all, rfl⟩
  · cases h
    refine .inl ⟨rfl, rfl, fun ho => ?_⟩
    cases hp : io.files p <;> simp_all [Outcome.failed]

/-- A seek returns `false` (always at an offset that is a negative `off_t`), or moves an open
descriptor to the offset. -/
theorem lseek_eq_some {fd : Int} {off : Nat} {io io' : Io} {b : Bool}
    (h : lseek fd off io = (some b, io')) :
    (b = false ∧ io' = io.tock ∧ (io.orc io.tick = .ok → off < 2 ^ 63 → io.fds fd = none)) ∨
    (b = true ∧ off < 2 ^ 63 ∧ ∃ f, io.fds fd = some f ∧
      io' = { io.tock with fds := Function.update io.fds fd (some { f with pos := off }) }) := by
  unfold lseek at h
  split at h
  · rename_i f hf
    split_ifs at h with hbad
    · cases h
      refine .inl ⟨rfl, rfl, fun ho hoff => ?_⟩
      simp [ho, Outcome.failed] at hbad
      omega
    · cases h
      simp only [Bool.or_eq_true, not_or, decide_eq_true_eq, not_le] at hbad
      exact .inr ⟨rfl, hbad.2, f, hf, rfl⟩
  · cases h
    exact .inl ⟨rfl, rfl, fun _ _ => ‹_›⟩

/-- A read returns `-1`, or the next `m ≤ count` bytes the descriptor sees (all `count` of
them when the call is answered `ok`) and moves the offset past them. -/
theorem readAttempt_eq_some {fd : Int} {count : Nat} {io io' : Io} {r : Int} {bytes : Bytes}
    (h : readAttempt fd count io = (some (r, bytes), io')) :
    (r = -1 ∧ io' = io.tock ∧ (io.orc io.tick = .ok → io.fds fd = none)) ∨
    ∃ f m, io.fds fd = some f ∧ m ≤ count ∧ (io.orc io.tick = .ok → m = count) ∧
      bytes = io.avail f m ∧ r = bytes.length ∧
      io' = { io.tock with
        fds := Function.update io.fds fd (some { f with pos := f.pos + bytes.length }) } := by
  unfold readAttempt at h
  split at h
  · cases h
    exact .inr ⟨_, count, ‹_›, le_rfl, fun _ => rfl, rfl, rfl, rfl⟩
  · rename_i f n hf ho
    cases h
    refine .inr ⟨f, min n count, hf, min_le_right _ _, fun h => by simp_all, ?_, rfl, rfl⟩
    simp [avail, slice, List.take_take]
  · cases h
    refine .inl ⟨rfl, rfl, fun ho => ?_⟩
    cases hf : io.fds fd <;> simp_all

/-- `bs` written at the end of `data` is appended to it. -/
@[simp] theorem writeAt_length (data bs : Bytes) : writeAt data data.length bs = data ++ bs := by
  simp [writeAt]

/-- A write returns `-1`, or writes the first `m` bytes of `buf` at the descriptor's offset
(all of them when the call is answered `ok`) and moves the offset past them. -/
theorem writeAttempt_eq_some {fd : Int} {buf : Bytes} {io io' : Io} {r : Int}
    (h : writeAttempt fd buf io = (some r, io')) :
    (r = -1 ∧ io' = io.tock ∧ (io.orc io.tick = .ok → io.fds fd = none)) ∨
    ∃ f m, io.fds fd = some f ∧ (io.orc io.tick = .ok → m = buf.length) ∧
      r = (buf.take m).length ∧
      io' = { io.tock with
        files := Function.update io.files f.path
          (some (writeAt ((io.files f.path).getD []) f.pos (buf.take m)))
        fds := Function.update io.fds fd (some { f with pos := f.pos + (buf.take m).length }) } := by
  unfold writeAttempt at h
  split at h
  · cases h
    exact .inr ⟨_, buf.length, ‹_›, fun _ => rfl, by simp, by simp⟩
  · rename_i f n hf ho
    cases h
    exact .inr ⟨f, n, hf, fun h => by simp_all, rfl, rfl⟩
  · cases h
    refine .inl ⟨rfl, rfl, fun ho => ?_⟩
    cases hf : io.fds fd <;> simp_all

/-! Every call returns: it can fail, but it does not hang. -/

theorem openRead_returns (p : Path) (io : Io) : ∃ fd io', openRead p io = (some fd, io') := by
  unfold openRead
  split <;> exact ⟨_, _, rfl⟩

theorem openTrunc_returns (p : Path) (io : Io) : ∃ fd io', openTrunc p io = (some fd, io') := by
  unfold openTrunc
  split_ifs <;> exact ⟨_, _, rfl⟩

theorem lseek_returns (fd : Int) (off : Nat) (io : Io) : ∃ b io', lseek fd off io = (some b, io') := by
  unfold lseek
  split
  · split_ifs <;> exact ⟨_, _, rfl⟩
  · exact ⟨_, _, rfl⟩

theorem readAttempt_returns (fd : Int) (count : Nat) (io : Io) :
    ∃ r io', readAttempt fd count io = (some r, io') := by
  unfold readAttempt
  split <;> exact ⟨_, _, rfl⟩

theorem writeAttempt_returns (fd : Int) (buf : Bytes) (io : Io) :
    ∃ r io', writeAttempt fd buf io = (some r, io') := by
  unfold writeAttempt
  split <;> exact ⟨_, _, rfl⟩

theorem malloc_returns (io : Io) : ∃ b io', malloc io = (some b, io') := by
  unfold malloc
  split_ifs <;> exact ⟨_, _, rfl⟩

end Io

/-- A bind goes on from where its first part returned, and stops where that part stopped. -/
theorem bind_apply {α β : Type} (x : IoM α) (f : α → IoM β) (io : Io) :
    (x >>= f) io = match x io with
      | (some a, io₁) => f a io₁
      | (none, io₁) => (none, io₁) :=
  rfl

/-- Where a bind ends: where its second part ends, or where its first part stopped. -/
theorem bind_eq {α β : Type} {x : IoM α} {f : α → IoM β} {io io' : Io} {r : Option β} :
    (x >>= f) io = (r, io') ↔
      (∃ a io₁, x io = (some a, io₁) ∧ f a io₁ = (r, io')) ∨ (r = none ∧ x io = (none, io')) := by
  rw [bind_apply]
  rcases x io with ⟨_ | a, io₁⟩
  · simp [eq_comm]
  · simp only [Prod.mk.injEq, Option.some.injEq, reduceCtorEq, false_and, and_false, or_false]
    exact ⟨fun h => ⟨a, io₁, ⟨rfl, rfl⟩, h⟩, fun ⟨_, _, ⟨h₁, h₂⟩, h⟩ => h₁ ▸ h₂ ▸ h⟩

/-- Peeling a bind apart. -/
theorem bind_eq_some {α β : Type} {x : IoM α} {f : α → IoM β} {io io' : Io} {b : β} :
    (x >>= f) io = (some b, io') ↔ ∃ a io₁, x io = (some a, io₁) ∧ f a io₁ = (some b, io') := by
  simp [bind_eq]

/-- A computation whose first step returns goes on with the rest. -/
theorem bind_apply_of_eq {α β : Type} {x : IoM α} {f : α → IoM β} {io io₁ : Io} {a : α}
    (hx : x io = (some a, io₁)) : (x >>= f) io = f a io₁ := by
  rw [bind_apply, hx]

/-- A computation whose first step returns nothing returns nothing. -/
theorem bind_fst_of_stop {α β : Type} {x : IoM α} {f : α → IoM β} {io : Io}
    (hx : (x io).1 = none) : ((x >>= f) io).1 = none := by
  rw [bind_apply]
  rcases h : x io with ⟨_ | a, io₁⟩
  · rfl
  · simp [h] at hx

@[simp] theorem pure_apply {α : Type} (a : α) (io : Io) : (pure a : IoM α) io = (some a, io) :=
  rfl

instance : LawfulMonad IoM :=
  LawfulMonad.mk' IoM
    (fun x => funext fun io => by
      show (x >>= Function.comp pure id) io = x io
      rw [bind_apply]
      rcases x io with ⟨_ | a, io₁⟩ <;> rfl)
    (fun _ _ => rfl)
    (fun x f g => funext fun io => by
      rw [bind_apply, bind_apply, bind_apply]
      rcases x io with ⟨_ | a, io₁⟩ <;> rfl)

@[simp] theorem stop_apply {α : Type} (io : Io) : (IoM.stop : IoM α) io = (none, io) :=
  rfl

@[simp] theorem filemapWrite_bind {β : Type} (fm : Filemap) (f : Unit → IoM β) (io : Io) :
    (Io.filemapWrite fm >>= f) io = f () { io with trace := io.trace ++ [.mapWrite fm] } :=
  rfl

@[simp] theorem mkdir_bind {β : Type} (p : Path) (f : Unit → IoM β) (io : Io) :
    (Io.mkdir p >>= f) io = f () { io with trace := io.trace ++ [.mkdir p] } :=
  rfl

end ScrFetch
