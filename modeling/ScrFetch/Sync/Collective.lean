import Mathlib.Data.Fintype.Basic
import ScrFetch.Io.Basic

/-!
# Collective calls and the job that runs them

Every rank of the job runs the same code, and the collectives in it (`MPI_Barrier`, `MPI_Bcast`,
`scr_hash_bcast`, `scr_hash_exchange`, `scr_alltrue`, the calls inside `scr_reddesc_apply`) only
complete when every rank makes them. A rank's code is written here as a `Prog`, the sequence of
collectives it calls. Each collective carries the rank's contribution and goes on with what the
collective returns to it. Local computation happens between the constructors.

`runJob` runs the ranks in lockstep. It completes a collective when every rank waits in one of
the same kind: a broadcast hands every rank rank 0's value, and `scr_alltrue` the logical and of
every rank's flag. When a rank waits in a collective that another rank does not join, or has
returned while another waits, the job is `stuck`: in MPI that is a hang.

> `runJob_agree`: when every rank's program calls the same collectives as rank 0's whatever
> they return, and returns the same value (`Agree`), the job is never stuck, and a job that ends
> ends with every rank returning rank 0's value.
-/

namespace ScrFetch

/-- The collectives whose value no rank's control flow reads. -/
inductive Coll
  /-- `MPI_Barrier`, line 658. -/
  | barrier
  /-- The broadcast of `dirsize`, line 670. -/
  | bcastSize
  /-- `scr_hash_bcast` of the container catalogue, line 505. -/
  | bcastContainers
  /-- `scr_hash_exchange` of the file lists, line 522. -/
  | exchange
  deriving DecidableEq, Repr

/-- A rank's program: the collectives it calls, each with the rank's contribution and the rest
of the program as a function of what the collective returns to the rank. -/
inductive Prog (α : Type) where
  | ret (a : α)
  | sync (c : Coll) (k : Prog α)
  /-- `MPI_Bcast` of `fetch_dir` from rank 0, line 671. -/
  | bcastDir (v : Path) (k : Path → Prog α)
  /-- `MPI_Bcast` of a return code or a flag from rank 0 (lines 486, 952). -/
  | bcastFlag (v : Bool) (k : Bool → Prog α)
  /-- `scr_hash_bcast` of the dataset from rank 0, line 493: its id and checkpoint id. -/
  | bcastDataset (v : Option Int × Option Int) (k : Option Int × Option Int → Prog α)
  /-- `scr_alltrue`: the logical and of every rank's flag. -/
  | allTrue (b : Bool) (k : Bool → Prog α)
  /-- `scr_reddesc_apply`, collective inside: the rank goes on with its own status. -/
  | apply (ok : Bool) (k : Bool → Prog α)

namespace Prog

variable {α β : Type}

/-- Run `p`, then `f` on what it returns. -/
def bind : Prog α → (α → Prog β) → Prog β
  | ret a, f => f a
  | sync c k, f => sync c (k.bind f)
  | bcastDir v k, f => bcastDir v fun x => (k x).bind f
  | bcastFlag v k, f => bcastFlag v fun x => (k x).bind f
  | bcastDataset v k, f => bcastDataset v fun x => (k x).bind f
  | allTrue b k, f => allTrue b fun x => (k x).bind f
  | apply ok k, f => apply ok fun x => (k x).bind f

instance : Monad Prog where
  pure := ret
  bind := bind

/-- A collective whose value the rank does not read. -/
def collective (c : Coll) : Prog Unit := sync c (ret ())

/-- `MPI_Bcast(fetch_dir, ..., 0, ...)`. -/
def mpiBcastDir (v : Path) : Prog Path := bcastDir v ret

/-- `MPI_Bcast` of an `int` code or flag from rank 0. -/
def mpiBcastFlag (v : Bool) : Prog Bool := bcastFlag v ret

/-- `scr_hash_bcast` of the dataset from rank 0. -/
def hashBcastDataset (v : Option Int × Option Int) : Prog (Option Int × Option Int) :=
  bcastDataset v ret

/-- `scr_alltrue(b)`. -/
def scrAlltrue (b : Bool) : Prog Bool := allTrue b ret

/-- `scr_reddesc_apply`, which returns `ok` on the rank. -/
def scrReddescApply (ok : Bool) : Prog Bool := apply ok ret

/-- The `fetch_dir` a rank hands the first broadcast of `fetch_dir` it reaches, if any. -/
def firstDir : Prog α → Option Path
  | sync _ k => k.firstDir
  | bcastDir v _ => some v
  | _ => none

/-- What a rank that has returned returned. -/
def result : Prog α → Option α
  | ret a => some a
  | _ => none

/-- The rank's flag, when it waits in `scr_alltrue`. -/
def flag : Prog α → Bool
  | allTrue b _ => b
  | _ => true

/-- What the collective a rank waits in returns to it, rank 0 waiting in `root` and `all` being
the logical and of every rank's flag: the rest of the rank's program, or `none` when the rank
is not in a collective of the kind rank 0 is in. -/
def advance : Prog α → Prog α → Bool → Option (Prog α)
  | sync c k, sync c' _, _ => if c = c' then some k else none
  | bcastDir _ k, bcastDir v _, _ => some (k v)
  | bcastFlag _ k, bcastFlag v _, _ => some (k v)
  | bcastDataset _ k, bcastDataset v _, _ => some (k v)
  | allTrue _ k, allTrue _ _, all => some (k all)
  | apply ok k, apply _ _, _ => some (k ok)
  | _, _, _ => none

end Prog

/-- How a run of the job ends: every rank returned, or some rank waits in a collective that not
every rank joins, or the fuel ran out first. -/
inductive JobEnd (n : Nat) (α : Type)
  | done (res : Fin (n + 1) → α)
  | stuck
  | running

/-- The job of `n + 1` ranks, in lockstep, for `fuel` collectives at most. -/
def runJob {n : Nat} {α : Type} : Nat → (Fin (n + 1) → Prog α) → JobEnd n α
  | 0, _ => .running
  | fuel + 1, ps =>
    if h : ∀ r, (ps r).result.isSome then .done fun r => (ps r).result.get (h r)
    else
      let all := (List.finRange (n + 1)).all fun r => (ps r).flag
      if h' : ∀ r, ((ps r).advance (ps 0) all).isSome then
        runJob fuel fun r => ((ps r).advance (ps 0) all).get (h' r)
      else .stuck

/-- Two programs that call the same collectives whatever those return, the same
`scr_reddesc_apply` status included, and return the same value. -/
inductive Agree {α : Type} : Prog α → Prog α → Prop
  | ret (a : α) : Agree (.ret a) (.ret a)
  | sync (c : Coll) {k k' : Prog α} : Agree k k' → Agree (.sync c k) (.sync c k')
  | bcastDir {v v' : Path} {k k' : Path → Prog α} :
      (∀ x, Agree (k x) (k' x)) → Agree (.bcastDir v k) (.bcastDir v' k')
  | bcastFlag {v v' : Bool} {k k' : Bool → Prog α} :
      (∀ x, Agree (k x) (k' x)) → Agree (.bcastFlag v k) (.bcastFlag v' k')
  | bcastDataset {v v' : Option Int × Option Int} {k k' : Option Int × Option Int → Prog α} :
      (∀ x, Agree (k x) (k' x)) → Agree (.bcastDataset v k) (.bcastDataset v' k')
  | allTrue {b b' : Bool} {k k' : Bool → Prog α} :
      (∀ x, Agree (k x) (k' x)) → Agree (.allTrue b k) (.allTrue b' k')
  | apply (ok : Bool) {k k' : Bool → Prog α} :
      (∀ x, Agree (k x) (k' x)) → Agree (.apply ok k) (.apply ok k')

namespace Agree

variable {α β : Type}

/-- Agreeing programs followed by agreeing continuations agree. -/
theorem bind {p q : Prog α} {f g : α → Prog β} (h : Agree p q) (hf : ∀ a, Agree (f a) (g a)) :
    Agree (p.bind f) (q.bind g) := by
  induction h with
  | ret a => exact hf a
  | sync c _ ih => exact .sync c ih
  | bcastDir _ ih => exact .bcastDir ih
  | bcastFlag _ ih => exact .bcastFlag ih
  | bcastDataset _ ih => exact .bcastDataset ih
  | allTrue _ ih => exact .allTrue ih
  | apply ok _ ih => exact .apply ok ih

theorem bind' {p q : Prog α} {f g : α → Prog β} (h : Agree p q) (hf : ∀ a, Agree (f a) (g a)) :
    Agree (p >>= f) (q >>= g) :=
  h.bind hf

theorem collective (c : Coll) : Agree (Prog.collective c) (Prog.collective c) :=
  .sync c (.ret ())

theorem mpiBcastDir (v v' : Path) : Agree (Prog.mpiBcastDir v) (Prog.mpiBcastDir v') :=
  .bcastDir .ret

theorem mpiBcastFlag (v v' : Bool) : Agree (Prog.mpiBcastFlag v) (Prog.mpiBcastFlag v') :=
  .bcastFlag .ret

theorem hashBcastDataset (v v' : Option Int × Option Int) :
    Agree (Prog.hashBcastDataset v) (Prog.hashBcastDataset v') :=
  .bcastDataset .ret

theorem scrAlltrue (b b' : Bool) : Agree (Prog.scrAlltrue b) (Prog.scrAlltrue b') :=
  .allTrue .ret

theorem scrReddescApply (ok : Bool) : Agree (Prog.scrReddescApply ok) (Prog.scrReddescApply ok) :=
  .apply ok .ret

/-- Agreeing programs have returned, or not, together, with the same value. -/
theorem result_eq {p q : Prog α} (h : Agree p q) : q.result = p.result := by
  cases h <;> rfl

/-- A program that has not returned, and one that agrees with it, both go on through the
collective the first waits in, and what follows agrees. -/
theorem advance {p q : Prog α} (h : Agree p q) (hp : p.result = none) (all : Bool) :
    ∃ p' q', p.advance p all = some p' ∧ q.advance p all = some q' ∧ Agree p' q' := by
  cases h with
  | ret a => cases hp
  | sync c h => exact ⟨_, _, by simp [Prog.advance], by simp [Prog.advance], h⟩
  | bcastDir h => exact ⟨_, _, rfl, rfl, h _⟩
  | bcastFlag h => exact ⟨_, _, rfl, rfl, h _⟩
  | bcastDataset h => exact ⟨_, _, rfl, rfl, h _⟩
  | allTrue h => exact ⟨_, _, rfl, rfl, h _⟩
  | apply ok h => exact ⟨_, _, rfl, rfl, h _⟩

end Agree

/-- When every rank's program agrees with rank 0's, the job is never stuck, and a job that ends
ends with every rank returning what rank 0 returns. -/
theorem runJob_agree {n : Nat} {α : Type} :
    ∀ (fuel : Nat) (ps : Fin (n + 1) → Prog α), (∀ r, Agree (ps 0) (ps r)) →
      runJob fuel ps ≠ .stuck ∧ ∀ res, runJob fuel ps = .done res → ∀ r, res r = res 0
  | 0, _, _ => ⟨by simp [runJob], by simp [runJob]⟩
  | fuel + 1, ps, hagree => by
    cases h0 : (ps 0).result with
    | some a =>
      have hres : ∀ r, (ps r).result = some a := fun r => (hagree r).result_eq.trans h0
      have hall : ∀ r, (ps r).result.isSome := fun r => by simp [hres r]
      refine ⟨by simp [runJob, hall], fun res h r => ?_⟩
      simp only [runJob, hall, implies_true, dite_true, JobEnd.done.injEq] at h
      subst h
      simp [hres]
    | none =>
      have hnot : ¬∀ r, (ps r).result.isSome := fun h => by simpa [h0] using h 0
      let all := (List.finRange (n + 1)).all fun r => (ps r).flag
      have hadv : ∀ r, ((ps r).advance (ps 0) all).isSome := fun r => by
        obtain ⟨_, _, -, hq, -⟩ := (hagree r).advance h0 all
        simp [hq]
      have hnext : ∀ r, Agree (((ps 0).advance (ps 0) all).get (hadv 0))
          (((ps r).advance (ps 0) all).get (hadv r)) := fun r => by
        obtain ⟨p', q', hp, hq, h⟩ := (hagree r).advance h0 all
        simpa only [hp, hq, Option.get_some] using h
      simpa only [runJob, hnot, dite_false, hadv, implies_true, dite_true] using
        runJob_agree fuel (fun r => ((ps r).advance (ps 0) all).get (hadv r)) hnext

end ScrFetch
