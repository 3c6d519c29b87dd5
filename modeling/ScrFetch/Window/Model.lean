import Mathlib.Logic.Function.Basic
import Mathlib.Algebra.Group.Int

/-!
# The flow-control window of `scr_fetch_data`

`scr_fetch_data` (`src/src/scr_fetch.c`, lines 560–647) has rank 0 fetch its own files and then
let at most `w = min(scr_fetch_width, scr_ranks_world - 1)` other ranks read the parallel file
system at a time. Rank 0 keeps `2w` request slots: `req[0..w)` hold the non-blocking sends of
the "go" flags `flags[0..w)`, `req[w..2w)` the non-blocking receives of the replies into
`flags[w..2w)`. Every other rank blocks in `MPI_Recv` for its go flag, fetches its files only
if the flag is `SCR_SUCCESS`, and answers with `MPI_Send`; then all ranks meet in `scr_alltrue`.

The model is the system, not one rank: a `World` holds rank 0's loop variables and request
slots, every other rank's position in its three calls, and a ghost event log. `step` is one
move of one party, labelled by an `Act`; `none` means the move is blocked. Every interleaving
of the ranks, and so every completion order of the posted receives, is a list of actions.

Mirroring notes vs the C source:
- `MPI_Waitany`, the `MPI_Wait(&req[index])` after it and the flag check are one rank-0 move,
  enabled once the chosen receive and the send in the same slot have both completed. A `Wait`
  that would block is a blocked move, so a deadlock there is still a state with no move.
- A non-zero rank's `MPI_Recv`, its call of `scr_fetch_files_list` and the update of its
  `success` are one move; the call's result on rank `r` is the parameter `out r`.
- A message is matched when the receiving side moves: an `Isend` completes when its rank
  receives it, an `Irecv` when the rank's `MPI_Send` is matched to it.
- Reading a `req[]` entry never written since `malloc`, or indexing outside `[0, 2w)`, is
  undefined behaviour: the model stops in `fault`. `malloc` returning `NULL` stops in `abort`.
- Flags are `Bool`, `true` for `SCR_SUCCESS`: the code only ever stores the two status values.
-/

namespace ScrFetch.Window

/-- The inputs of one `scr_fetch_data` call: `scr_ranks_world` (at least 1, as for any MPI
communicator), the configured `scr_fetch_width`, and what `scr_fetch_files_list` returns on
each rank (`true` is `SCR_SUCCESS`). -/
structure Setup where
  N : Nat
  F : Int
  out : Nat → Bool
  N_pos : 0 < N

/-- `w` of lines 572–575: the configured width, clamped from above by `scr_ranks_world - 1`
and from below not at all. -/
def windowWidth (N : Nat) (F : Int) : Int :=
  if F > (N : Int) - 1 then (N : Int) - 1 else F

/-- The window width of a setup. -/
def Setup.w (S : Setup) : Int := windowWidth S.N S.F

/-- `MPI_UNDEFINED` as MPICH defines it: what `MPI_Waitany` stores into `index` when none of
its requests is active. -/
def mpiUndefined : Int := -32766

/-- `malloc(2 * w * sizeof(int))` fails exactly when the `int` product `2 * w` is negative:
converted to `size_t` it asks for at least `2^63` bytes. -/
def allocFails (w : Int) : Bool := decide (Int.bmod (2 * w) (2 ^ 32) < 0)

/-- An entry of `req[]`: never written since `malloc`, `MPI_REQUEST_NULL`, or an active send
to / receive from a rank, `done` once the matching operation has completed. -/
inductive Req
  | uninit
  | null
  | send (r : Nat) (done : Bool)
  | recv (r : Nat) (done : Bool)
  deriving DecidableEq, Repr

/-- Whether `MPI_Wait` on the request returns (`some true`), blocks (`some false`) or reads
an unwritten handle (`none`). -/
def Req.waitDone : Req → Option Bool
  | .uninit => none
  | .null => some true
  | .send _ d => some d
  | .recv _ d => some d

/-- Requests `MPI_Waitany` waits on. -/
def Req.active : Req → Bool
  | .send _ _ | .recv _ _ => true
  | _ => false

/-- Rank 0's position: before the `malloc`s, at the loop heads of lines 591/593, in
`MPI_Waitany`, in `scr_alltrue`, returned with `res`, aborted, or past undefined behaviour. -/
inductive Pc
  | alloc | head | waitany | reduce | done (res : Bool) | abort | fault
  deriving DecidableEq, Repr

/-- A non-zero rank's position: in `MPI_Recv`, about to `MPI_Send` its `success`, in
`scr_alltrue` with it, or returned with `res`. -/
inductive Rank
  | recv | send (v : Bool) | reduce (v : Bool) | done (res : Bool)
  deriving DecidableEq, Repr

/-- Ghost events, in the order they happen: rank 0 sends go flag `go` to rank `r`; rank `r`
receives go flag `go`; rank `r` calls `scr_fetch_files_list` and gets `ok`; rank 0 consumes
rank `r`'s reply `v`. -/
inductive Ev
  | post (r : Nat) (go : Bool)
  | recv (r : Nat) (go : Bool)
  | call (r : Nat) (ok : Bool)
  | consume (r : Nat) (v : Bool)
  deriving DecidableEq, Repr

/-- The state of all ranks inside `scr_fetch_data`. -/
structure World where
  pc : Pc
  i : Nat
  outstanding : Int
  index : Int
  success : Bool
  flags : Int → Bool
  req : Int → Req
  rank : Nat → Rank
  log : List Ev

/-- A move: rank 0's next statement (`k` is the slot its `MPI_Waitany` returns), rank `r`'s
next call, or the collective `scr_alltrue`. -/
inductive Act
  | root (k : Nat)
  | rank (r : Nat)
  | alltrue
  deriving DecidableEq, Repr

variable (S : Setup)

/-- Entry to the window: rank 0 has run `scr_fetch_files_list` (lines 562–569). -/
def init : World where
  pc := .alloc
  i := 1
  outstanding := 0
  index := 0
  success := S.out 0
  flags := fun _ => false
  req := fun _ => .uninit
  rank := fun _ => .recv
  log := [.call 0 (S.out 0)]

/-- Lines 595–604, one pass of the inner loop: post the receive of rank `i`'s reply in slot
`index + w`, copy `success` into `flags[index]` and send it to rank `i` from slot `index`. -/
def post (s : World) (w : Int) : World :=
  { s with
    req := Function.update (Function.update s.req (s.index + w) (.recv s.i false))
      s.index (.send s.i false)
    flags := Function.update s.flags s.index s.success
    outstanding := s.outstanding + 1
    index := s.index + 1
    i := s.i + 1
    log := s.log ++ [.post s.i s.success] }

/-- Lines 608–619 once the receive in slot `w + k` (from rank `r`) has completed: `index`
becomes `k`, both requests of the slot are freed and the reply is folded into `success`. -/
def consume (s : World) (w k : Int) (r : Nat) : World :=
  { s with
    req := Function.update (Function.update s.req (w + k) .null) k .null
    success := s.success && s.flags (w + k)
    outstanding := s.outstanding - 1
    index := k
    pc := .head
    log := s.log ++ [.consume r (s.flags (w + k))] }

/-- Rank 0's next move (lines 572–620). -/
def rootStep (s : World) (k : Nat) : Option World :=
  let w := S.w
  match s.pc with
  | .alloc => some { s with pc := if allocFails w then .abort else .head }
  | .head =>
    if s.i < S.N ∧ s.outstanding < w then
      some (if 0 ≤ s.index ∧ s.index < w then post s w else { s with pc := .fault })
    else if s.i < S.N ∨ 0 < s.outstanding then some { s with pc := .waitany }
    else some { s with pc := .reduce }
  | .waitany =>
    let slots := (List.range w.toNat).map fun (j : Nat) => s.req (w + j)
    if slots.any (· == .uninit) then some { s with pc := .fault }
    else if !slots.any Req.active then some { s with index := mpiUndefined, pc := .fault }
    else if (k : Int) < w then
      match s.req (w + k) with
      | .recv r true =>
        match (s.req k).waitDone with
        | some true => some (consume s w k r)
        | some false => none
        | none => some { s with pc := .fault }
      | _ => none
    else none
  | _ => none

/-- Line 628, then 631–636: rank `r` receives the go flag of send slot `j` and fetches its
files only if the flag is `SCR_SUCCESS`. -/
def deliver (s : World) (r : Nat) (j : Int) : World :=
  { s with
    req := Function.update s.req j (.send r true)
    rank := Function.update s.rank r (.send (s.flags j && S.out r))
    log := s.log ++ .recv r (s.flags j) :: if s.flags j then [.call r (S.out r)] else [] }

/-- Line 639: rank `r`'s `MPI_Send` of `v` completes the receive in reply slot `j`. -/
def reply (s : World) (r : Nat) (j : Int) (v : Bool) : World :=
  { s with
    flags := Function.update s.flags j v
    req := Function.update s.req j (.recv r true)
    rank := Function.update s.rank r (.reduce v) }

/-- Rank `r`'s next move (lines 626–639), for `0 < r < scr_ranks_world`: its `MPI_Recv`
matches the send pending for it, its `MPI_Send` the receive posted for it. -/
def rankStep (s : World) (r : Nat) : Option World :=
  if 1 ≤ r ∧ r < S.N then
    match s.rank r with
    | .recv =>
      ((List.range S.w.toNat).find? fun (j : Nat) => s.req j == .send r false).map
        fun (j : Nat) => deliver S s r j
    | .send v =>
      ((List.range S.w.toNat).find? fun (j : Nat) => s.req (S.w + j) == .recv r false).map
        fun (j : Nat) => reply s r (S.w + j) v
    | _ => none
  else none

/-- Whether a rank waits in `scr_alltrue`. -/
def Rank.isReduce : Rank → Bool
  | .reduce _ => true
  | _ => false

/-- Line 643, `scr_alltrue`, returning `res` on every rank. -/
def finish (s : World) (res : Bool) : World :=
  { s with
    pc := .done res
    rank := fun r => if 1 ≤ r ∧ r < S.N then .done res else s.rank r }

/-- `scr_alltrue`: once rank 0 and every other rank wait in it, each returns the conjunction
of their `success` values. -/
def alltrue (s : World) : Option World :=
  let others := List.range' 1 (S.N - 1)
  match s.pc with
  | .reduce =>
    if others.all fun r => (s.rank r).isReduce then
      some (finish S s (s.success && others.all fun r => s.rank r == .reduce true))
    else none
  | _ => none

/-- One move of the system. -/
def step (s : World) : Act → Option World
  | .root k => rootStep S s k
  | .rank r => rankStep S s r
  | .alltrue => alltrue S s

/-- A run: the moves in order, `none` as soon as one is blocked. -/
def run : World → List Act → Option World
  | s, [] => some s
  | s, a :: as => (step S s a).bind fun t => run t as

/-- `scr_fetch_data` on all ranks, under the schedule `acts`. -/
def scrFetchData (acts : List Act) : Option World := run S (init S) acts

end ScrFetch.Window
