import ScrFetch.Window.Moves

/-!
# A window width below 1 never returns

Lines 572–575 clamp `scr_fetch_width` from above by `scr_ranks_world - 1` and not from below.
With two or more ranks and a configured width `F ≤ 0`, rank 0 cannot post a single go flag
(`outstanding < w` fails with `outstanding = 0`), so it goes straight to `MPI_Waitany` over
`w ≤ 0` requests; that returns `MPI_UNDEFINED`, and the following `MPI_Wait(&req[index])`
reads outside the arrays. (When the `int` product `2 * w` is negative, `malloc` is asked for
at least `2^63` bytes and `scr_abort` fires even earlier.) `Stalled` is what holds until then:
nothing was posted, rank 0 is not in `scr_alltrue`, and no other rank can move.
-/

namespace ScrFetch.Window

variable {S : Setup} {s t : World}

/-- Nothing has been posted and rank 0 has not reached `scr_alltrue`. -/
def Stalled (S : Setup) (s : World) : Prop :=
  s.outstanding = 0 ∧ s.i < S.N ∧ s.pc ≠ .reduce ∧ ∀ b, s.pc ≠ .done b

theorem windowWidth_le (N : Nat) (F : Int) : windowWidth N F ≤ F := by
  unfold windowWidth; split <;> omega

/-- With `w ≤ 0`, only rank 0's program counter moves. -/
theorem stalled_step (hw : S.w ≤ 0) (hs : Stalled S s) {a : Act} (h : step S s a = some t) :
    Stalled S t := by
  obtain ⟨h0, hi, hr, hd⟩ := hs
  rcases step_cases h with ⟨p, x, hp, hpr, rfl⟩ | ⟨-, -, -, -, hlt, -⟩ |
    ⟨k, r, -, hk, hkw, -⟩ | ⟨r, j, -, -, -, hj, hjw, -⟩ | ⟨r, j, v, -, -, -, hj, hjw, -⟩ |
    ⟨hpc, -⟩
  · exact ⟨h0, hi, fun he => by have := (hpr he).1; omega, hp⟩
  · omega
  · omega
  · omega
  · omega
  · exact absurd hpc hr

/-- With `scr_fetch_width ≤ 0`, a run from a stalled state stays stalled. -/
theorem run_stalled (hF : S.F ≤ 0) :
    ∀ (acts : List Act) {s : World}, run S s acts = some t → Stalled S s → Stalled S t := by
  have hw : S.w ≤ 0 := by have := windowWidth_le S.N S.F; unfold Setup.w; omega
  intro acts
  induction acts with
  | nil => intro s h hs; cases h; exact hs
  | cons a as ih =>
    intro s h hs
    obtain ⟨u, hu, ht⟩ := Option.bind_eq_some.mp h
    exact ih ht (stalled_step hw hs hu)

/-- `scr_fetch_width = 0` on two ranks: rank 0's three moves end past `MPI_Waitany` with
`index = MPI_UNDEFINED` (line 608) in undefined behaviour, and under no schedule and no fetch
outcome does any run of `scr_fetch_data` return. -/
theorem scrFetchData_zero_width_faults (out : Nat → Bool) :
    ((scrFetchData ⟨2, 0, out, by decide⟩ [.root 0, .root 0, .root 0]).map
        fun s => (s.pc, s.index)) = some (.fault, mpiUndefined) ∧
    ∀ (acts : List Act) (b : Bool),
      ((scrFetchData ⟨2, 0, out, by decide⟩ acts).map (·.pc)) ≠ some (.done b) := by
  refine ⟨rfl, fun acts b h => ?_⟩
  obtain ⟨s, hs, hpc⟩ := Option.map_eq_some'.mp h
  exact (run_stalled (Int.le_refl 0) acts hs
    ⟨rfl, Nat.one_lt_two, by simp [init], by simp [init]⟩).2.2.2 b hpc

end ScrFetch.Window
