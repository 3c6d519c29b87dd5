import ScrFetch.Window.Model

/-!
# What one move of the window can do

Every invariant of the window is proved move by move, and no proof unfolds `step` again:
`rootStep_cases`, `rankStep_cases` and `alltrue_cases` list each party's moves with the guards
under which they are taken, and `step_cases` groups them into the six shapes a move can take.
Four of them are the moves that matter (`post`, `consume`, `deliver`, `reply`), one is the
collective `finish`, and the rest only move rank 0's program counter (and, for `MPI_Waitany`
over no active request, set `index` to `MPI_UNDEFINED`), never to `done`.
-/

namespace ScrFetch.Window

variable {S : Setup} {s t : World}

@[simp] theorem post_log (w : Int) : (post s w).log = s.log ++ [.post s.i s.success] := rfl
@[simp] theorem post_rank (w : Int) : (post s w).rank = s.rank := rfl
@[simp] theorem post_success (w : Int) : (post s w).success = s.success := rfl
@[simp] theorem post_pc (w : Int) : (post s w).pc = s.pc := rfl
@[simp] theorem post_i (w : Int) : (post s w).i = s.i + 1 := rfl
@[simp] theorem post_outstanding (w : Int) : (post s w).outstanding = s.outstanding + 1 := rfl
@[simp] theorem post_index (w : Int) : (post s w).index = s.index + 1 := rfl
@[simp] theorem consume_log (w k : Int) (r : Nat) :
    (consume s w k r).log = s.log ++ [.consume r (s.flags (w + k))] := rfl
@[simp] theorem consume_rank (w k : Int) (r : Nat) : (consume s w k r).rank = s.rank := rfl
@[simp] theorem consume_flags (w k : Int) (r : Nat) : (consume s w k r).flags = s.flags := rfl
@[simp] theorem consume_pc (w k : Int) (r : Nat) : (consume s w k r).pc = .head := rfl
@[simp] theorem consume_i (w k : Int) (r : Nat) : (consume s w k r).i = s.i := rfl
@[simp] theorem consume_outstanding (w k : Int) (r : Nat) :
    (consume s w k r).outstanding = s.outstanding - 1 := rfl
@[simp] theorem consume_index (w k : Int) (r : Nat) : (consume s w k r).index = k := rfl
@[simp] theorem deliver_pc (r : Nat) (j : Int) : (deliver S s r j).pc = s.pc := rfl
@[simp] theorem deliver_flags (r : Nat) (j : Int) : (deliver S s r j).flags = s.flags := rfl
@[simp] theorem deliver_success (r : Nat) (j : Int) : (deliver S s r j).success = s.success := rfl
@[simp] theorem deliver_index (r : Nat) (j : Int) : (deliver S s r j).index = s.index := rfl
@[simp] theorem reply_pc (r : Nat) (j : Int) (v : Bool) : (reply s r j v).pc = s.pc := rfl
@[simp] theorem reply_log (r : Nat) (j : Int) (v : Bool) : (reply s r j v).log = s.log := rfl
@[simp] theorem reply_success (r : Nat) (j : Int) (v : Bool) :
    (reply s r j v).success = s.success := rfl
@[simp] theorem reply_index (r : Nat) (j : Int) (v : Bool) : (reply s r j v).index = s.index := rfl
@[simp] theorem finish_pc (res : Bool) : (finish S s res).pc = .done res := rfl
@[simp] theorem finish_log (res : Bool) : (finish S s res).log = s.log := rfl
@[simp] theorem finish_req (res : Bool) : (finish S s res).req = s.req := rfl
@[simp] theorem finish_flags (res : Bool) : (finish S s res).flags = s.flags := rfl
@[simp] theorem finish_success (res : Bool) : (finish S s res).success = s.success := rfl

/-- A slot found by `List.find?` over `[0, w)` lies in `[0, w)`. -/
theorem find_slot {w : Int} {p : Nat → Bool} {j : Nat}
    (h : (List.range w.toNat).find? p = some j) : p j = true ∧ 0 ≤ (j : Int) ∧ (j : Int) < w := by
  have hj := List.mem_range.mp (List.mem_of_find?_eq_some h)
  exact ⟨List.find?_some h, by omega, by omega⟩

/-- The result of `scr_alltrue` when it fires. -/
def alltrueRes (S : Setup) (s : World) : Bool :=
  s.success && (List.range' 1 (S.N - 1)).all fun r => s.rank r == .reduce true

/-- Every move of rank 0, with the guard it is taken under: the `malloc`s, a post, a post with
`index` outside `[0, w)`, the choice between `MPI_Waitany` and `scr_alltrue` at the loop head,
each way `MPI_Waitany` and the `MPI_Wait` after it read an unwritten or absent request, and the
consumption of a reply. -/
theorem rootStep_cases {k : Nat} (h : rootStep S s k = some t) :
    (s.pc = .alloc ∧ t = { s with pc := if allocFails S.w then .abort else .head }) ∨
    (s.pc = .head ∧ s.i < S.N ∧ s.outstanding < S.w ∧ 0 ≤ s.index ∧ s.index < S.w ∧
      t = post s S.w) ∨
    (s.pc = .head ∧ s.i < S.N ∧ s.outstanding < S.w ∧ ¬(0 ≤ s.index ∧ s.index < S.w) ∧
      t = { s with pc := .fault }) ∨
    (s.pc = .head ∧ ¬(s.i < S.N ∧ s.outstanding < S.w) ∧
      t = { s with pc := if s.i < S.N ∨ 0 < s.outstanding then .waitany else .reduce }) ∨
    (s.pc = .waitany ∧ (∃ j : Nat, (j : Int) < S.w ∧ s.req (S.w + j) = .uninit) ∧
      t = { s with pc := .fault }) ∨
    (s.pc = .waitany ∧ (∀ j : Nat, (j : Int) < S.w → (s.req (S.w + j)).active = false) ∧
      t = { s with index := mpiUndefined, pc := .fault }) ∨
    (s.pc = .waitany ∧ ∃ r, (k : Int) < S.w ∧ s.req (S.w + k) = .recv r true ∧
      (s.req k).waitDone = none ∧ t = { s with pc := .fault }) ∨
    (s.pc = .waitany ∧ ∃ r, (k : Int) < S.w ∧ s.req (S.w + k) = .recv r true ∧
      (s.req k).waitDone = some true ∧ t = consume s S.w k r) := by
  unfold rootStep at h
  split at h
  · exact .inl ⟨‹_›, (Option.some.inj h).symm⟩
  · dsimp only at h
    by_cases hg : s.i < S.N ∧ s.outstanding < S.w
    · rw [if_pos hg] at h
      by_cases hidx : 0 ≤ s.index ∧ s.index < S.w
      · rw [if_pos hidx] at h
        exact .inr (.inl ⟨‹_›, hg.1, hg.2, hidx.1, hidx.2, (Option.some.inj h).symm⟩)
      · rw [if_neg hidx] at h
        exact .inr (.inr (.inl ⟨‹_›, hg.1, hg.2, hidx, (Option.some.inj h).symm⟩))
    · rw [if_neg hg] at h
      refine .inr (.inr (.inr (.inl ⟨‹_›, hg, ?_⟩)))
      split_ifs at h ⊢ <;> exact (Option.some.inj h).symm
  · rename_i hpc
    dsimp only at h
    by_cases hu : ((List.range S.w.toNat).map fun (j : Nat) => s.req (S.w + j)).any (· == .uninit)
    · rw [if_pos hu] at h
      obtain ⟨_, hm, he⟩ := List.any_eq_true.1 hu
      obtain ⟨j, hj, rfl⟩ := List.mem_map.1 hm
      refine .inr (.inr (.inr (.inr (.inl ⟨hpc, ⟨j, ?_, beq_iff_eq.1 he⟩,
        (Option.some.inj h).symm⟩))))
      have := List.mem_range.1 hj
      omega
    rw [if_neg hu] at h
    by_cases ha :
        (!((List.range S.w.toNat).map fun (j : Nat) => s.req (S.w + j)).any Req.active) = true
    · rw [if_pos ha] at h
      refine .inr (.inr (.inr (.inr (.inr (.inl ⟨hpc, fun j hj => ?_,
        (Option.some.inj h).symm⟩)))))
      rw [Bool.not_eq_true', List.any_eq_false] at ha
      simpa using ha _ (List.mem_map.2 ⟨j, List.mem_range.2 (by omega), rfl⟩)
    rw [if_neg ha] at h
    by_cases hk : (k : Int) < S.w
    · rw [if_pos hk] at h
      split at h
      · rename_i r hr
        split at h
        · exact .inr (.inr (.inr (.inr (.inr (.inr (.inr ⟨hpc, r, hk, hr, ‹_›,
            (Option.some.inj h).symm⟩))))))
        · cases h
        · exact .inr (.inr (.inr (.inr (.inr (.inr (.inl ⟨hpc, r, hk, hr, ‹_›,
            (Option.some.inj h).symm⟩))))))
      · cases h
    · rw [if_neg hk] at h
      cases h
  · cases h

/-- Every move of a rank other than 0: receiving its go flag from a send slot, or matching its
reply to the receive posted for it. -/
theorem rankStep_cases {r : Nat} (h : rankStep S s r = some t) :
    1 ≤ r ∧ r < S.N ∧
      ((s.rank r = .recv ∧ ∃ j : Nat, (j : Int) < S.w ∧ s.req j = .send r false ∧
          t = deliver S s r j) ∨
        ∃ v, s.rank r = .send v ∧ ∃ j : Nat, (j : Int) < S.w ∧ s.req (S.w + j) = .recv r false ∧
          t = reply s r (S.w + j) v) := by
  unfold rankStep at h
  split_ifs at h with hr
  split at h
  · obtain ⟨j, hj, rfl⟩ := Option.map_eq_some'.mp h
    obtain ⟨hp, -, hjw⟩ := find_slot hj
    exact ⟨hr.1, hr.2, .inl ⟨‹_›, j, hjw, by simpa using hp, rfl⟩⟩
  · obtain ⟨j, hj, rfl⟩ := Option.map_eq_some'.mp h
    obtain ⟨hp, -, hjw⟩ := find_slot hj
    exact ⟨hr.1, hr.2, .inr ⟨_, ‹_›, j, hjw, by simpa using hp, rfl⟩⟩
  · cases h

/-- `scr_alltrue` fires once rank 0 and every other rank wait in it. -/
theorem alltrue_cases (h : alltrue S s = some t) :
    s.pc = .reduce ∧ (∀ r ∈ List.range' 1 (S.N - 1), (s.rank r).isReduce) ∧
      t = finish S s (alltrueRes S s) := by
  unfold alltrue at h
  split at h
  · dsimp only at h
    split_ifs at h with hall
    cases h
    exact ⟨‹_›, List.all_eq_true.mp hall, rfl⟩
  · cases h

/-- Everything one move can do. -/
theorem step_cases {a : Act} (h : step S s a = some t) :
    (∃ p x, (∀ b, p ≠ .done b) ∧ (p = .reduce → S.N ≤ s.i ∧ s.outstanding ≤ 0) ∧
      t = { s with pc := p, index := x }) ∨
    (s.pc = .head ∧ 0 ≤ s.index ∧ s.index < S.w ∧ s.i < S.N ∧ s.outstanding < S.w ∧
      t = post s S.w) ∨
    (∃ k r, s.pc = .waitany ∧ 0 ≤ k ∧ k < S.w ∧ s.req (S.w + k) = .recv r true ∧
      (s.req k).waitDone = some true ∧ t = consume s S.w k r) ∨
    (∃ r j, 1 ≤ r ∧ r < S.N ∧ s.rank r = .recv ∧ 0 ≤ j ∧ j < S.w ∧
      s.req j = .send r false ∧ t = deliver S s r j) ∨
    (∃ r j v, 1 ≤ r ∧ r < S.N ∧ s.rank r = .send v ∧ 0 ≤ j ∧ j < S.w ∧
      s.req (S.w + j) = .recv r false ∧ t = reply s r (S.w + j) v) ∨
    (s.pc = .reduce ∧ (∀ r ∈ List.range' 1 (S.N - 1), (s.rank r).isReduce) ∧
      t = finish S s (alltrueRes S s)) := by
  have quiet : ∀ p x, (∀ b, p ≠ .done b) → (p = .reduce → S.N ≤ s.i ∧ s.outstanding ≤ 0) →
      t = { s with pc := p, index := x } →
      (∃ p x, (∀ b, p ≠ .done b) ∧ (p = .reduce → S.N ≤ s.i ∧ s.outstanding ≤ 0) ∧
        t = { s with pc := p, index := x }) :=
    fun p x hp hr ht => ⟨p, x, hp, hr, ht⟩
  cases a with
  | root k =>
    rcases rootStep_cases h with ⟨-, rfl⟩ | ⟨hpc, hi, ho, hx0, hxw, rfl⟩ | ⟨-, -, -, -, rfl⟩ |
      ⟨-, -, rfl⟩ | ⟨-, -, rfl⟩ | ⟨-, -, rfl⟩ | ⟨-, -, -, -, -, rfl⟩ | ⟨hpc, r, hk, hr, hd, rfl⟩
    · exact .inl (quiet _ s.index (by split <;> simp) (by split <;> simp) rfl)
    · exact .inr (.inl ⟨hpc, hx0, hxw, hi, ho, rfl⟩)
    · exact .inl (quiet .fault s.index (by simp) (by simp) rfl)
    · refine .inl (quiet _ s.index (by split <;> simp) (fun h => ?_) rfl)
      by_cases hc : s.i < S.N ∨ 0 < s.outstanding
      · rw [if_pos hc] at h
        cases h
      · exact ⟨by omega, by omega⟩
    · exact .inl (quiet .fault s.index (by simp) (by simp) rfl)
    · exact .inl (quiet .fault mpiUndefined (by simp) (by simp) rfl)
    · exact .inl (quiet .fault s.index (by simp) (by simp) rfl)
    · exact .inr (.inr (.inl ⟨k, r, hpc, by omega, hk, hr, hd, rfl⟩))
  | rank r =>
    obtain ⟨h1, hN, ⟨hrk, j, hj, hreq, rfl⟩ | ⟨v, hrk, j, hj, hreq, rfl⟩⟩ := rankStep_cases h
    · exact .inr (.inr (.inr (.inl ⟨r, j, h1, hN, hrk, by omega, hj, hreq, rfl⟩)))
    · exact .inr (.inr (.inr (.inr (.inl ⟨r, j, v, h1, hN, hrk, by omega, hj, hreq, rfl⟩))))
  | alltrue => exact .inr (.inr (.inr (.inr (.inr (alltrue_cases h)))))

end ScrFetch.Window
