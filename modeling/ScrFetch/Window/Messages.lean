import Mathlib
import ScrFetch.Window.Liveness

/-!
# No go flag or reply is lost or duplicated

The ghost log of the window records the messages of `scr_fetch_data`: rank 0's `MPI_Isend` of a
go flag (`post`), a rank's `MPI_Recv` of it (`recv`), and rank 0's use of a reply after
`MPI_Waitany` (`consume`). `Tally` counts them against the state, in every state a run with a
width of at least 1 reaches: the go flags went out to ranks `1, 2, ..., i - 1` in that order; a
rank received one go flag exactly when it has left its `MPI_Recv`; and rank 0 consumed one reply
from each rank it posted to whose exchange no longer holds a slot, and none from any other.

> `scrFetchData_exactly_once`: in every run that returns, rank 0 sent one go flag to each other
> rank, in rank order; each rank received exactly one; and rank 0 consumed exactly one reply from
> each.

Each move's effect on the slots comes from `Window.Liveness` (`inFlight_post`,
`inFlight_consume`, `Advance.inFlight`), so the counting below only follows the log.
-/

namespace ScrFetch.Window

/-- The rank a go flag was sent to. -/
def Ev.postTo : Ev → Option Nat
  | .post r _ => some r
  | _ => none

/-- Whether the event is rank `r`'s `MPI_Recv` of its go flag. -/
def Ev.isRecv (r : Nat) : Ev → Bool
  | .recv r' _ => r' == r
  | _ => false

/-- Whether the event is rank 0's consumption of rank `r`'s reply. -/
def Ev.isConsume (r : Nat) : Ev → Bool
  | .consume r' _ => r' == r
  | _ => false

/-- Rank `r`'s exchange holds a slot. -/
def Busy (S : Setup) (s : World) (r : Nat) : Prop := ∃ j, InFlight S s r j

/-- The messages of the log, counted against the state. -/
structure Tally (S : Setup) (s : World) : Prop where
  posts : s.log.filterMap Ev.postTo = List.range' 1 (s.i - 1)
  recvs : ∀ r, s.log.countP (Ev.isRecv r) = if s.rank r = .recv then 0 else 1
  consumes : ∀ r, 1 ≤ r →
    s.log.countP (Ev.isConsume r) = 0 ∧ (r < s.i → Busy S s r) ∨
      s.log.countP (Ev.isConsume r) = 1 ∧ r < s.i ∧ ¬Busy S s r
  done : ∀ b, s.pc = .done b → S.N ≤ s.i ∧ s.outstanding ≤ 0

variable {S : Setup} {s t : World}

/-- A move that adds no consumption, keeps `i` and moves no exchange in or out of a slot keeps
the consumption count. -/
theorem consumes_congr {r : Nat} (hc : t.log.countP (Ev.isConsume r) = s.log.countP (Ev.isConsume r))
    (hi : t.i = s.i) (hb : Busy S t r ↔ Busy S s r)
    (h : s.log.countP (Ev.isConsume r) = 0 ∧ (r < s.i → Busy S s r) ∨
      s.log.countP (Ev.isConsume r) = 1 ∧ r < s.i ∧ ¬Busy S s r) :
    t.log.countP (Ev.isConsume r) = 0 ∧ (r < t.i → Busy S t r) ∨
      t.log.countP (Ev.isConsume r) = 1 ∧ r < t.i ∧ ¬Busy S t r := by
  rw [hc, hi, hb]
  exact h

theorem tally_init : Tally S (init S) where
  posts := rfl
  recvs r := by simp [init, Ev.isRecv]
  consumes r h1 := .inl ⟨by simp [init, Ev.isConsume], fun h => by simp [init] at h; omega⟩
  done b h := by cases h

theorem tally_quiet (ht : Tally S s) {p : Pc} (x : Int) (hp : ∀ b, p ≠ .done b) :
    Tally S { s with pc := p, index := x } :=
  { ht with done := fun b h => absurd h (hp b) }

theorem tally_post (hl : Live S s) (ht : Tally S s) (hpc : s.pc = .head) (hi : s.i < S.N)
    (ho : s.outstanding < S.w) (h0 : 0 ≤ s.index) (hw : s.index < S.w) :
    Tally S (post s S.w) := by
  obtain ⟨x, hx⟩ := Int.eq_ofNat_of_zero_le h0
  have hbusy : ∀ r, Busy S (post s S.w) r ↔ Busy S s r ∨ r = s.i := fun r => by
    simp only [Busy, inFlight_post hl hpc hi ho hx hw, exists_or, exists_and_left, exists_eq,
      and_true]
  obtain ⟨k, hk⟩ : ∃ k, s.i = k + 1 := ⟨s.i - 1, by have := hl.i_pos; omega⟩
  refine ⟨?_, fun r => ?_, fun r h1 => ?_, fun b h => by simp [hpc] at h⟩
  · rw [post_log, List.filterMap_append, ht.posts, post_i, hk, Nat.add_sub_cancel,
      Nat.add_sub_cancel, List.range'_concat]
    simp [Ev.postTo]
    omega
  · simp [Ev.isRecv, ht.recvs r]
  · have hc : (post s S.w).log.countP (Ev.isConsume r) = s.log.countP (Ev.isConsume r) := by
      simp [Ev.isConsume]
    rw [hc, post_i, hbusy]
    rcases ht.consumes r h1 with ⟨h, hb⟩ | ⟨h, hr, hb⟩
    · refine .inl ⟨h, fun hr => ?_⟩
      rcases Nat.lt_succ_iff_lt_or_eq.1 hr with hr | hr
      · exact .inl (hb hr)
      · exact .inr hr
    · exact .inr ⟨h, by omega, by rintro (h | h) <;> [exact hb h; omega]⟩

theorem tally_consume (hl : Live S s) (ht : Tally S s) {x r : Nat}
    (hxw : (x : Int) < S.w) (hr : s.req (S.w + x) = .recv r true) :
    Tally S (consume s S.w x r) := by
  have hf := hl.of_recv hxw hr
  have hbusy : ∀ r', Busy S (consume s S.w x r) r' ↔ Busy S s r' ∧ r' ≠ r := fun r' => by
    simp only [Busy, inFlight_consume hl hxw hr, exists_and_right]
  refine ⟨?_, fun r' => ?_, fun r' h1 => ?_, fun b h => by simp at h⟩
  · simp [Ev.postTo, ht.posts]
  · simp [Ev.isRecv, ht.recvs r']
  · by_cases hr' : r' = r
    · subst hr'
      have hc : (consume s S.w x r').log.countP (Ev.isConsume r') =
          s.log.countP (Ev.isConsume r') + 1 := by simp [Ev.isConsume]
      rcases ht.consumes r' h1 with ⟨h, -⟩ | ⟨-, -, hb⟩
      · refine .inr ⟨by rw [hc, h], (hl.bounds hf).2, fun hb => ?_⟩
        exact ((hbusy r').1 hb).2 rfl
      · exact absurd ⟨x, hf⟩ hb
    · refine consumes_congr (s := s) (t := consume s S.w x r) ?_ rfl
        ((hbusy r').trans (and_iff_left hr')) (ht.consumes r' h1)
      simp [Ev.isConsume, Ne.symm hr']

/-- Rank `r`'s `MPI_Recv` adds the one receive of its go flag, and possibly its call of
`scr_fetch_files_list`. -/
theorem tally_deliver (hl : Live S s) (ht : Tally S s) {r x : Nat} (hrk : s.rank r = .recv)
    (hxw : (x : Int) < S.w) (hreq : s.req x = .send r false) : Tally S (deliver S s r x) := by
  have ha := advance_deliver hl hrk hxw hreq
  have hlog : (deliver S s r x).log =
      s.log ++ .recv r (s.flags x) :: if s.flags x then [.call r (S.out r)] else [] := rfl
  refine ⟨?_, fun r' => ?_, fun r' h1 => ?_, fun b h => ht.done b h⟩
  · rw [hlog, List.filterMap_append]
    split <;> simp [Ev.postTo, ht.posts] <;> rfl
  · have hrank : (deliver S s r x).rank r' = if r' = r then .send (s.flags x && S.out r)
        else s.rank r' := Function.update_apply _ _ _ _
    rw [hlog, hrank]
    by_cases hr' : r' = r
    · subst hr'
      split <;> simp [Ev.isRecv, ht.recvs r', hrk]
    · split <;> simp [Ev.isRecv, ht.recvs r', hr', Ne.symm hr']
  · refine consumes_congr (s := s) (t := deliver S s r x) ?_ rfl
      (exists_congr fun j => ha.inFlight hl) (ht.consumes r' h1)
    rw [hlog]
    split <;> simp [Ev.isConsume]

/-- Rank `r`'s `MPI_Send` adds no message to the log that rank 0 has seen. -/
theorem tally_reply (hl : Live S s) (ht : Tally S s) {r x : Nat} {v : Bool}
    (hrk : s.rank r = .send v) (hxw : (x : Int) < S.w) (hreq : s.req (S.w + x) = .recv r false) :
    Tally S (reply s r (S.w + x) v) := by
  have ha := advance_reply hl hrk hxw hreq
  refine ⟨ht.posts, fun r' => ?_, fun r' h1 => ?_, ht.done⟩
  · have hrank : (reply s r (S.w + x) v).rank r' = if r' = r then .reduce v else s.rank r' :=
      Function.update_apply _ _ _ _
    rw [reply_log, hrank, ht.recvs r']
    by_cases hr' : r' = r
    · subst hr'
      simp [hrk]
    · rw [if_neg hr']
  · exact consumes_congr (s := s) (t := reply s r (S.w + x) v) rfl rfl
      (exists_congr fun j => ha.inFlight hl) (ht.consumes r' h1)

/-- `scr_alltrue` fires with every exchange over. -/
theorem tally_finish (hl : Live S s) (ht : Tally S s) (hpc : s.pc = .reduce)
    (hall : ∀ r ∈ List.range' 1 (S.N - 1), (s.rank r).isReduce) (res : Bool) :
    Tally S (finish S s res) := by
  obtain ⟨hi, ho⟩ := hl.reduce hpc
  have hnone : ∀ r, ¬Busy S s r := fun r ⟨j, h⟩ => hl.not_inFlight ho h
  have hnone' : ∀ r, ¬Busy S (finish S s res) r := fun r ⟨j, h⟩ => by
    obtain ⟨d, hd⟩ := h.recv
    exact hnone r ⟨j, hl.of_recv h.1 hd⟩
  refine ⟨ht.posts, fun r => ?_, fun r h1 => ?_, fun b h => ⟨hi, ho⟩⟩
  · rw [finish_log, ht.recvs r]
    simp only [finish]
    by_cases hr : 1 ≤ r ∧ r < S.N
    · simp [hr, Rank.ne_recv_of_isReduce (hall r (mem_range'_one.2 hr))]
    · simp only [hr, if_false]
  · exact consumes_congr (s := s) (t := finish S s res) rfl rfl (iff_of_false (hnone' r) (hnone r))
      (ht.consumes r h1)

/-- Every move keeps `Tally`. -/
theorem tally_step (hl : Live S s) (ht : Tally S s) {a : Act} (h : step S s a = some t) :
    Tally S t := by
  rcases step_cases h with ⟨p, x, hp, -, rfl⟩ | ⟨hpc, h0, hw, hi, ho, rfl⟩ |
    ⟨k, r, -, hk0, hkw, hr, -, rfl⟩ | ⟨r, j, -, -, hrk, hj0, hjw, hreq, rfl⟩ |
    ⟨r, j, v, -, -, hrk, hj0, hjw, hreq, rfl⟩ | ⟨hpc, hall, rfl⟩
  · exact tally_quiet ht x hp
  · exact tally_post hl ht hpc hi ho h0 hw
  · obtain ⟨x, rfl⟩ := Int.eq_ofNat_of_zero_le hk0
    exact tally_consume hl ht hkw hr
  · obtain ⟨x, rfl⟩ := Int.eq_ofNat_of_zero_le hj0
    exact tally_deliver hl ht hrk hjw hreq
  · obtain ⟨x, rfl⟩ := Int.eq_ofNat_of_zero_le hj0
    exact tally_reply hl ht hrk hjw hreq
  · exact tally_finish hl ht hpc hall _

/-- Every run with a width of at least 1 keeps `Tally`. -/
theorem tally_run (hF : 1 ≤ S.F) (hN : S.N ≤ 2 ^ 30) {acts : List Act} :
    ∀ {s t : World}, Live S s → Tally S s → run S s acts = some t → Tally S t := by
  induction acts with
  | nil => intro s t _ ht h; cases h; exact ht
  | cons a as ih =>
    intro s t hl ht h
    obtain ⟨u, hu, hrun⟩ := Option.bind_eq_some.mp h
    exact ih (live_step hF hN hl hu) (tally_step hl ht hu) hrun

/-- With `scr_fetch_width ≥ 1` and at most `2^30` ranks, in every run of `scr_fetch_data`
that returns, rank 0 sent exactly one go flag to each other rank, to ranks `1, ..., N - 1` in
that order; each of them received exactly one; and rank 0 consumed exactly one reply from each.
No message is lost or duplicated under any interleaving. -/
theorem scrFetchData_exactly_once (S : Setup) (hF : 1 ≤ S.F) (hN : S.N ≤ 2 ^ 30)
    (acts : List Act) (s : World) (res : Bool) (h : scrFetchData S acts = some s)
    (hd : s.pc = .done res) :
    s.log.filterMap Ev.postTo = List.range' 1 (S.N - 1) ∧
      ∀ r, 1 ≤ r → r < S.N →
        s.log.countP (Ev.isRecv r) = 1 ∧ s.log.countP (Ev.isConsume r) = 1 := by
  have hl := live_run hF hN (live_init_pc (.inl rfl)) h
  have ht := tally_run hF hN (live_init_pc (.inl rfl)) tally_init h
  obtain ⟨hNi, ho⟩ := ht.done res hd
  have hi : s.i = S.N := le_antisymm hl.i_le hNi
  refine ⟨by rw [ht.posts, hi], fun r h1 hrN => ⟨?_, ?_⟩⟩
  · rw [ht.recvs r, ((goInv_run goInv_init h).done res hd).2 r h1 hrN]
    rfl
  · rcases ht.consumes r h1 with ⟨-, hb⟩ | ⟨hc, -⟩
    · obtain ⟨j, hj⟩ := hb (by omega)
      exact absurd hj (hl.not_inFlight ho)
    · exact hc

/-- The schedule of `scrFetchData_length_three_ranks` returns, with one go flag to ranks 1 and
2 in that order. -/
theorem scrFetchData_exactly_once_three_ranks :
    let S : Setup := ⟨3, 1, fun _ => true, by decide⟩
    let acts : List Act := [.root 0, .root 0, .root 0, .rank 1, .rank 1, .root 0, .root 0,
      .root 0, .rank 2, .rank 2, .root 0, .root 0, .alltrue]
    let s := (scrFetchData S acts).getD (init S)
    1 ≤ S.F ∧ S.N ≤ 2 ^ 30 ∧ scrFetchData S acts = some s ∧ s.pc = .done true ∧
      s.log.filterMap Ev.postTo = List.range' 1 (S.N - 1) ∧
      ∀ r, 1 ≤ r → r < S.N →
        s.log.countP (Ev.isRecv r) = 1 ∧ s.log.countP (Ev.isConsume r) = 1 := by
  intro S acts s
  have hrun : scrFetchData S acts = some s :=
    (Option.getD_of_ne_none (Option.ne_none_iff_isSome.2 (by decide)) _).symm
  have hpc : s.pc = .done true := by decide
  exact ⟨by decide, by decide, hrun, hpc,
    scrFetchData_exactly_once S (by decide) (by decide) acts s true hrun hpc⟩

end ScrFetch.Window
