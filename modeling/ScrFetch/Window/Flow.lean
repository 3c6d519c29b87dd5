import Mathlib
import ScrFetch.Window.Messages

/-!
# At most `w` ranks between their go flag and the use of their reply

The window of `scr_fetch_data` is there for flow control: rank 0 lets at most `w` other ranks
read the parallel file system at a time. It counts them in `outstanding`, and it reuses a slot
of `flags`/`req` for the next rank. Both are facts about every state a run reaches, read off the
ghost log against rank 0's variables:

> `scrFetchData_window`: with `scr_fetch_width ≥ 1`, in every state of every run, the ranks rank
> 0 has sent a go flag to and whose reply it has not consumed are exactly `outstanding` in
> number, and there are at most `w` of them.

> `scrFetchData_post_free`: whenever rank 0 is about to post (line 593, with a rank left and
> room in the window), the slot `index` lies in `[0, w)` and neither of its requests is active.
> The post overwrites no pending `MPI_Irecv` and no pending `MPI_Isend`, whose buffer is the
> `flags[index]` it writes.

> `scrFetchData_send_done`: whenever the receive in reply slot `w + k` has completed, the send in
> slot `k` went to the same rank and has completed too, as the comment at line 610 says: the
> `MPI_Wait(&req[index])` after `MPI_Waitany` never blocks.

The count comes from `Live` and `Tally`: a rank is pending exactly when its exchange holds a
slot (`mem_pending_iff`), the owners of the posted receives are those ranks, each once
(`slotOwners_nodup`), and `outstanding` counts the posted receives.
-/

namespace ScrFetch.Window

/-- The ranks rank 0 has sent a go flag to and not yet consumed a reply from, read off the
log. -/
def pending (S : Setup) (s : World) : List Nat :=
  (List.range' 1 (S.N - 1)).filter fun r =>
    r ∈ s.log.filterMap Ev.postTo ∧ s.log.countP (Ev.isConsume r) = 0

/-- The rank the receive in reply slot `w + j` waits for. -/
def slotOwner (S : Setup) (s : World) (j : Nat) : Nat :=
  match s.req (S.w + j) with
  | .recv r _ => r
  | _ => 0

/-- The owners of the reply slots that hold a posted receive. -/
def slotOwners (S : Setup) (s : World) : List Nat :=
  ((List.range S.w.toNat).filter fun (j : Nat) => (s.req (S.w + j)).active).map (slotOwner S s)

variable {S : Setup} {s : World}

theorem slotOwner_of_inFlight {r j : Nat} (h : InFlight S s r j) : slotOwner S s j = r := by
  obtain ⟨d, hd⟩ := h.recv
  simp [slotOwner, hd]

/-- A rank is pending exactly when its exchange holds a slot. -/
theorem mem_pending_iff (hl : Live S s) (ht : Tally S s) {r : Nat} :
    r ∈ pending S s ↔ Busy S s r := by
  simp only [pending, List.mem_filter, ht.posts, mem_range'_one, decide_eq_true_eq]
  constructor
  · rintro ⟨-, ⟨h1, hi⟩, hc⟩
    rcases ht.consumes r h1 with ⟨-, hb⟩ | ⟨hc', -⟩
    · exact hb hi
    · omega
  · rintro ⟨j, hj⟩
    obtain ⟨h1, hi⟩ := hl.bounds hj
    refine ⟨⟨h1, by have := hl.i_le; omega⟩, ⟨h1, hi⟩, ?_⟩
    rcases ht.consumes r h1 with ⟨hc, -⟩ | ⟨-, -, hnb⟩
    · exact hc
    · exact absurd ⟨j, hj⟩ hnb

/-- So is a rank a posted receive waits for. -/
theorem mem_slotOwners_iff (hl : Live S s) {r : Nat} : r ∈ slotOwners S s ↔ Busy S s r := by
  simp only [slotOwners, List.mem_map, List.mem_filter, List.mem_range]
  constructor
  · rintro ⟨j, ⟨hj, ha⟩, rfl⟩
    obtain ⟨r', -, -, h⟩ := hl.owner j (by omega) ha
    rw [slotOwner_of_inFlight h]
    exact ⟨j, h⟩
  · rintro ⟨j, h⟩
    obtain ⟨d, hd⟩ := h.recv
    exact ⟨j, ⟨by have := h.1; omega, by simp [hd, Req.active]⟩, slotOwner_of_inFlight h⟩

/-- Two posted receives wait for two different ranks. -/
theorem slotOwners_nodup (hl : Live S s) : (slotOwners S s).Nodup := by
  refine List.Nodup.map_on (fun j hj j' hj' he => ?_) ((List.nodup_range _).filter _)
  simp only [List.mem_filter, List.mem_range] at hj hj'
  obtain ⟨r, -, -, h⟩ := hl.owner j (by omega) hj.2
  obtain ⟨r', -, -, h'⟩ := hl.owner j' (by omega) hj'.2
  rw [slotOwner_of_inFlight h, slotOwner_of_inFlight h'] at he
  subst he
  exact hl.slot_uniq r j j' h h'

/-- `outstanding` counts the pending ranks. -/
theorem pending_length (hl : Live S s) (ht : Tally S s) :
    ((pending S s).length : Int) = s.outstanding := by
  have hp : (pending S s).Perm (slotOwners S s) :=
    (List.perm_ext_iff_of_nodup ((List.nodup_range' 1 _).filter _) (slotOwners_nodup hl)).2
      fun _ => (mem_pending_iff hl ht).trans (mem_slotOwners_iff hl).symm
  rw [hp.length_eq, hl.posted, postedRecvs, List.countP_eq_length_filter, slotOwners,
    List.length_map]

/-- With `scr_fetch_width ≥ 1` and at most `2^30` ranks, in every state of every run of
`scr_fetch_data`, the ranks that have been sent a go flag and whose reply rank 0 has not
consumed are exactly `outstanding` in number, and at most `w`. -/
theorem scrFetchData_window (S : Setup) (hF : 1 ≤ S.F) (hN : S.N ≤ 2 ^ 30) (acts : List Act)
    (s : World) (h : scrFetchData S acts = some s) :
    ((pending S s).length : Int) = s.outstanding ∧ s.outstanding ≤ S.w := by
  have hl := live_run hF hN (live_init_pc (.inl rfl)) h
  have hw : postedRecvs S.w s.req ≤ S.w.toNat :=
    (List.countP_le_length _).trans (List.length_range _).le
  have := S.w_nonneg (by omega)
  refine ⟨pending_length hl (tally_run hF hN (live_init_pc (.inl rfl)) tally_init h), ?_⟩
  rw [hl.posted]
  omega

/-- Four ranks and a width of 2: after two posts the window is full, with ranks 1 and 2
pending. -/
theorem scrFetchData_window_full :
    let S : Setup := ⟨4, 2, fun _ => true, by decide⟩
    let acts : List Act := [.root 0, .root 0, .root 0]
    let s := (scrFetchData S acts).getD (init S)
    1 ≤ S.F ∧ S.N ≤ 2 ^ 30 ∧ scrFetchData S acts = some s ∧ pending S s = [1, 2] ∧
      ((pending S s).length : Int) = s.outstanding ∧ s.outstanding ≤ S.w := by
  intro S acts s
  have hrun : scrFetchData S acts = some s :=
    (Option.getD_of_ne_none (Option.ne_none_iff_isSome.2 (by decide)) _).symm
  exact ⟨by decide, by decide, hrun, by decide,
    scrFetchData_window S (by decide) (by decide) acts s hrun⟩

/-- With `scr_fetch_width ≥ 1` and at most `2^30` ranks, whenever rank 0 is about to post in
a run of `scr_fetch_data`, the slot `index` lies in `[0, w)` and neither its send nor its
receive is active: rank 0 reuses a slot, and overwrites its `flags[index]`, only after both of
its requests completed. -/
theorem scrFetchData_post_free (S : Setup) (hF : 1 ≤ S.F) (hN : S.N ≤ 2 ^ 30) (acts : List Act)
    (s : World) (h : scrFetchData S acts = some s) (hpc : s.pc = .head) (hi : s.i < S.N)
    (ho : s.outstanding < S.w) :
    0 ≤ s.index ∧ s.index < S.w ∧ (s.req s.index).active = false ∧
      (s.req (S.w + s.index)).active = false := by
  have hl := live_run hF hN (live_init_pc (.inl rfl)) h
  obtain ⟨h0, hw⟩ := hl.index_range hpc hi ho
  obtain ⟨x, hx⟩ := Int.eq_ofNat_of_zero_le h0
  rw [hx] at hw ⊢
  exact ⟨Int.natCast_nonneg x, hw, hl.index_free hpc hi ho hx⟩

/-- Three ranks and a width of 1: once rank 1's reply is consumed, rank 0 posts to rank 2 in the
slot rank 1 held, both of whose requests are freed. -/
theorem scrFetchData_post_free_reused :
    let S : Setup := ⟨3, 1, fun _ => true, by decide⟩
    let acts : List Act := [.root 0, .root 0, .root 0, .rank 1, .rank 1, .root 0]
    let s := (scrFetchData S acts).getD (init S)
    1 ≤ S.F ∧ S.N ≤ 2 ^ 30 ∧ scrFetchData S acts = some s ∧ s.pc = .head ∧ s.i < S.N ∧
      s.outstanding < S.w ∧ s.index = 0 ∧
      0 ≤ s.index ∧ s.index < S.w ∧ (s.req s.index).active = false ∧
        (s.req (S.w + s.index)).active = false := by
  intro S acts s
  have hrun : scrFetchData S acts = some s :=
    (Option.getD_of_ne_none (Option.ne_none_iff_isSome.2 (by decide)) _).symm
  have hpc : s.pc = .head := by decide
  have hi : s.i < S.N := by decide
  have ho : s.outstanding < S.w := by decide
  exact ⟨by decide, by decide, hrun, hpc, hi, ho, by decide,
    scrFetchData_post_free S (by decide) (by decide) acts s hrun hpc hi ho⟩

/-- With `scr_fetch_width ≥ 1` and at most `2^30` ranks, in every state of every run of
`scr_fetch_data`, a completed receive in reply slot `w + k` from rank `r` has beside it a
completed send to `r` in slot `k`: the `MPI_Wait` of line 611 returns at once. -/
theorem scrFetchData_send_done (S : Setup) (hF : 1 ≤ S.F) (hN : S.N ≤ 2 ^ 30) (acts : List Act)
    (s : World) (h : scrFetchData S acts = some s) {k r : Nat} (hk : (k : Int) < S.w)
    (hr : s.req (S.w + k) = .recv r true) : s.req k = .send r true :=
  ((live_run hF hN (live_init_pc (.inl rfl)) h).of_recv hk hr |>.stage_reduce hr).2

/-- Three ranks and a width of 1: once rank 1 has replied, its go flag has been received. -/
theorem scrFetchData_send_done_rank_one :
    let S : Setup := ⟨3, 1, fun _ => true, by decide⟩
    let acts : List Act := [.root 0, .root 0, .root 0, .rank 1, .rank 1]
    let s := (scrFetchData S acts).getD (init S)
    1 ≤ S.F ∧ S.N ≤ 2 ^ 30 ∧ scrFetchData S acts = some s ∧ ((0 : Nat) : Int) < S.w ∧
      s.req (S.w + (0 : Nat)) = .recv 1 true ∧ s.req (0 : Nat) = .send 1 true := by
  intro S acts s
  have hrun : scrFetchData S acts = some s :=
    (Option.getD_of_ne_none (Option.ne_none_iff_isSome.2 (by decide)) _).symm
  have hk : ((0 : Nat) : Int) < S.w := by decide
  have hr : s.req (S.w + (0 : Nat)) = .recv 1 true := by decide
  exact ⟨by decide, by decide, hrun, hk, hr,
    scrFetchData_send_done S (by decide) (by decide) acts s hrun hk hr⟩

end ScrFetch.Window
