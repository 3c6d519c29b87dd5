import Mathlib.Data.List.Basic
import ScrFetch.Window.Moves

/-!
# Go flags and the common outcome of `scr_fetch_data`

Rank 0 copies `success` into every go flag it posts (line 598), and `success` only ever drops
from `SCR_SUCCESS` to `SCR_FAILURE`: on its own `scr_fetch_files_list` (line 568) or on a
consumed reply (line 615). So the go flags, in send order, are a run of `SCR_SUCCESS` followed
by a run of `SCR_FAILURE`, and each failure flag is sent after a failure rank 0 saw. A rank
that receives a failure flag skips `scr_fetch_files_list` (line 631) and sends the failure on,
so in `scr_alltrue` (line 643) every rank returns `SCR_SUCCESS` exactly when every rank called
`scr_fetch_files_list` and got `SCR_SUCCESS` back.

`GoInv` bundles what the ghost log says about flags, calls and replies; `goInv_step` shows one
move keeps it, `goInv_run` that every run does, and `scrFetchData_outcome` reads the outcome off
a state in which rank 0 has returned. When every rank's `scr_fetch_files_list` succeeds, no flag
or reply is ever a failure (`AllOk`), so `scrFetchData_res_iff_all_out` gives the result of
every interleaving from the ranks' outcomes alone. Nothing here depends on the window width: a
run with a width the code cannot handle stops in `abort` or `fault` and never returns.
-/

namespace ScrFetch.Window

variable {S : Setup} {s t : World}

/-- The flag of a `post` event. -/
def Ev.goFlag : Ev → Option Bool
  | .post _ g => some g
  | _ => none

/-- The go flags rank 0 has sent, in send order. -/
def goFlags (s : World) : List Bool := s.log.filterMap Ev.goFlag

/-- In the events `l`, rank 0 saw a failure: its own `scr_fetch_files_list` failed, or it
consumed a reply `SCR_FAILURE`. -/
def SawFailure (l : List Ev) : Prop := .call 0 false ∈ l ∨ ∃ r, .consume r false ∈ l

theorem SawFailure.append {l : List Ev} (m : List Ev) (h : SawFailure l) :
    SawFailure (l ++ m) := by
  rcases h with h | ⟨r, h⟩
  · exact .inl (List.mem_append_left _ h)
  · exact .inr ⟨r, List.mem_append_left _ h⟩

/-- Every failure go flag in the events `l` is sent after rank 0 saw a failure. -/
def FailAfterSaw (l : List Ev) : Prop :=
  ∀ pre r post, l = pre ++ .post r false :: post → SawFailure pre

/-- Appending events keeps `FailAfterSaw` when each new failure flag has a failure before it. -/
theorem FailAfterSaw.append {l es : List Ev} (hl : FailAfterSaw l)
    (hes : ∀ pre r post, es = pre ++ .post r false :: post → SawFailure (l ++ pre)) :
    FailAfterSaw (l ++ es) := by
  intro pre r post h
  rcases List.append_eq_append_iff.mp h with ⟨a, rfl, h'⟩ | ⟨c, rfl, h'⟩
  · exact hes a r post h'
  · cases c with
    | nil => simpa using hes [] r post (by simpa using h'.symm)
    | cons x c =>
      obtain ⟨rfl, rfl⟩ := List.cons_eq_cons.mp h'
      exact hl pre r c rfl

/-- Appending events with no failure flag among them keeps `FailAfterSaw`. -/
theorem FailAfterSaw.append_quiet {l es : List Ev} (hl : FailAfterSaw l)
    (hes : ∀ r, .post r false ∉ es) : FailAfterSaw (l ++ es) :=
  hl.append fun pre r _ h => absurd (h ▸ List.mem_append_right pre (List.mem_cons_self _ _))
    (hes r)

/-- What the ghost log says about go flags, calls and replies, in every reachable state. -/
structure GoInv (S : Setup) (s : World) : Prop where
  shape : ∃ a b, goFlags s = List.replicate a true ++ List.replicate b false ∧
    (b ≠ 0 → s.success = false)
  fail_src : s.success = false → SawFailure s.log
  fail_after : FailAfterSaw s.log
  call_zero : .call 0 (S.out 0) ∈ s.log
  call_ok : ∀ r b, .call r b ∈ s.log → b = S.out r ∧ (r = 0 ∨ .recv r true ∈ s.log)
  recv_call : ∀ r, .recv r true ∈ s.log → .call r (S.out r) ∈ s.log
  recv_range : ∀ r g, .recv r g ∈ s.log → 1 ≤ r ∧ r < S.N
  recv_iff : ∀ r, (∃ g, .recv r g ∈ s.log) ↔ s.rank r ≠ .recv
  recv_uniq : ∀ r g g', .recv r g ∈ s.log → .recv r g' ∈ s.log → g = g'
  val : ∀ r v, (s.rank r = .send v ∨ s.rank r = .reduce v) →
    ∃ g, .recv r g ∈ s.log ∧ v = (g && S.out r)
  reply : ∀ k r, 0 ≤ k → s.req (S.w + k) = .recv r true →
    ∃ g, .recv r g ∈ s.log ∧ s.flags (S.w + k) = (g && S.out r)
  consumed : ∀ r v, .consume r v ∈ s.log → ∃ g, .recv r g ∈ s.log ∧ v = (g && S.out r)
  success : s.success = true ↔ S.out 0 = true ∧ ∀ r v, .consume r v ∈ s.log → v = true
  done : ∀ b, s.pc = .done b →
    (b = true ↔ ∀ r < S.N, .call r true ∈ s.log) ∧ ∀ r, 1 ≤ r → r < S.N → s.rank r = .done b

theorem goInv_init : GoInv S (init S) where
  shape := ⟨0, 0, rfl, fun h => absurd rfl h⟩
  fail_src h := .inl (by simp only [init] at h ⊢; simp [h])
  fail_after pre r post h := by
    cases pre with
    | nil => simp [init] at h
    | cons x pre => simp [init] at h
  call_zero := by simp [init]
  call_ok r b h := by simp [init] at h; simp [h]
  recv_call r h := by simp [init] at h
  recv_range r g h := by simp [init] at h
  recv_iff r := by simp [init]
  recv_uniq r g g' h := by simp [init] at h
  val r v h := by simp [init] at h
  reply k r _ h := by simp [init] at h
  consumed r v h := by simp [init] at h
  success := by simp [init]
  done b h := by simp [init] at h

theorem goFlags_post (w : Int) : goFlags (post s w) = goFlags s ++ [s.success] := by
  simp [goFlags, Ev.goFlag]

/-- A move of rank 0's program counter alone. -/
theorem goInv_quiet (hi : GoInv S s) {p : Pc} {x : Int} (hp : ∀ b, p ≠ .done b) :
    GoInv S { s with pc := p, index := x } :=
  { hi with done := fun b h => absurd h (hp b) }

/-- Posting a go flag appends `success` to the flags and touches no reply slot. -/
theorem goInv_post (hi : GoInv S s) (hpc : s.pc = .head) (hidx : s.index < S.w) :
    GoInv S (post s S.w) where
  shape := by
    obtain ⟨a, b, hg, hb⟩ := hi.shape
    rw [goFlags_post, hg]
    cases hs : s.success
    · exact ⟨a, b + 1, by simp [List.replicate_succ'], fun _ => hs⟩
    · obtain rfl : b = 0 := by by_contra h; simp [hb h] at hs
      exact ⟨a + 1, 0, by simp [List.replicate_succ'], fun h => absurd rfl h⟩
  fail_src h := (hi.fail_src h).append _
  fail_after := hi.fail_after.append fun pre r post h => by
    cases pre with
    | nil =>
      simp only [List.nil_append, List.cons.injEq, Ev.post.injEq] at h
      exact (hi.fail_src h.1.2).append _
    | cons x pre => simp at h
  call_zero := by simp [hi.call_zero]
  call_ok r b h := by simpa using hi.call_ok r b (by simpa using h)
  recv_call r h := by simpa using hi.recv_call r (by simpa using h)
  recv_range r g h := hi.recv_range r g (by simpa using h)
  recv_iff r := by simpa using hi.recv_iff r
  recv_uniq r g g' h h' := hi.recv_uniq r g g' (by simpa using h) (by simpa using h')
  val r v h := by simpa using hi.val r v h
  reply k r hk h := by
    have h1 : S.w + k ≠ s.index := by omega
    simp only [ScrFetch.Window.post, Function.update_noteq h1] at h ⊢
    by_cases h2 : S.w + k = s.index + S.w
    · rw [h2, Function.update_same] at h; cases h
    · rw [Function.update_noteq h2] at h
      simpa using hi.reply k r hk h
  consumed r v h := by simpa using hi.consumed r v (by simpa using h)
  success := by simpa using hi.success
  done b h := by simp [hpc] at h

/-- Consuming a reply records the value the replying rank sent and folds it into `success`. -/
theorem goInv_consume (hi : GoInv S s) {k : Int} {r : Nat} (hk : 0 ≤ k) (hkw : k < S.w)
    (hr : s.req (S.w + k) = .recv r true) : GoInv S (consume s S.w k r) where
  shape := by
    obtain ⟨a, b, hg, hb⟩ := hi.shape
    exact ⟨a, b, by simpa [goFlags, Ev.goFlag] using hg,
      fun h => by simp [ScrFetch.Window.consume, hb h]⟩
  fail_src h := by
    rcases Bool.and_eq_false_iff.mp h with h | h
    · exact (hi.fail_src h).append _
    · exact .inr ⟨r, by simp [h]⟩
  fail_after := hi.fail_after.append_quiet (by simp)
  call_zero := by simp [hi.call_zero]
  call_ok r b h := by simpa using hi.call_ok r b (by simpa using h)
  recv_call r h := by simpa using hi.recv_call r (by simpa using h)
  recv_range r g h := hi.recv_range r g (by simpa using h)
  recv_iff r := by simpa using hi.recv_iff r
  recv_uniq r g g' h h' := hi.recv_uniq r g g' (by simpa using h) (by simpa using h')
  val r v h := by simpa using hi.val r v h
  reply k' r' hk' h := by
    have h1 : S.w + k' ≠ k := by omega
    simp only [ScrFetch.Window.consume, Function.update_noteq h1] at h ⊢
    by_cases h2 : S.w + k' = S.w + k
    · rw [h2, Function.update_same] at h; cases h
    · rw [Function.update_noteq h2] at h
      simpa using hi.reply k' r' hk' h
  consumed r' v h := by
    rcases List.mem_append.mp h with h | h
    · simpa using hi.consumed r' v h
    · have hk' := hi.reply k r hk hr
      obtain ⟨rfl, rfl⟩ := by simpa using h
      simpa using hk'
  success := by
    simp [ScrFetch.Window.consume, hi.success, or_imp, forall_and, and_assoc]
  done b h := by simp at h

/-- The events `deliver` appends. -/
theorem mem_deliver_log {e : Ev} {r : Nat} {j : Int} :
    e ∈ (deliver S s r j).log ↔
      e ∈ s.log ∨ e = .recv r (s.flags j) ∨ (s.flags j = true ∧ e = .call r (S.out r)) := by
  simp only [deliver, List.mem_append, List.mem_cons]
  cases s.flags j <;> simp

theorem goFlags_deliver {r : Nat} {j : Int} : goFlags (deliver S s r j) = goFlags s := by
  simp only [goFlags, deliver, List.filterMap_append, List.filterMap_cons, Ev.goFlag]
  split <;> simp [Ev.goFlag]

/-- Rank `r` receiving its go flag logs what it received and, on `SCR_SUCCESS`, its call. -/
theorem goInv_deliver (hi : GoInv S s) {r : Nat} {j : Int} (hr1 : 1 ≤ r) (hrN : r < S.N)
    (hrk : s.rank r = .recv) (hjw : j < S.w) : GoInv S (deliver S s r j) where
  shape := by rw [goFlags_deliver]; exact hi.shape
  fail_src h := (hi.fail_src h).append _
  fail_after := hi.fail_after.append_quiet fun r' => by split <;> simp
  call_zero := List.mem_append_left _ hi.call_zero
  call_ok r' b h := by
    rcases mem_deliver_log.mp h with h | h | ⟨hf, h⟩
    · obtain ⟨h1, h2⟩ := hi.call_ok r' b h
      exact ⟨h1, h2.imp_right fun h => mem_deliver_log.mpr (.inl h)⟩
    · cases h
    · obtain ⟨rfl, rfl⟩ := by simpa using h
      exact ⟨rfl, .inr (mem_deliver_log.mpr (.inr (.inl (by rw [hf]))))⟩
  recv_call r' h := by
    rcases mem_deliver_log.mp h with h | h | ⟨_, h⟩
    · exact mem_deliver_log.mpr (.inl (hi.recv_call r' h))
    · obtain ⟨rfl, hf⟩ := by simpa using h
      exact mem_deliver_log.mpr (.inr (.inr ⟨hf, rfl⟩))
    · cases h
  recv_range r' g h := by
    rcases mem_deliver_log.mp h with h | h | ⟨_, h⟩
    · exact hi.recv_range r' g h
    · obtain ⟨rfl, -⟩ := by simpa using h
      exact ⟨hr1, hrN⟩
    · cases h
  recv_iff r' := by
    by_cases h : r' = r
    · subst h
      simp only [ScrFetch.Window.deliver, Function.update_same, ne_eq, reduceCtorEq,
        not_false_eq_true, iff_true]
      exact ⟨_, mem_deliver_log.mpr (.inr (.inl rfl))⟩
    · simp only [ScrFetch.Window.deliver, Function.update_noteq h]
      rw [← hi.recv_iff r']
      constructor
      · rintro ⟨g, hg⟩
        rcases mem_deliver_log.mp hg with hg | hg | ⟨_, hg⟩
        · exact ⟨g, hg⟩
        · obtain ⟨h', -⟩ : r' = r ∧ g = s.flags j := by simpa using hg
          exact absurd h' h
        · cases hg
      · rintro ⟨g, hg⟩; exact ⟨g, mem_deliver_log.mpr (.inl hg)⟩
  recv_uniq r' g g' h h' := by
    have old : ∀ g, .recv r g ∉ s.log := fun g hg => (hi.recv_iff r).mp ⟨g, hg⟩ hrk
    have key : ∀ g, .recv r' g ∈ (deliver S s r j).log →
        .recv r' g ∈ s.log ∨ (r' = r ∧ g = s.flags j) := fun g hg => by
      rcases mem_deliver_log.mp hg with hg | hg | ⟨_, hg⟩
      · exact .inl hg
      · exact .inr (by simpa using hg)
      · cases hg
    rcases key g h with h | ⟨rfl, rfl⟩ <;> rcases key g' h' with h' | ⟨h1, rfl⟩
    · exact hi.recv_uniq r' g g' h h'
    · exact absurd (h1 ▸ h) (old g)
    · exact absurd h' (old g')
    · rfl
  val r' v h := by
    by_cases hr : r' = r
    · subst hr
      simp only [ScrFetch.Window.deliver, Function.update_same, Rank.send.injEq,
        reduceCtorEq, or_false] at h
      exact ⟨_, mem_deliver_log.mpr (.inr (.inl rfl)), h.symm⟩
    · simp only [ScrFetch.Window.deliver, Function.update_noteq hr] at h
      obtain ⟨g, hg, hv⟩ := hi.val r' v h
      exact ⟨g, mem_deliver_log.mpr (.inl hg), hv⟩
  reply k r' hk h := by
    have h1 : S.w + k ≠ j := by omega
    simp only [ScrFetch.Window.deliver, Function.update_noteq h1] at h
    obtain ⟨g, hg, hv⟩ := hi.reply k r' hk h
    exact ⟨g, mem_deliver_log.mpr (.inl hg), hv⟩
  consumed r' v h := by
    rcases mem_deliver_log.mp h with h | h | ⟨_, h⟩
    · obtain ⟨g, hg, hv⟩ := hi.consumed r' v h
      exact ⟨g, mem_deliver_log.mpr (.inl hg), hv⟩
    · cases h
    · cases h
  success := by
    show s.success = true ↔ _
    rw [hi.success]
    refine and_congr_right fun _ => forall_congr' fun r' => forall_congr' fun v => ?_
    exact imp_congr_left ⟨fun h => mem_deliver_log.mpr (.inl h), fun h => by
      rcases mem_deliver_log.mp h with h | h | ⟨_, h⟩
      · exact h
      · cases h
      · cases h⟩
  done b h := absurd ((hi.done b h).2 r hr1 hrN) (by rw [hrk]; simp)

/-- Rank `r`'s reply lands in its reply slot, with the value it holds. -/
theorem goInv_reply (hi : GoInv S s) {r : Nat} {j : Int} {v : Bool} (hr1 : 1 ≤ r)
    (hrN : r < S.N) (hrk : s.rank r = .send v) : GoInv S (reply s r (S.w + j) v) :=
  { hi with
    recv_iff := fun r' => by
      by_cases h : r' = r
      · subst h
        simp only [ScrFetch.Window.reply, Function.update_same, ne_eq, reduceCtorEq,
          not_false_eq_true, iff_true]
        exact (hi.recv_iff r').mpr (by rw [hrk]; simp)
      · simpa [ScrFetch.Window.reply, Function.update_noteq h] using hi.recv_iff r'
    val := fun r' v' h => by
      by_cases hr : r' = r
      · subst hr
        simp only [ScrFetch.Window.reply, Function.update_same, Rank.reduce.injEq,
          reduceCtorEq, false_or] at h
        exact h ▸ hi.val r' v (.inl hrk)
      · exact hi.val r' v' (by simpa [ScrFetch.Window.reply, Function.update_noteq hr] using h)
    reply := fun k r' hk h => by
      by_cases h2 : S.w + k = S.w + j
      · simp only [ScrFetch.Window.reply, h2, Function.update_same, Req.recv.injEq,
          and_true] at h ⊢
        subst h
        exact hi.val r v (.inl hrk)
      · simpa [ScrFetch.Window.reply, Function.update_noteq h2] using
          hi.reply k r' hk (by simpa [ScrFetch.Window.reply, Function.update_noteq h2] using h)
    done := fun b h => absurd ((hi.done b h).2 r hr1 hrN) (by rw [hrk]; simp) }

theorem mem_range'_one {r n : Nat} : r ∈ List.range' 1 (n - 1) ↔ 1 ≤ r ∧ r < n := by
  rw [List.mem_range'_1]; omega

theorem Rank.ne_recv_of_isReduce {x : Rank} (h : x.isReduce) : x ≠ .recv := by
  cases x <;> simp_all [Rank.isReduce]

/-- When every rank called and got `SCR_SUCCESS`, every reply value is `SCR_SUCCESS`. -/
theorem GoInv.val_true (hi : GoInv S s) (hc : ∀ r < S.N, .call r true ∈ s.log) {r : Nat}
    {g : Bool} (hg : .recv r g ∈ s.log) : (g && S.out r) = true := by
  obtain ⟨h1, h2⟩ := hi.recv_range r g hg
  obtain ⟨ho, hr | hr⟩ := hi.call_ok r true (hc r h2)
  · omega
  · rw [hi.recv_uniq r g true hg hr, ← ho]; rfl

/-- `scr_alltrue` returns `SCR_SUCCESS` exactly when every rank called `scr_fetch_files_list`
and got `SCR_SUCCESS`. -/
theorem GoInv.alltrueRes_iff (hi : GoInv S s)
    (hall : ∀ r ∈ List.range' 1 (S.N - 1), (s.rank r).isReduce) :
    alltrueRes S s = true ↔ ∀ r < S.N, .call r true ∈ s.log := by
  have hred : ∀ r ∈ List.range' 1 (S.N - 1), ∃ v, s.rank r = .reduce v := fun r hr => by
    have := hall r hr
    revert this; cases s.rank r <;> simp [Rank.isReduce]
  simp only [alltrueRes, Bool.and_eq_true, List.all_eq_true, beq_iff_eq]
  constructor
  · rintro ⟨hs, hr⟩ r hrN
    rcases Nat.eq_zero_or_pos r with rfl | h1
    · simpa [(hi.success.mp hs).1] using hi.call_zero
    · obtain ⟨g, hg, hv⟩ := hi.val r true (.inr (hr r (mem_range'_one.mpr ⟨h1, hrN⟩)))
      obtain ⟨rfl, ho⟩ := Bool.and_eq_true_iff.mp hv.symm
      simpa [ho] using hi.recv_call r hg
  · intro hc
    refine ⟨hi.success.mpr ⟨?_, fun r v hv => ?_⟩, fun r hr => ?_⟩
    · exact ((hi.call_ok 0 true (hc 0 S.N_pos)).1).symm
    · obtain ⟨g, hg, rfl⟩ := hi.consumed r v hv
      exact hi.val_true hc hg
    · obtain ⟨v, hv⟩ := hred r hr
      obtain ⟨g, hg, rfl⟩ := hi.val r v (.inr hv)
      rw [hv, hi.val_true hc hg]

/-- `scr_alltrue` hands every rank the same result. -/
theorem goInv_finish (hi : GoInv S s)
    (hall : ∀ r ∈ List.range' 1 (S.N - 1), (s.rank r).isReduce) :
    GoInv S (finish S s (alltrueRes S s)) :=
  { hi with
    recv_iff := fun r => by
      simp only [finish]
      split
      · rename_i hr
        simp only [ne_eq, reduceCtorEq, not_false_eq_true, iff_true]
        exact (hi.recv_iff r).mpr (Rank.ne_recv_of_isReduce (hall r (mem_range'_one.mpr hr)))
      · exact hi.recv_iff r
    val := fun r v h => by
      simp only [finish] at h
      split at h
      · simp at h
      · exact hi.val r v h
    done := fun b h => by
      simp only [finish_pc, Pc.done.injEq] at h
      subst h
      exact ⟨hi.alltrueRes_iff hall, fun r h1 h2 => by simp [finish, h1, h2]⟩ }

/-- One move keeps `GoInv`. -/
theorem goInv_step (hi : GoInv S s) {a : Act} (h : step S s a = some t) : GoInv S t := by
  rcases step_cases h with ⟨p, x, hp, -, rfl⟩ | ⟨hpc, -, hidx, -, -, rfl⟩ |
    ⟨k, r, -, hk, hkw, hr, -, rfl⟩ | ⟨r, j, hr1, hrN, hrk, -, hjw, -, rfl⟩ |
    ⟨r, j, v, hr1, hrN, hrk, -, -, -, rfl⟩ | ⟨-, hall, rfl⟩
  · exact goInv_quiet hi hp
  · exact goInv_post hi hpc hidx
  · exact goInv_consume hi hk hkw hr
  · exact goInv_deliver hi hr1 hrN hrk hjw
  · exact goInv_reply hi hr1 hrN hrk
  · exact goInv_finish hi hall

/-- Every run keeps `GoInv`. -/
theorem goInv_run {acts : List Act} : ∀ {s t : World}, GoInv S s → run S s acts = some t →
    GoInv S t := by
  induction acts with
  | nil => intro s t hi h; cases h; exact hi
  | cons a as ih =>
    intro s t hi h
    obtain ⟨u, hu, ht⟩ := Option.bind_eq_some.mp h
    exact ih (goInv_step hi hu) ht

/-- In every run of `scr_fetch_data` that returns (rank 0 left `scr_alltrue` with `res`): the
go flags in send order are a run of `SCR_SUCCESS` then a run of `SCR_FAILURE`; each failure
flag was sent after rank 0's own `scr_fetch_files_list` or a consumed reply failed; a rank that
received a failure flag never called `scr_fetch_files_list`; every rank returned `res`; and
`res` is `SCR_SUCCESS` exactly when every rank called `scr_fetch_files_list` and got
`SCR_SUCCESS`. -/
theorem scrFetchData_outcome (S : Setup) (acts : List Act) (s : World) (res : Bool)
    (h : scrFetchData S acts = some s) (hd : s.pc = .done res) :
    (∃ a b, goFlags s = List.replicate a true ++ List.replicate b false) ∧
    FailAfterSaw s.log ∧
    (∀ r, .recv r false ∈ s.log → ∀ b, .call r b ∉ s.log) ∧
    (∀ r, 1 ≤ r → r < S.N → s.rank r = .done res) ∧
    (res = true ↔ ∀ r < S.N, .call r true ∈ s.log) := by
  have hi := goInv_run goInv_init h
  obtain ⟨a, b, hg, -⟩ := hi.shape
  refine ⟨⟨a, b, hg⟩, hi.fail_after, fun r hr b hc => ?_, (hi.done res hd).2, (hi.done res hd).1⟩
  obtain ⟨-, h0 | ht⟩ := hi.call_ok r b hc
  · exact absurd (hi.recv_range r false hr).1 (by omega)
  · exact absurd (hi.recv_uniq r false true hr ht) (by simp)

/-- Three ranks, width 1, and rank 1's fetch fails: rank 2 is sent a failure flag, skips its
fetch, and all ranks return `SCR_FAILURE`. -/
theorem scrFetchData_outcome_rank_one_fails :
    let S : Setup := ⟨3, 1, fun r => r != 1, by decide⟩
    let acts : List Act := [.root 0, .root 0, .root 0, .rank 1, .rank 1, .root 0, .root 0,
      .root 0, .rank 2, .rank 2, .root 0, .root 0, .alltrue]
    let s := (scrFetchData S acts).getD (init S)
    scrFetchData S acts = some s ∧ s.pc = .done false ∧ goFlags s = [true, false] ∧
      .recv 2 false ∈ s.log ∧ (∀ b, .call 2 b ∉ s.log) ∧
      (false = true ↔ ∀ r < S.N, .call r true ∈ s.log) := by
  intro S acts s
  have hrun : scrFetchData S acts = some s :=
    (Option.getD_of_ne_none (Option.ne_none_iff_isSome.2 (by decide)) _).symm
  have hpc : s.pc = .done false := by decide
  have h := scrFetchData_outcome S acts s false hrun hpc
  exact ⟨hrun, hpc, by decide, by decide, h.2.2.1 2 (by decide), h.2.2.2.2⟩

/-! ## The result does not depend on the interleaving -/

/-- With every rank's `scr_fetch_files_list` succeeding nothing fails: `success` stays
`SCR_SUCCESS`, every pending go flag is `SCR_SUCCESS`, and so is every go flag received. -/
structure AllOk (S : Setup) (s : World) : Prop where
  success : s.success = true
  flags : ∀ j r, s.req j = .send r false → s.flags j = true
  recv : ∀ r g, .recv r g ∈ s.log → g = true

/-- A request that reads as a pending send after a write of anything else was one before. -/
theorem send_of_update {req : Int → Req} {x j : Int} {v : Req} (hv : ∀ r, v ≠ .send r false)
    {r : Nat} (h : Function.update req x v j = .send r false) : j ≠ x ∧ req j = .send r false := by
  by_cases hj : j = x
  · rw [hj, Function.update_same] at h
    exact absurd h (hv r)
  · rw [Function.update_noteq hj] at h
    exact ⟨hj, h⟩

/-- A post copies `success` into the flag it sends. -/
theorem allOk_post (ha : AllOk S s) : AllOk S (post s S.w) where
  success := ha.success
  flags j r h := by
    dsimp only [post] at h ⊢
    by_cases hj : j = s.index
    · rw [hj, Function.update_same]
      exact ha.success
    · rw [Function.update_noteq hj] at h ⊢
      exact ha.flags j r (send_of_update (fun _ => by simp) h).2
  recv r g h := ha.recv r g (by simpa using h)

/-- A rank receives the flag of the send pending for it. -/
theorem allOk_deliver (ha : AllOk S s) {r : Nat} {j : Int} (hreq : s.req j = .send r false) :
    AllOk S (deliver S s r j) where
  success := ha.success
  flags j' r' h := ha.flags j' r' (send_of_update (fun _ => by simp) h).2
  recv r' g h := by
    rcases mem_deliver_log.mp h with h | h | ⟨_, h⟩
    · exact ha.recv r' g h
    · obtain ⟨-, rfl⟩ : r' = r ∧ g = s.flags j := by simpa using h
      exact ha.flags j r hreq
    · cases h

/-- A reply overwrites the flag of a receive, never of a send. -/
theorem allOk_reply (ha : AllOk S s) {r : Nat} {j : Int} {v : Bool} :
    AllOk S (reply s r j v) where
  success := ha.success
  flags j' r' h := by
    obtain ⟨hj, h⟩ := send_of_update (fun _ => by simp) h
    dsimp only [reply]
    rw [Function.update_noteq hj]
    exact ha.flags j' r' h
  recv := ha.recv

section AllOk

variable (hall : ∀ r < S.N, S.out r = true)
include hall

theorem allOk_init : AllOk S (init S) where
  success := hall 0 S.N_pos
  flags j r h := by simp [init] at h
  recv r g h := by simp [init] at h

/-- A consumed reply is `SCR_SUCCESS`: its rank received `SCR_SUCCESS` and its fetch succeeded. -/
theorem allOk_consume (hi : GoInv S s) (ha : AllOk S s) {k : Int} {r : Nat} (hk : 0 ≤ k)
    (hr : s.req (S.w + k) = .recv r true) : AllOk S (consume s S.w k r) where
  success := by
    obtain ⟨g, hg, hf⟩ := hi.reply k r hk hr
    rw [ha.recv r g hg, hall r (hi.recv_range r g hg).2] at hf
    simp [consume, ha.success, hf]
  flags j r' h :=
    ha.flags j r' (send_of_update (fun _ => by simp) (send_of_update (fun _ => by simp) h).2).2
  recv r' g h := ha.recv r' g (by simpa using h)

theorem allOk_step (hi : GoInv S s) (ha : AllOk S s) {a : Act} (h : step S s a = some t) :
    AllOk S t := by
  rcases step_cases h with ⟨p, x, -, -, rfl⟩ | ⟨-, -, -, -, -, rfl⟩ |
    ⟨k, r, -, hk, -, hr, -, rfl⟩ | ⟨r, j, -, -, -, -, -, hreq, rfl⟩ |
    ⟨r, j, v, -, -, -, -, -, -, rfl⟩ | ⟨-, -, rfl⟩
  · exact ⟨ha.success, ha.flags, ha.recv⟩
  · exact allOk_post ha
  · exact allOk_consume hall hi ha hk hr
  · exact allOk_deliver ha hreq
  · exact allOk_reply ha
  · exact ⟨ha.success, ha.flags, ha.recv⟩

theorem allOk_run {acts : List Act} : ∀ {s t : World}, GoInv S s → AllOk S s →
    run S s acts = some t → AllOk S t := by
  induction acts with
  | nil => intro s t _ ha h; cases h; exact ha
  | cons a as ih =>
    intro s t hi ha h
    obtain ⟨u, hu, ht⟩ := Option.bind_eq_some.mp h
    exact ih (goInv_step hi hu) (allOk_step hall hi ha hu) ht

end AllOk

/-- Once rank 0 has returned, the result is the logical and of the ranks' outcomes, provided
`AllOk` holds whenever every outcome is `SCR_SUCCESS`. -/
theorem GoInv.done_iff_all_out (hi : GoInv S s) (hok : (∀ r < S.N, S.out r = true) → AllOk S s)
    {res : Bool} (hd : s.pc = .done res) : res = true ↔ ∀ r < S.N, S.out r = true := by
  rw [(hi.done res hd).1]
  refine ⟨fun hc r hr => (hi.call_ok r true (hc r hr)).1.symm, fun hall r hr => ?_⟩
  rcases Nat.eq_zero_or_pos r with rfl | h1
  · simpa [hall 0 S.N_pos] using hi.call_zero
  · obtain ⟨g, hg⟩ := (hi.recv_iff r).2 (by rw [(hi.done res hd).2 r h1 hr]; simp)
    obtain rfl := (hok hall).recv r g hg
    simpa [hall r hr] using hi.recv_call r hg

/-- Every run keeps `GoInv`, and `AllOk` when every rank's fetch succeeds. -/
theorem scrFetchData_invs {acts : List Act} (h : scrFetchData S acts = some s) :
    GoInv S s ∧ ((∀ r < S.N, S.out r = true) → AllOk S s) :=
  ⟨goInv_run goInv_init h, fun hall => allOk_run hall goInv_init (allOk_init hall) h⟩

/-- In every run of `scr_fetch_data` that returns, the result is `SCR_SUCCESS` exactly when
`scr_fetch_files_list` succeeds on every rank, including the ranks a failure flag kept from
calling it: the result depends on the ranks' outcomes alone, not on the order in which replies
complete, and every interleaving returns the same value. -/
theorem scrFetchData_res_iff_all_out (S : Setup) (acts : List Act) (s : World) (res : Bool)
    (h : scrFetchData S acts = some s) (hd : s.pc = .done res) :
    res = true ↔ ∀ r < S.N, S.out r = true :=
  (scrFetchData_invs h).1.done_iff_all_out (scrFetchData_invs h).2 hd

/-- The schedule of `scrFetchData_outcome_rank_one_fails` returns `SCR_FAILURE` because rank 1's
fetch fails, although rank 2 never fetched. -/
theorem scrFetchData_res_iff_all_out_rank_one_fails :
    let S : Setup := ⟨3, 1, fun r => r != 1, by decide⟩
    let acts : List Act := [.root 0, .root 0, .root 0, .rank 1, .rank 1, .root 0, .root 0,
      .root 0, .rank 2, .rank 2, .root 0, .root 0, .alltrue]
    let s := (scrFetchData S acts).getD (init S)
    scrFetchData S acts = some s ∧ s.pc = .done false ∧
      (false = true ↔ ∀ r < S.N, S.out r = true) := by
  intro S acts s
  have hrun : scrFetchData S acts = some s :=
    (Option.getD_of_ne_none (Option.ne_none_iff_isSome.2 (by decide)) _).symm
  have hpc : s.pc = .done false := by decide
  exact ⟨hrun, hpc, scrFetchData_res_iff_all_out S acts s false hrun hpc⟩

end ScrFetch.Window
