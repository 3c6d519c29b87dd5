import ScrFetch.Sync.Candidate

/-!
# The candidate loop when the calls on `current` succeed

`scrFetchSync_unlink_refused_loops` and `scrFetchSync_dangling_link_kept` show the loop of
`scr_fetch_sync` going wrong, once because `unlink` fails and once because `current` dangles.
This module shows that these are the only ways. When every call of rank 0 on the prefix
directory succeeds, whatever each attempt of `scr_fetch_files` returns:

> `scrFetchSync_terminates`: the loop returns within `n + 2` passes, `n` the number of records
> of the index;

> `scrFetchSync_current_matches`: when moreover `current` does not dangle at the start, the call
> leaves `current` as its return code says: a readable link to the target of its last attempt
> after a success, no link after a failure.

The first is a potential argument. `passesLeft` counts the index records still candidates below
the ceiling, plus one while `current` is a readable link. A pass that goes on has attempted a
target and failed, and the unlink has removed `current`. The target was either the link's, met
only in the first pass while there is no ceiling yet, or the index's most recent candidate,
which the new ceiling excludes (`syncPass_continue`). So the potential drops at every pass
(`syncLoop_isSome`).
-/

namespace ScrFetch

/-! ## Candidates below a ceiling -/

/-- A strict `countP` bound: `p` implies `q` on `l`, and a member of `l` has `q` without `p`. -/
theorem countP_lt_of_mem {α : Type} {p q : α → Bool} :
    ∀ {l : List α} {a : α}, (∀ x ∈ l, p x → q x) → a ∈ l → q a = true → p a = false →
      l.countP p < l.countP q
  | b :: l, a, hle, ha, hq, hp => by
    have htail : ∀ x ∈ l, p x → q x := fun x hx => hle x (List.mem_cons_of_mem b hx)
    have hb := hle b (List.mem_cons_self b l)
    rcases List.mem_cons.1 ha with rfl | ha
    · have := List.countP_mono_left htail
      simp [List.countP_cons, hp, hq]
      omega
    · have := countP_lt_of_mem htail ha hq hp
      have hhead : (if p b then 1 else 0) ≤ (if q b then 1 else 0) := by
        by_cases h : p b
        · simp [h, hb h]
        · simp [h]
      simp only [List.countP_cons]
      omega

namespace IndexRecord

variable {c : Int} {r x : IndexRecord}

/-- Below the ceiling of a candidate `r` is below every ceiling `r` is below. -/
theorem below_of_below_id (hr : r.below c = true) (hid : -1 < r.id) (hx : x.below r.id = true) :
    x.below c = true := by
  simp only [below, Bool.and_eq_true, Bool.or_eq_true, decide_eq_true_eq] at *
  exact ⟨hx.1, by omega⟩

/-- Without a ceiling every complete record that has not failed is a candidate. -/
theorem below_neg_one (hx : x.below c = true) : x.below (-1) = true := by
  simp_all [below]

theorem below_id_self (hid : -1 < r.id) : r.below r.id = false := by
  simp [below]
  omega

end IndexRecord

/-- `mark_fetched` changes no candidate. -/
theorem countP_below_markFetched (index : List IndexRecord) (id c : Int) :
    (markFetched index id).countP (·.below c) = index.countP (·.below c) := by
  simp only [markFetched, List.countP_map]
  congr 1
  funext r
  simp only [Function.comp_apply]
  split_ifs <;> rfl

/-- `mark_failed` removes candidates only. -/
theorem countP_below_markFailed_le (index : List IndexRecord) (id c : Int) :
    (markFailed index id).countP (·.below c) ≤ index.countP (·.below c) := by
  simp only [markFailed, List.countP_map]
  refine List.countP_mono_left fun r _ h => ?_
  simp only [Function.comp_apply] at h
  split_ifs at h
  · simp [IndexRecord.below] at h
  · exact h

/-- `most_recent_complete` finds nothing, or a candidate with an id above `-1`. -/
theorem mostRecentComplete_cases (c : Int) : ∀ index : List IndexRecord,
    mostRecentComplete c index = (-1, "") ∨
      ∃ r ∈ index, r.below c = true ∧ -1 < r.id ∧ mostRecentComplete c index = (r.id, r.name)
  | [] => .inl rfl
  | r :: rest => by
    dsimp only [mostRecentComplete]
    rcases mostRecentComplete_cases c rest with h | ⟨r', hr', hb, hid, h⟩ <;> rw [h] <;>
      split_ifs with hr
    · exact .inr ⟨r, List.mem_cons_self _ _, hr.1, hr.2, rfl⟩
    · exact .inl rfl
    · exact .inr ⟨r, List.mem_cons_self _ _, hr.1, by omega, rfl⟩
    · exact .inr ⟨r', List.mem_cons_of_mem _ hr', hb, hid, rfl⟩

/-! ## The potential -/

/-- Whether `current` is a readable link, whose target the next pass takes. -/
def Current.readable : Current → Bool
  | .link _ true => true
  | _ => false

/-- The index records still candidates below the ceiling. -/
def Cand.pending (st : Cand) : Nat := st.index.countP (·.below st.ceiling)

/-- The potential of the loop: the candidates left, and one more pass while `current` is a
readable link. -/
def passesLeft (st : Cand) (s : Prefix) : Nat := st.pending + if s.current.readable then 1 else 0

/-! ## One pass -/

/-! `readCurrent` changes nothing but the tick. -/

@[simp] theorem readCurrent_current (s : Prefix) : (readCurrent s).2.current = s.current := by
  unfold readCurrent; split <;> rfl

@[simp] theorem readCurrent_orc (s : Prefix) : (readCurrent s).2.orc = s.orc := by
  unfold readCurrent; split <;> rfl

@[simp] theorem readCurrent_attempts (s : Prefix) : (readCurrent s).2.attempts = s.attempts := by
  unfold readCurrent; split <;> rfl

@[simp] theorem readCurrent_writes (s : Prefix) : (readCurrent s).2.writes = s.writes := by
  unfold readCurrent; split <;> rfl

@[simp] theorem readCurrent_fetchOk (s : Prefix) : (readCurrent s).2.fetchOk = s.fetchOk := by
  unfold readCurrent; split <;> rfl

/-- A target read from `current` comes from a readable link. -/
theorem readCurrent_fst_ne {s : Prefix} (h : (readCurrent s).1 ≠ "") :
    s.current = .link (readCurrent s).1 true := by
  unfold readCurrent at *
  split at *
  · split_ifs at * <;> simp_all
  · exact absurd rfl h

theorem readCurrent_fst_link {s : Prefix} {t : String} (hok : s.orc s.tick = .ok)
    (hc : s.current = .link t true) : (readCurrent s).1 = t := by
  simp [readCurrent, hc, hok]

/-- Lines 878–914: the pass's target is the link's when `current` was read, and otherwise the
index's most recent candidate; a target of an index that was read and names a checkpoint is
marked fetched, and the index persisted, before the attempt. -/
theorem selectTarget_spec {ri : Bool} {st st₁ : Cand} {s s₁ : Prefix} {target : String}
    (h : selectTarget ri st s = ((target, st₁), s₁)) :
    s₁ = { (readCurrent s).2 with writes := s.writes ++
      if target ≠ "" ∧ ri ∧ st₁.ceiling ≠ -1 then [(s.attempts.length, st₁.index)] else [] } ∧
      st₁.index = (if target ≠ "" ∧ ri ∧ st₁.ceiling ≠ -1 then markFetched st.index st₁.ceiling
        else st.index) ∧
      (ri = false → st₁.ceiling = st.ceiling) ∧
      ((readCurrent s).1 ≠ "" → target = (readCurrent s).1) ∧
      ((readCurrent s).1 = "" → target ≠ "" →
        ri = true ∧ mostRecentComplete st.ceiling st.index = (st₁.ceiling, target)) := by
  unfold selectTarget at h
  rcases hr : readCurrent s with ⟨link, ⟨c, o, t, f, a, w⟩⟩
  obtain rfl : w = s.writes := by rw [← readCurrent_writes s, hr]
  obtain rfl : a = s.attempts := by rw [← readCurrent_attempts s, hr]
  simp only [bind, StateT.bind, hr, pure, StateT.pure, scrIndexWrite] at h
  cases ri <;> simp only [Bool.false_eq_true, if_true, if_false, true_and, false_and] at h <;>
    split_ifs at h <;> cases h <;> simp_all [Prod.ext_iff]

/-- A pass selects a target; without one it fails and stops, with one it attempts it, stops on
success and goes on after a failure. -/
theorem syncPass_spec {ri : Bool} {st st' : Cand} {s s' : Prefix} {r : Option Bool}
    (h : syncPass ri st s = ((r, st'), s')) :
    ∃ target st₁ s₁, selectTarget ri st s = ((target, st₁), s₁) ∧
      ((target = "" ∧ r = some false ∧ afterFetch ri target false st₁ s₁ = (st', s')) ∨
       (target ≠ "" ∧ r = (if s₁.fetchOk s₁.attempts.length then some true else none) ∧
         afterFetch ri target (s₁.fetchOk s₁.attempts.length) st₁
           { s₁ with attempts := s₁.attempts ++ [(st₁.ceiling, target)] } = (st', s'))) := by
  unfold syncPass at h
  rcases hsel : selectTarget ri st s with ⟨⟨target, st₁⟩, s₁⟩
  refine ⟨target, st₁, s₁, rfl, ?_⟩
  simp only [bind, StateT.bind, hsel, pure, StateT.pure] at h
  split_ifs at h with ht
  · rcases haf : afterFetch ri target false st₁ s₁ with ⟨st₂, s₂⟩
    subst ht
    simp only [StateT.bind, StateT.pure, pure_bind, Id.bind_eq, Id.pure_eq, haf, or_true, if_true,
      Prod.mk.injEq] at h
    obtain ⟨⟨rfl, rfl⟩, rfl⟩ := h
    exact .inl ⟨rfl, rfl, rfl⟩
  · rcases haf : afterFetch ri target (s₁.fetchOk s₁.attempts.length) st₁
      { s₁ with attempts := s₁.attempts ++ [(st₁.ceiling, target)] } with ⟨st₂, s₂⟩
    simp only [StateT.bind, StateT.pure, fetchAttempt, pure_bind, Id.bind_eq, Id.pure_eq, haf, ht,
      or_false, Prod.mk.injEq] at h
    obtain ⟨⟨rfl, rfl⟩, rfl⟩ := h
    refine .inr ⟨ht, ?_, rfl⟩
    cases s₁.fetchOk s₁.attempts.length <;> rfl

/-- Lines 919–946 whatever the calls return: a success leaves the index alone; a failed attempt
at a checkpoint the index names marks it failed and persists the index. -/
theorem afterFetch_eq {ri : Bool} {target : String} {ok : Bool} {st : Cand} {s : Prefix} :
    afterFetch ri target ok st s =
    if ok then (st, (symlinkCurrent target s).2)
    else ({ st with
        index := if ri = true ∧ st.ceiling ≠ -1 ∧ target ≠ "" then markFailed st.index st.ceiling
          else st.index },
      { (unlinkCurrent s).2 with
        writes := s.writes ++ if ri = true ∧ st.ceiling ≠ -1 ∧ target ≠ "" then
          [(s.attempts.length, markFailed st.index st.ceiling)] else [] }) := by
  unfold afterFetch
  cases ok
  · by_cases hc : ri = true ∧ st.ceiling ≠ -1 ∧ target ≠ ""
    · simp only [Bool.false_eq_true, if_false, if_pos hc]
      rfl
    · simp only [Bool.false_eq_true, if_false, if_neg hc, List.append_nil]
      rfl
  · rfl

/-- Lines 933–942 when `unlink` succeeds: `current` is gone, and the target's checkpoint is
marked failed, and the index persisted. -/
theorem afterFetch_false {ri : Bool} {target : String} {st : Cand} {s : Prefix}
    (hok : s.orc s.tick = .ok) :
    afterFetch ri target false st s =
      ({ st with index := if ri ∧ st.ceiling ≠ -1 ∧ target ≠ "" then markFailed st.index st.ceiling
          else st.index }, { s.tock with
        current := .absent
        writes := s.writes ++ if ri ∧ st.ceiling ≠ -1 ∧ target ≠ "" then
          [(s.attempts.length, markFailed st.index st.ceiling)] else [] }) := by
  simp only [afterFetch_eq, Bool.false_eq_true, if_false, unlinkCurrent, hok, if_true]

theorem afterFetch_true {ri : Bool} {target : String} {st : Cand} {s : Prefix} :
    afterFetch ri target true st s = (st, (symlinkCurrent target s).2) := rfl

section Pass

variable {ri : Bool} {st st' : Cand} {s s' : Prefix}

/-- The target of a pass leaves fewer candidates below the new ceiling than the potential: the
link's target is met only while there is no ceiling, and the index's is excluded by its own id. -/
theorem selectTarget_pending_lt {target : String} {st₁ : Cand} {s₁ : Prefix}
    (hfresh : s.current.readable = true → st.ceiling = -1)
    (h : selectTarget ri st s = ((target, st₁), s₁)) (ht : target ≠ "") :
    st.index.countP (·.below st₁.ceiling) < passesLeft st s := by
  obtain ⟨-, -, -, -, hidx⟩ := selectTarget_spec h
  unfold passesLeft Cand.pending
  by_cases hl : (readCurrent s).1 = ""
  · obtain ⟨-, hm⟩ := hidx hl ht
    rcases mostRecentComplete_cases st.ceiling st.index with h0 | ⟨r, hr, hb, hid, heq⟩
    · simp only [h0, Prod.mk.injEq] at hm
      exact absurd hm.2.symm ht
    · obtain ⟨hc, -⟩ := Prod.mk.inj (heq.symm.trans hm)
      have := countP_lt_of_mem (p := (·.below r.id)) (q := (·.below st.ceiling))
        (fun x _ hx => IndexRecord.below_of_below_id hb hid hx) hr hb (IndexRecord.below_id_self hid)
      rw [← hc]
      omega
  · have hread : s.current.readable = true := by rw [readCurrent_fst_ne hl]; rfl
    have := List.countP_mono_left (l := st.index) (p := (·.below st₁.ceiling)) (q := (·.below (-1)))
      fun _ _ => IndexRecord.below_neg_one
    simp only [hread, if_true, hfresh hread]
    omega

/-- A pass that goes on, when `unlink` succeeds, leaves `current` gone, the calls' answers as
they were, and, if a readable `current` was met only without a ceiling, a smaller potential. -/
theorem syncPass_continue (hok : ∀ k, s.orc k = .ok) (h : syncPass ri st s = ((none, st'), s')) :
    s'.current = .absent ∧ s'.orc = s.orc ∧
      ((s.current.readable = true → st.ceiling = -1) → passesLeft st' s' < passesLeft st s) := by
  obtain ⟨target, st₁, s₁, hsel, ⟨-, h, -⟩ | ⟨ht, hr, h⟩⟩ := syncPass_spec h
  · cases h
  obtain ⟨rfl, hidx, -, -, -⟩ := selectTarget_spec hsel
  have hfail : (readCurrent s).2.fetchOk (readCurrent s).2.attempts.length = false := by
    revert hr; cases (readCurrent s).2.fetchOk (readCurrent s).2.attempts.length <;> simp
  rw [hfail, afterFetch_false (by rw [readCurrent_orc]; exact hok _), Prod.mk.injEq] at h
  obtain ⟨rfl, rfl⟩ := h
  refine ⟨rfl, readCurrent_orc s, fun hfresh => ?_⟩
  have hmark : (if ri = true ∧ st₁.ceiling ≠ -1 ∧ target ≠ "" then markFailed st₁.index st₁.ceiling
      else st₁.index).countP (·.below st₁.ceiling) ≤ st₁.index.countP (·.below st₁.ceiling) := by
    split_ifs
    exacts [countP_below_markFailed_le _ _ _, le_rfl]
  have hfetch : st₁.index.countP (·.below st₁.ceiling) = st.index.countP (·.below st₁.ceiling) := by
    rw [hidx]
    split_ifs
    exacts [countP_below_markFetched _ _ _, rfl]
  have := selectTarget_pending_lt hfresh hsel ht
  simp only [passesLeft, Cand.pending, Current.readable, Bool.false_eq_true, if_false,
    Nat.add_zero] at this ⊢
  omega

/-- A pass that succeeds, when the calls succeed and `current` does not dangle, records one
attempt and leaves `current` a readable link to its target. -/
theorem syncPass_success (hok : ∀ k, s.orc k = .ok)
    (hcur : s.current = .absent ∨ ∃ t, t ≠ "" ∧ s.current = .link t true)
    (h : syncPass ri st s = ((some true, st'), s')) :
    ∃ c t, s'.attempts = s.attempts ++ [(c, t)] ∧ s'.current = .link t true := by
  obtain ⟨target, st₁, s₁, hsel, ⟨-, h, -⟩ | ⟨ht, hr, h⟩⟩ := syncPass_spec h
  · cases h
  obtain ⟨rfl, -, -, hlink, -⟩ := selectTarget_spec hsel
  have hok' : (readCurrent s).2.fetchOk (readCurrent s).2.attempts.length = true := by
    revert hr; cases (readCurrent s).2.fetchOk (readCurrent s).2.attempts.length <;> simp
  rw [hok', afterFetch_true, Prod.mk.injEq] at h
  obtain ⟨-, rfl⟩ := h
  refine ⟨st₁.ceiling, target, by simp [symlinkCurrent, Prefix.tock], ?_⟩
  rcases hcur with hc | ⟨t, hne, hc⟩
  · simp [symlinkCurrent, hc, hok, Prefix.tock]
  · have hread := readCurrent_fst_link (hok _) hc
    obtain rfl : target = t := (hlink (hread ▸ hne)).trans hread
    simp [symlinkCurrent, hc, Prefix.tock]

/-- A pass that stops with failure, when `unlink` succeeds, leaves `current` gone. -/
theorem syncPass_failure (hok : ∀ k, s.orc k = .ok) (h : syncPass ri st s = ((some false, st'), s')) :
    s'.current = .absent := by
  obtain ⟨target, st₁, s₁, hsel, ⟨-, -, h⟩ | ⟨-, hr, -⟩⟩ := syncPass_spec h
  · obtain ⟨rfl, -⟩ := selectTarget_spec hsel
    rw [afterFetch_false (by rw [readCurrent_orc]; exact hok _), Prod.mk.injEq] at h
    rw [← h.2]
  · revert hr
    split <;> simp

end Pass

/-! ## The loop -/

/-- The loop returns once its fuel exceeds the potential, when the calls succeed and a readable
`current` is met only without a ceiling. -/
theorem syncLoop_isSome (ri : Bool) : ∀ (fuel : Nat) (st : Cand) (s : Prefix),
    (∀ k, s.orc k = .ok) → (s.current.readable = true → st.ceiling = -1) →
      passesLeft st s < fuel → (syncLoop ri fuel st s).isSome
  | 0, _, _, _, _, h => absurd h (Nat.not_lt_zero _)
  | fuel + 1, st, s, hok, hfresh, hfuel => by
    unfold syncLoop
    rcases hp : syncPass ri st s with ⟨⟨_ | rc, st'⟩, s'⟩
    · obtain ⟨hc, horc, hlt⟩ := syncPass_continue hok hp
      exact syncLoop_isSome ri fuel st' s' (horc ▸ hok) (by simp [hc, Current.readable])
        (by have := hlt hfresh; omega)
    · rfl

/-- When the calls succeed and `current` does not dangle, the loop leaves `current` as its
return code says: a readable link to the target of the last attempt after a success, gone after
a failure. -/
theorem syncLoop_current (ri : Bool) : ∀ (fuel : Nat) (st : Cand) (s s' : Prefix) (rc attempted : Bool),
    (∀ k, s.orc k = .ok) → (s.current = .absent ∨ ∃ t, t ≠ "" ∧ s.current = .link t true) →
    syncLoop ri fuel st s = some ((rc, attempted), s') →
      (rc = true → ∃ c t, s'.attempts.getLast? = some (c, t) ∧ s'.current = .link t true) ∧
        (rc = false → s'.current = .absent)
  | 0, _, _, _, _, _, _, _, h => by cases h
  | fuel + 1, st, s, s', rc, attempted, hok, hcur, h => by
    unfold syncLoop at h
    rcases hp : syncPass ri st s with ⟨⟨_ | rc', st₁⟩, s₁⟩ <;> rw [hp] at h
    · obtain ⟨hc, horc, -⟩ := syncPass_continue hok hp
      exact syncLoop_current ri fuel st₁ s₁ s' rc attempted (horc ▸ hok) (.inl hc) h
    · simp only [Option.some.injEq, Prod.mk.injEq] at h
      obtain ⟨⟨rfl, -⟩, rfl⟩ := h
      cases rc'
      · exact ⟨nofun, fun _ => syncPass_failure hok hp⟩
      · obtain ⟨c, t, ha, hc⟩ := syncPass_success hok hcur hp
        exact ⟨fun _ => ⟨c, t, by simp [ha], hc⟩, nofun⟩

/-- The potential of the first pass: at most every record, and the link. -/
theorem passesLeft_start (index : List IndexRecord) (s : Prefix) :
    passesLeft ⟨index, -1, false⟩ s ≤ index.length + 1 := by
  have := List.countP_le_length (·.below (-1)) (l := index)
  unfold passesLeft Cand.pending
  dsimp only
  split_ifs <;> omega

/-- When every call of rank 0 on the prefix directory succeeds, whatever each attempt returns,
`scr_fetch_sync` returns within `n + 2` passes, `n` the number of records of the index it read. -/
theorem scrFetchSync_terminates {s : Prefix} (hok : ∀ k, s.orc k = .ok)
    (index : Option (List IndexRecord)) (fuel : Nat) (hfuel : (index.getD []).length + 2 ≤ fuel) :
    (scrFetchSync fuel index s).isSome :=
  syncLoop_isSome _ fuel _ s hok (fun _ => rfl)
    (Nat.lt_of_le_of_lt (passesLeft_start _ s) (by omega))

/-- `current` names `ckpt.9`, which the index of checkpoints 1 and 2 does not have, and every
attempt fails: the loop tries `ckpt.9`, `ckpt.2` and `ckpt.1`, and gives up in the fourth pass. -/
theorem scrFetchSync_terminates_all_fail :
    let s : Prefix := ⟨.link "ckpt.9" true, fun _ => .ok, 0, fun _ => false, [], []⟩
    let index := [⟨1, "ckpt.1", true, false, false⟩, ⟨2, "ckpt.2", true, false, false⟩]
    (∀ k, s.orc k = .ok) ∧ index.length + 2 ≤ 4 ∧ (scrFetchSync 4 (some index) s).isSome := by
  intro s index
  exact ⟨fun _ => rfl, le_rfl, scrFetchSync_terminates (fun _ => rfl) (some index) 4 le_rfl⟩

/-- The bound is reached: with three passes the same loop has not returned. -/
example : (scrFetchSync 3 (some [⟨1, "ckpt.1", true, false, false⟩, ⟨2, "ckpt.2", true, false, false⟩])
    ⟨.link "ckpt.9" true, fun _ => .ok, 0, fun _ => false, [], []⟩).isNone := by
  decide

/-- When every call of rank 0 on the prefix directory succeeds and `current` does not dangle at
the start, `scr_fetch_sync` leaves `current` as its return code says: on success a readable link
to the target of its last attempt, on failure no link at all. -/
theorem scrFetchSync_current_matches {s s' : Prefix} {fuel : Nat}
    {index : Option (List IndexRecord)} {rc attempted : Bool} (hok : ∀ k, s.orc k = .ok)
    (hcur : s.current = .absent ∨ ∃ t, t ≠ "" ∧ s.current = .link t true)
    (h : scrFetchSync fuel index s = some ((rc, attempted), s')) :
    (rc = true → ∃ c t, s'.attempts.getLast? = some (c, t) ∧ s'.current = .link t true) ∧
      (rc = false → s'.current = .absent) :=
  syncLoop_current _ fuel _ s s' rc attempted hok hcur h

/-- No `current`, an index with checkpoint 1, and its fetch succeeds: `current` then links to
`ckpt.1`. -/
theorem scrFetchSync_current_matches_fresh :
    let s : Prefix := ⟨.absent, fun _ => .ok, 0, fun _ => true, [], []⟩
    ∃ rc attempted s', scrFetchSync 2 (some [⟨1, "ckpt.1", true, false, false⟩]) s =
        some ((rc, attempted), s') ∧
      (rc = true → ∃ c t, s'.attempts.getLast? = some (c, t) ∧ s'.current = .link t true) ∧
        (rc = false → s'.current = .absent) := by
  intro s
  exact ⟨_, _, _, rfl, @scrFetchSync_current_matches s _ 2 (some [⟨1, "ckpt.1", true, false, false⟩]) _ _
    (fun _ => rfl) (.inl rfl) rfl⟩

end ScrFetch
