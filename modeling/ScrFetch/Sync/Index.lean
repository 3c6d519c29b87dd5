import ScrFetch.Sync.Progress

/-!
# The index writes of `scr_fetch_sync`

Rank 0 changes the index in two ways only, and persists it after each: `mark_fetched` on a
checkpoint right before it is attempted (lines 907–913), and `mark_failed` on the same checkpoint
after its attempt failed (lines 932–940). `markLog` writes this rule down over the attempts of a
run and their outcomes, and

> `scrFetchSync_index_writes`: for every index, every `current`, every answer of rank 0's calls
> and every outcome of the attempts, a run that returns has written exactly `markLog` of its
> attempts: nothing when the index was not read, no change to a checkpoint it did not attempt,
> and, after each failed attempt at a checkpoint of the index, a write that marks it failed.

The rule does not keep the checkpoint a run fetches from being one it marked failed: when the
unlink of `current` fails, the next pass reads the same link and attempts the same checkpoint
again (`scrFetchSync_fetches_marked_failed`).
-/

namespace ScrFetch

/-! ## The rule -/

/-- The index writes the rule allows, from the index `index` after `j` attempts, over the
attempts `as`, `ok k` being the outcome of the `k`-th: an attempt at a checkpoint of the index
(its id is not `-1`) writes the index marked fetched, and after a failure writes it marked
failed, once the attempt is counted. -/
def markLog (ok : Nat → Bool) : List IndexRecord → Nat → List (Int × String) →
    List (Nat × List IndexRecord)
  | _, _, [] => []
  | index, j, (id, _) :: rest =>
    if id = -1 then markLog ok index (j + 1) rest
    else if ok j then (j, markFetched index id) :: markLog ok (markFetched index id) (j + 1) rest
    else (j, markFetched index id) :: (j + 1, markFailed (markFetched index id) id) ::
      markLog ok (markFailed (markFetched index id) id) (j + 1) rest

/-- The index in memory after the attempts `as`, by the same rule. -/
def markIndex (ok : Nat → Bool) : List IndexRecord → Nat → List (Int × String) → List IndexRecord
  | index, _, [] => index
  | index, j, (id, _) :: rest =>
    if id = -1 then markIndex ok index (j + 1) rest
    else if ok j then markIndex ok (markFetched index id) (j + 1) rest
    else markIndex ok (markFailed (markFetched index id) id) (j + 1) rest

/-- One more attempt adds its own writes, made to the index the earlier ones left. -/
theorem markLog_append (ok : Nat → Bool) (a : Int × String) :
    ∀ (as : List (Int × String)) (index : List IndexRecord) (j : Nat),
      markLog ok index j (as ++ [a]) =
        markLog ok index j as ++ markLog ok (markIndex ok index j as) (j + as.length) [a]
  | [], _, _ => rfl
  | (id, t) :: rest, index, j => by
    have h := fun index => markLog_append ok a rest index (j + 1)
    rw [Nat.add_assoc, Nat.add_comm 1] at h
    rw [List.cons_append, markLog.eq_2, markLog.eq_2 ok index j id t rest,
      markIndex.eq_2 ok index j id t rest, List.length_cons]
    split_ifs <;> simp only [h, List.cons_append]

theorem markIndex_append (ok : Nat → Bool) (a : Int × String) :
    ∀ (as : List (Int × String)) (index : List IndexRecord) (j : Nat),
      markIndex ok index j (as ++ [a]) =
        markIndex ok (markIndex ok index j as) (j + as.length) [a]
  | [], _, _ => rfl
  | (id, t) :: rest, index, j => by
    have h := fun index => markIndex_append ok a rest index (j + 1)
    rw [Nat.add_assoc, Nat.add_comm 1] at h
    rw [List.cons_append, markIndex.eq_2, markIndex.eq_2 ok index j id t rest, List.length_cons]
    split_ifs <;> simp only [h]

/-- Marking one checkpoint leaves the records of every other checkpoint alone. -/
theorem filter_map_mark {g : IndexRecord → IndexRecord} (hg : ∀ r, (g r).id = r.id)
    (index : List IndexRecord) {c id : Int} (h : c ≠ id) :
    (index.map fun r => if r.id = c then g r else r).filter (·.id = id) = index.filter (·.id = id) := by
  induction index with
  | nil => rfl
  | cons x rest ih =>
    by_cases hx : x.id = c
    · have hy : x.id ≠ id := hx ▸ h
      simp [List.filter_cons, hx, h, hy, hg, ih]
    · simp [List.filter_cons, hx, ih]

theorem markFetched_filter (index : List IndexRecord) {c id : Int} (h : c ≠ id) :
    (markFetched index c).filter (·.id = id) = index.filter (·.id = id) :=
  filter_map_mark (g := fun r => { r with fetched := true }) (fun _ => rfl) index h

theorem markFailed_filter (index : List IndexRecord) {c id : Int} (h : c ≠ id) :
    (markFailed index c).filter (·.id = id) = index.filter (·.id = id) :=
  filter_map_mark (g := fun r => { r with failed := true }) (fun _ => rfl) index h

/-- After `mark_failed(id)` every record of `id` is failed. -/
theorem markFailed_failed {index : List IndexRecord} {id : Int} {x : IndexRecord}
    (hx : x ∈ markFailed index id) (hid : x.id = id) : x.failed = true := by
  obtain ⟨r, -, rfl⟩ := List.mem_map.1 hx
  by_cases hr : r.id = id
  · simp [hr]
  · simp [hr] at hid

/-- Attempts at no checkpoint of the index write nothing. -/
theorem markLog_neg_one (ok : Nat → Bool) : ∀ (as : List (Int × String)) (index : List IndexRecord)
    (j : Nat), (∀ a ∈ as, a.1 = -1) → markLog ok index j as = []
  | [], _, _, _ => rfl
  | (c, t) :: rest, index, j, h => by
    rw [markLog.eq_2, if_pos (h (c, t) (.head _))]
    exact markLog_neg_one ok rest index (j + 1) fun a ha => h a (.tail _ ha)

/-- The rule never touches a checkpoint no attempt named: every write holds its records as the
index did. -/
theorem markLog_filter (ok : Nat → Bool) {id : Int} : ∀ (as : List (Int × String))
    (index : List IndexRecord) (j : Nat), (∀ a ∈ as, a.1 ≠ id) →
      ∀ w ∈ markLog ok index j as, w.2.filter (·.id = id) = index.filter (·.id = id)
  | [], _, _, _, _, hw => nomatch hw
  | (c, t) :: rest, index, j, h, w, hw => by
    have hc : c ≠ id := h (c, t) (.head _)
    have hrest : ∀ a ∈ rest, a.1 ≠ id := fun a ha => h a (.tail _ ha)
    have hfetched := markFetched_filter index hc
    have hfailed := (markFailed_filter (markFetched index c) hc).trans hfetched
    rw [markLog.eq_2] at hw
    split_ifs at hw
    · exact markLog_filter ok rest index (j + 1) hrest w hw
    · rcases List.mem_cons.1 hw with rfl | hw
      · exact hfetched
      · exact (markLog_filter ok rest _ (j + 1) hrest w hw).trans hfetched
    · rcases List.mem_cons.1 hw with rfl | hw
      · exact hfetched
      rcases List.mem_cons.1 hw with rfl | hw
      · exact hfailed
      · exact (markLog_filter ok rest _ (j + 1) hrest w hw).trans hfailed

/-- Under the rule, the failed attempt `k` at a checkpoint of the index is followed by a write
that marks it failed. -/
theorem markLog_failed (ok : Nat → Bool) : ∀ (as : List (Int × String)) (index : List IndexRecord)
    (j k : Nat) (c : Int) (t : String), as[k]? = some (c, t) → c ≠ -1 → ok (j + k) = false →
      ∃ w, (j + k + 1, w) ∈ markLog ok index j as ∧ ∀ x ∈ w, x.id = c → x.failed = true
  | [], _, _, _, _, _, h, _, _ => nomatch h
  | (c', t') :: rest, index, j, 0, c, t, h, hc, hok => by
    simp only [List.getElem?_cons_zero, Option.some.injEq, Prod.mk.injEq] at h
    obtain ⟨rfl, rfl⟩ := h
    rw [Nat.add_zero] at hok ⊢
    refine ⟨markFailed (markFetched index c') c', ?_, fun x hx => markFailed_failed hx⟩
    simp [markLog, hc, hok]
  | (c', t') :: rest, index, j, k + 1, c, t, h, hc, hok => by
    rw [List.getElem?_cons_succ] at h
    have hmark : ∀ index', ∃ w, (j + (k + 1) + 1, w) ∈ markLog ok index' (j + 1) rest ∧
        ∀ x ∈ w, x.id = c → x.failed = true := fun index' => by
      have := markLog_failed ok rest index' (j + 1) k c t h hc (by rw [← hok]; congr 1; omega)
      rwa [show j + 1 + k + 1 = j + (k + 1) + 1 by omega] at this
    rw [markLog.eq_2]
    split_ifs
    · exact hmark index
    · obtain ⟨w, hw, hx⟩ := hmark (markFetched index c')
      exact ⟨w, .tail _ hw, hx⟩
    · obtain ⟨w, hw, hx⟩ := hmark (markFailed (markFetched index c') c')
      exact ⟨w, .tail _ (.tail _ hw), hx⟩

/-! ## One pass -/

section Pass

variable {ri : Bool} {target : String} {ok : Bool} {st : Cand} {s : Prefix}

@[simp] theorem afterFetch_attempts : (afterFetch ri target ok st s).2.attempts = s.attempts := by
  cases ok <;> simp [afterFetch_eq, symlinkCurrent, unlinkCurrent, Prefix.tock]

@[simp] theorem afterFetch_fetchOk : (afterFetch ri target ok st s).2.fetchOk = s.fetchOk := by
  cases ok <;> simp [afterFetch_eq, symlinkCurrent, unlinkCurrent, Prefix.tock]

@[simp] theorem afterFetch_ceiling : (afterFetch ri target ok st s).1.ceiling = st.ceiling := by
  cases ok <;> simp [afterFetch_eq]

@[simp] theorem afterFetch_index : (afterFetch ri target ok st s).1.index =
    if ok = false ∧ ri = true ∧ st.ceiling ≠ -1 ∧ target ≠ "" then markFailed st.index st.ceiling
    else st.index := by
  cases ok <;> simp [afterFetch_eq]

@[simp] theorem afterFetch_writes : (afterFetch ri target ok st s).2.writes = s.writes ++
    if ok = false ∧ ri = true ∧ st.ceiling ≠ -1 ∧ target ≠ "" then
      [(s.attempts.length, markFailed st.index st.ceiling)] else [] := by
  cases ok <;> simp [afterFetch_eq, symlinkCurrent, unlinkCurrent, Prefix.tock]

end Pass

/-! ## The run follows the rule -/

/-- The run so far follows the rule from `index`: its writes are `markLog` of its attempts, the
index in memory is `markIndex` of them, and when the index was not read no attempt names a
checkpoint. -/
structure LogInv (ri : Bool) (ok : Nat → Bool) (index : List IndexRecord) (st : Cand) (s : Prefix) :
    Prop where
  fetchOk : s.fetchOk = ok
  writes : s.writes = markLog ok index 0 s.attempts
  mem : st.index = markIndex ok index 0 s.attempts
  unread : ri = false → st.ceiling = -1 ∧ ∀ a ∈ s.attempts, a.1 = -1

/-- Every pass keeps the rule, whatever the calls and the attempt return. -/
theorem syncPass_log {ri : Bool} {ok : Nat → Bool} {index : List IndexRecord} {st st' : Cand}
    {s s' : Prefix} {r : Option Bool} (hi : LogInv ri ok index st s)
    (h : syncPass ri st s = ((r, st'), s')) : LogInv ri ok index st' s' := by
  obtain ⟨target, st₁, s₁, hsel, ⟨ht, -, h⟩ | ⟨ht, -, h⟩⟩ := syncPass_spec h
  all_goals
    obtain ⟨rfl, hidx, hceil, -, -⟩ := selectTarget_spec hsel
    obtain rfl : st' = (afterFetch _ _ _ _ _).1 := by rw [h]
    obtain rfl : s' = (afterFetch _ _ _ _ _).2 := by rw [h]
  · -- no target: nothing is attempted, marked or written
    subst ht
    simp only [ne_eq, not_true_eq_false, false_and, if_false] at hidx
    refine ⟨by simp [hi.fetchOk], by simp [hi.writes], by simp [hidx, hi.mem], fun hri => ?_⟩
    exact ⟨by simp [hceil hri, (hi.unread hri).1], by simpa using (hi.unread hri).2⟩
  · -- an attempt at `target`, for the checkpoint `st₁.ceiling`
    by_cases hcm : st₁.ceiling = -1
    · -- it names no checkpoint of the index: nothing is marked or written
      refine ⟨by simp [hi.fetchOk], ?_, ?_, fun hri => ⟨by simp [hcm], fun a ha => ?_⟩⟩
      · rw [afterFetch_writes, afterFetch_attempts]
        simp [hcm, hi.writes, markLog_append, markLog]
      · rw [afterFetch_index, afterFetch_attempts]
        simp [hcm, hidx, hi.mem, markIndex_append, markIndex]
      · rw [afterFetch_attempts] at ha
        simp only [readCurrent_attempts, List.mem_append, List.mem_singleton] at ha
        rcases ha with ha | rfl
        exacts [(hi.unread hri).2 a ha, hcm]
    · -- it names one, so the index was read
      obtain rfl : ri = true := by
        cases ri
        exacts [absurd ((hceil rfl).trans (hi.unread rfl).1) hcm, rfl]
      refine ⟨by simp [hi.fetchOk], ?_, ?_, nofun⟩
      · rw [afterFetch_writes, afterFetch_attempts]
        cases hok : ok s.attempts.length <;>
          simp [hi.fetchOk, hi.writes, ← hi.mem, markLog_append, markLog, hcm, hok, ht, hidx]
      · rw [afterFetch_index, afterFetch_attempts]
        cases hok : ok s.attempts.length <;>
          simp [hi.fetchOk, hi.mem, markIndex_append, markIndex, hcm, hok, ht, hidx]

/-- The whole loop keeps the rule. -/
theorem syncLoop_log {ri : Bool} {ok : Nat → Bool} {index : List IndexRecord} :
    ∀ {fuel : Nat} {st : Cand} {s s' : Prefix} {r : Bool × Bool}, LogInv ri ok index st s →
      syncLoop ri fuel st s = some (r, s') → ∃ st', LogInv ri ok index st' s'
  | 0, _, _, _, _, _, h => by cases h
  | fuel + 1, st, s, s', r, hi, h => by
    unfold syncLoop at h
    rcases hp : syncPass ri st s with ⟨⟨_ | rc, st₁⟩, s₁⟩ <;> rw [hp] at h
    · exact syncLoop_log (syncPass_log hi hp) h
    · simp only [Option.some.injEq, Prod.mk.injEq] at h
      obtain ⟨-, rfl⟩ := h
      exact ⟨st₁, syncPass_log hi hp⟩

/-- The loop starts within the rule: nothing attempted, nothing written. -/
theorem LogInv.start (index : Option (List IndexRecord)) {s : Prefix}
    (hs : s.attempts = [] ∧ s.writes = []) :
    LogInv index.isSome s.fetchOk (index.getD []) ⟨index.getD [], -1, false⟩ s :=
  ⟨rfl, by rw [hs.1, hs.2]; rfl, by rw [hs.1]; rfl, fun _ => ⟨rfl, by simp [hs.1]⟩⟩

/-- For every index, every `current`, every answer of rank 0's calls and every outcome of the
attempts, a run of `scr_fetch_sync` that returns has written the index exactly as the rule says:
not at all when the index was not read; never changing a checkpoint that no attempt named; and,
after each failed attempt at a checkpoint of the index, before the next attempt, a write that
marks it failed. -/
theorem scrFetchSync_index_writes {fuel : Nat} {index : Option (List IndexRecord)} {s s' : Prefix}
    {r : Bool × Bool} (hs : s.attempts = [] ∧ s.writes = [])
    (h : scrFetchSync fuel index s = some (r, s')) :
    s'.writes = markLog s.fetchOk (index.getD []) 0 s'.attempts ∧
    (index = none → s'.writes = []) ∧
    (∀ id, (∀ a ∈ s'.attempts, a.1 ≠ id) →
      ∀ w ∈ s'.writes, w.2.filter (·.id = id) = (index.getD []).filter (·.id = id)) ∧
    (∀ k c t, s'.attempts[k]? = some (c, t) → c ≠ -1 → s.fetchOk k = false →
      ∃ w, (k + 1, w) ∈ s'.writes ∧ ∀ x ∈ w, x.id = c → x.failed = true) := by
  obtain ⟨st', hi⟩ := syncLoop_log (LogInv.start index hs) h
  refine ⟨hi.writes, fun hn => ?_, fun id hid => hi.writes ▸ markLog_filter _ _ _ 0 hid,
    fun k c t hk hc hok => ?_⟩
  · subst hn
    rw [hi.writes]
    exact markLog_neg_one _ _ _ 0 (hi.unread rfl).2
  · have := markLog_failed s.fetchOk s'.attempts (index.getD []) 0 k c t hk hc (by rwa [Nat.zero_add])
    rwa [hi.writes, ← Nat.zero_add k]

/-- Checkpoints 1 and 2 in the index, no `current`, the first attempt failing: the run writes
checkpoint 2 fetched, then failed, then checkpoint 1 fetched. -/
theorem scrFetchSync_index_writes_two :
    let s : Prefix := ⟨.absent, fun _ => .ok, 0, fun k => k == 1, [], []⟩
    let index := [⟨1, "ckpt.1", true, false, false⟩, ⟨2, "ckpt.2", true, false, false⟩]
    ∃ r s', scrFetchSync 3 (some index) s = some (r, s') ∧
      s'.writes = markLog s.fetchOk index 0 s'.attempts ∧
      s'.writes = [(0, [⟨1, "ckpt.1", true, false, false⟩, ⟨2, "ckpt.2", true, false, true⟩]),
        (1, [⟨1, "ckpt.1", true, false, false⟩, ⟨2, "ckpt.2", true, true, true⟩]),
        (1, [⟨1, "ckpt.1", true, false, true⟩, ⟨2, "ckpt.2", true, true, true⟩])] := by
  intro s index
  exact ⟨_, _, rfl, (@scrFetchSync_index_writes 3 (some index) s _ _ ⟨rfl, rfl⟩ rfl).1, by decide⟩

/-- `current` names checkpoint 1, its unlink fails, the first attempt fails and the second
succeeds: the run fetches checkpoint 1, which its first failure marked failed in the index it
persisted, and which is still marked failed in the index it leaves. -/
theorem scrFetchSync_fetches_marked_failed :
    let s : Prefix := ⟨.link "ckpt.1" true, fun n => if n % 2 = 0 then .ok else .fail, 0,
      fun k => k == 1, [], []⟩
    (scrFetchSync 3 (some [⟨1, "ckpt.1", true, false, false⟩]) s).map
      (fun p => (p.1.1, p.2.attempts, p.2.writes)) =
      some (true, [(1, "ckpt.1"), (1, "ckpt.1")],
        [(0, [⟨1, "ckpt.1", true, false, true⟩]), (1, [⟨1, "ckpt.1", true, true, true⟩]),
          (1, [⟨1, "ckpt.1", true, true, true⟩])]) := by
  decide

end ScrFetch
