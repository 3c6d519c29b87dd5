import Mathlib
import ScrFetch.Window.GoFlags

/-!
# Every schedule of the window ends, and with a width of at least 1 it ends with all ranks returned

`scr_fetch_data` is a protocol between rank 0 and the other ranks, and whether it returns is a
question about every interleaving of their moves. Two facts answer it:

> `scrFetchData_length_le`: for every setup, every schedule the ranks can follow has at most
> `5 N - 2` moves, and a schedule on three ranks takes exactly that many. `movesLeft` is a
> potential that every move lowers: rank 0's program counter, three moves per rank it still has
> to post to, two per reply it still has to consume, and what each other rank still has to do.

> `scrFetchData_completes`: with `scr_fetch_width ≥ 1` (and at most `2^30` ranks, so that
> the `int` product `2 * w` of the `malloc` does not wrap), a schedule that no move can extend
> ends with every rank returned from `scr_alltrue`, with `SCR_SUCCESS` exactly when every rank's
> `scr_fetch_files_list` succeeded. No run reaches the `abort` of a failed `malloc` or the
> undefined behaviour of the code (`scrFetchData_no_fault`, from the invariant `Live`: each
> posted receive carries the exchange of one rank, at the stage that rank has reached), and in
> every state that has not returned some move is enabled (`live_progress`): rank 0's, the
> `MPI_Recv` or `MPI_Send` of the rank whose exchange a reply slot carries, or `scr_alltrue`.

`scrFetchData_zero_width_faults` shows the width hypothesis is needed: with a width of 0 rank 0
reads outside its request array.
-/

namespace ScrFetch.Window

/-! ## Counting over a list of slots or ranks -/

/-- Changing a function at one point of a duplicate-free list changes its sum over the list by
the difference. -/
theorem sum_map_update {l : List Nat} (hl : l.Nodup) {a : Nat} (ha : a ∈ l) (f : Nat → Nat)
    (v : Nat) : (l.map (Function.update f a v)).sum + f a = (l.map f).sum + v := by
  induction l with
  | nil => cases ha
  | cons x xs ih =>
    rw [List.nodup_cons] at hl
    simp only [List.map_cons, List.sum_cons]
    by_cases hx : x = a
    · subst hx
      have hxs : xs.map (Function.update f x v) = xs.map f :=
        List.map_congr_left fun y hy =>
          Function.update_noteq (fun (h : y = x) => hl.1 (h ▸ hy)) _ _
      rw [hxs, Function.update_same]
      omega
    · have := ih hl.2 ((List.mem_cons.1 ha).resolve_left (Ne.symm hx))
      rw [Function.update_noteq hx]
      omega

/-- Changing a predicate at one point of a duplicate-free list changes how many elements
satisfy it by at most that point. -/
theorem countP_update {l : List Nat} (hl : l.Nodup) {a : Nat} (ha : a ∈ l) {p q : Nat → Bool}
    (h : ∀ x ∈ l, x ≠ a → p x = q x) :
    l.countP q + (if p a then 1 else 0) = l.countP p + (if q a then 1 else 0) := by
  induction l with
  | nil => cases ha
  | cons x xs ih =>
    rw [List.nodup_cons] at hl
    by_cases hx : x = a
    · subst hx
      have hxs : xs.countP q = xs.countP p :=
        List.countP_congr fun y hy => by
          rw [h y (List.mem_cons_of_mem _ hy) fun (h : y = x) => hl.1 (h ▸ hy)]
      simp only [List.countP_cons, hxs]
      omega
    · have := ih hl.2 ((List.mem_cons.1 ha).resolve_left (Ne.symm hx))
        fun y hy => h y (List.mem_cons_of_mem _ hy)
      simp only [List.countP_cons, h x (List.mem_cons_self _ _) hx]
      omega

/-! ## The potential -/

/-- What a rank other than 0 still has to do before `scr_alltrue`: receive its go flag, send
its reply. -/
def Rank.movesLeft : Rank → Nat
  | .recv => 2
  | .send _ => 1
  | _ => 0

/-- Rank 0's program counter, lowered by each of its moves that neither posts nor consumes. -/
def Pc.movesLeft : Pc → Nat
  | .alloc => 3
  | .head => 2
  | .waitany => 1
  | .reduce => 1
  | _ => 0

/-- The receives posted in the reply slots `req[w..2w)`. -/
def postedRecvs (w : Int) (req : Int → Req) : Nat :=
  (List.range w.toNat).countP fun (j : Nat) => (req (w + j)).active

/-- What the ranks other than 0 still have to do. -/
def ranksLeft (N : Nat) (rank : Nat → Rank) : Nat :=
  ((List.range' 1 (N - 1)).map fun r => (rank r).movesLeft).sum

/-- The potential of the window: rank 0's program counter, a post and two loop heads for each
rank it has not posted to, a consumption and a loop head for each reply it has not consumed,
and what the other ranks still have to do. -/
def movesLeft (S : Setup) (s : World) : Nat :=
  s.pc.movesLeft + 3 * (S.N - s.i) + 2 * postedRecvs S.w s.req + ranksLeft S.N s.rank

variable {S : Setup} {s t : World}

/-- Writing a request outside the reply slots leaves the posted receives as they were. -/
theorem postedRecvs_update_low {w p : Int} (hp : p < w) (req : Int → Req) (x : Req) :
    postedRecvs w (Function.update req p x) = postedRecvs w req :=
  List.countP_congr fun j _ => by rw [Function.update_noteq (by omega)]

/-- Writing reply slot `w + j` changes the posted receives by that slot alone. -/
theorem postedRecvs_update_high {w j : Int} (h0 : 0 ≤ j) (hj : j < w) (req : Int → Req)
    (x : Req) :
    postedRecvs w (Function.update req (w + j) x) + (if (req (w + j)).active then 1 else 0) =
      postedRecvs w req + (if x.active then 1 else 0) := by
  obtain ⟨n, rfl⟩ := Int.eq_ofNat_of_zero_le h0
  have h := countP_update (List.nodup_range w.toNat)
    (List.mem_range.2 (show n < w.toNat by omega)) (p := fun (j' : Nat) => (req (w + j')).active)
    (q := fun (j' : Nat) => (Function.update req (w + n) x (w + j')).active)
    fun j' _ hne => by dsimp only; rw [Function.update_noteq (by omega)]
  simpa only [Function.update_same] using h

theorem ranksLeft_update {N r : Nat} (h1 : 1 ≤ r) (hN : r < N) (rank : Nat → Rank) (x : Rank) :
    ranksLeft N (Function.update rank r x) + (rank r).movesLeft =
      ranksLeft N rank + x.movesLeft := by
  have hf : (fun r' => (Function.update rank r x r').movesLeft) =
      Function.update (fun r => (rank r).movesLeft) r x.movesLeft := by
    funext r'
    by_cases h : r' = r
    · subst h; simp
    · simp [Function.update_noteq h]
  unfold ranksLeft
  rw [hf]
  exact sum_map_update (List.nodup_range' 1 (N - 1)) (mem_range'_one.2 ⟨h1, hN⟩) _ _

/-- `scr_alltrue` leaves no rank anything to do. -/
theorem ranksLeft_finish (res : Bool) : ranksLeft S.N (finish S s res).rank = 0 :=
  List.sum_eq_zero fun x hx => by
    obtain ⟨r, hr, rfl⟩ := List.mem_map.1 hx
    simp [finish, mem_range'_one.1 hr, Rank.movesLeft]

theorem movesLeft_init : movesLeft S (init S) = 5 * S.N - 2 := by
  have h := S.N_pos
  simp [movesLeft, init, postedRecvs, ranksLeft, Req.active, Pc.movesLeft, Rank.movesLeft,
    List.sum_replicate]
  omega

/-! ## Every move lowers the potential -/

theorem movesLeft_quiet {p : Pc} (x : Int) (hp : p.movesLeft < s.pc.movesLeft) :
    movesLeft S { s with pc := p, index := x } < movesLeft S s := by
  unfold movesLeft; dsimp only; omega

theorem movesLeft_post (hi : s.i < S.N) (h0 : 0 ≤ s.index) (hw : s.index < S.w) :
    movesLeft S (post s S.w) < movesLeft S s := by
  have hlow := postedRecvs_update_low hw
    (Function.update s.req (s.index + S.w) (.recv s.i false)) (.send s.i false)
  have hhigh := postedRecvs_update_high h0 hw s.req (.recv s.i false)
  rw [add_comm S.w] at hhigh
  simp only [Req.active, if_true] at hhigh
  simp only [movesLeft, post, hlow]
  omega

theorem movesLeft_consume {k : Int} {r : Nat} (hpc : s.pc = .waitany) (h0 : 0 ≤ k)
    (hk : k < S.w) (hr : s.req (S.w + k) = .recv r true) :
    movesLeft S (consume s S.w k r) < movesLeft S s := by
  have hlow := postedRecvs_update_low hk (Function.update s.req (S.w + k) .null) .null
  have hhigh := postedRecvs_update_high h0 hk s.req .null
  simp only [hr, Req.active, if_true, Bool.false_eq_true, if_false] at hhigh
  simp only [movesLeft, consume, hlow, hpc, Pc.movesLeft]
  omega

theorem movesLeft_deliver {r : Nat} {j : Int} (h1 : 1 ≤ r) (hN : r < S.N)
    (hrk : s.rank r = .recv) (hj : j < S.w) : movesLeft S (deliver S s r j) < movesLeft S s := by
  have hrank := ranksLeft_update h1 hN s.rank (.send (s.flags j && S.out r))
  simp only [hrk, Rank.movesLeft] at hrank
  simp only [movesLeft, deliver, postedRecvs_update_low hj]
  omega

theorem movesLeft_reply {r : Nat} {j : Int} {v : Bool} (h1 : 1 ≤ r) (hN : r < S.N)
    (hrk : s.rank r = .send v) (h0 : 0 ≤ j) (hj : j < S.w)
    (hreq : s.req (S.w + j) = .recv r false) :
    movesLeft S (reply s r (S.w + j) v) < movesLeft S s := by
  have hrank := ranksLeft_update h1 hN s.rank (.reduce v)
  have hhigh := postedRecvs_update_high h0 hj s.req (.recv r true)
  simp only [hrk, hreq, Rank.movesLeft, Req.active] at hrank hhigh
  simp only [movesLeft, reply]
  omega

theorem movesLeft_finish (hpc : s.pc = .reduce) (res : Bool) :
    movesLeft S (finish S s res) < movesLeft S s := by
  simp only [movesLeft, finish_pc, finish_req, hpc, Pc.movesLeft, ranksLeft_finish]
  dsimp only [finish]
  omega

/-- Every move of every party lowers the potential. -/
theorem movesLeft_step {a : Act} (h : step S s a = some t) : movesLeft S t < movesLeft S s := by
  cases a with
  | root k =>
    rcases rootStep_cases h with ⟨hpc, rfl⟩ | ⟨hpc, hi, -, h0, hw, rfl⟩ | ⟨hpc, -, -, -, rfl⟩ |
      ⟨hpc, -, rfl⟩ | ⟨hpc, -, rfl⟩ | ⟨hpc, -, rfl⟩ | ⟨hpc, -, -, -, -, rfl⟩ |
      ⟨hpc, r, hk, hr, -, rfl⟩
    · exact movesLeft_quiet s.index (by rw [hpc]; split <;> decide)
    · exact movesLeft_post hi h0 hw
    · exact movesLeft_quiet s.index (by rw [hpc]; decide)
    · exact movesLeft_quiet s.index (by rw [hpc]; split <;> decide)
    · exact movesLeft_quiet s.index (by rw [hpc]; decide)
    · exact movesLeft_quiet mpiUndefined (by rw [hpc]; decide)
    · exact movesLeft_quiet s.index (by rw [hpc]; decide)
    · exact movesLeft_consume hpc (by omega) hk hr
  | rank r =>
    obtain ⟨h1, hN, ⟨hrk, j, hj, -, rfl⟩ | ⟨v, hrk, j, hj, hreq, rfl⟩⟩ := rankStep_cases h
    · exact movesLeft_deliver h1 hN hrk hj
    · exact movesLeft_reply h1 hN hrk (by omega) hj hreq
  | alltrue =>
    obtain ⟨hpc, -, rfl⟩ := alltrue_cases h
    exact movesLeft_finish hpc _

/-- A run makes at most as many moves as the potential it starts from. -/
theorem run_length_le {acts : List Act} : ∀ {s t : World}, run S s acts = some t →
    acts.length + movesLeft S t ≤ movesLeft S s := by
  induction acts with
  | nil => intro s t h; cases h; simp
  | cons a as ih =>
    intro s t h
    obtain ⟨u, hu, ht⟩ := Option.bind_eq_some.mp h
    have := ih ht
    have := movesLeft_step hu
    simp only [List.length_cons]
    omega

/-- Whatever the width, the fetch outcomes and the interleaving of the ranks, a run of
`scr_fetch_data` makes at most `5 N - 2` moves. -/
theorem scrFetchData_length_le (S : Setup) (acts : List Act) (s : World)
    (h : scrFetchData S acts = some s) : acts.length ≤ 5 * S.N - 2 := by
  have := run_length_le h
  rw [movesLeft_init] at this
  omega

/-- A schedule of three ranks with width 1, both fetches succeeding, makes exactly `5 N - 2`
moves: the bound is reached. -/
theorem scrFetchData_length_three_ranks :
    let S : Setup := ⟨3, 1, fun _ => true, by decide⟩
    let acts : List Act := [.root 0, .root 0, .root 0, .rank 1, .rank 1, .root 0, .root 0,
      .root 0, .rank 2, .rank 2, .root 0, .root 0, .alltrue]
    let s := (scrFetchData S acts).getD (init S)
    scrFetchData S acts = some s ∧ acts.length = 5 * S.N - 2 := by
  intro S acts s
  have hrun : scrFetchData S acts = some s :=
    (Option.getD_of_ne_none (Option.ne_none_iff_isSome.2 (by decide)) _).symm
  exact ⟨hrun, le_antisymm (scrFetchData_length_le S acts s hrun) (by decide)⟩

/-! ## Which rank a slot belongs to -/

theorem Setup.w_lt (S : Setup) : S.w < S.N := by
  unfold Setup.w windowWidth; split <;> omega

theorem Setup.one_le_w (hF : 1 ≤ S.F) (hN : 1 < S.N) : 1 ≤ S.w := by
  unfold Setup.w windowWidth; split <;> omega

/-- With a width below `2^30` the `int` product `2 * w` does not wrap. -/
theorem allocFails_eq_false {w : Int} (h0 : 0 ≤ w) (hw : w < 2 ^ 30) : allocFails w = false := by
  unfold allocFails
  rw [decide_eq_false_iff_not, Int.bmod_def]
  split_ifs <;> omega

/-- Slot `j` carries rank `r`'s exchange, at the stage rank `r` has reached: its go flag sent
and not yet received, its reply not yet sent, or its reply sent and not yet consumed. -/
def InFlight (S : Setup) (s : World) (r j : Nat) : Prop :=
  (j : Int) < S.w ∧
    (s.rank r = .recv ∧ s.req j = .send r false ∧ s.req (S.w + j) = .recv r false ∨
      (∃ v, s.rank r = .send v) ∧ s.req j = .send r true ∧ s.req (S.w + j) = .recv r false ∨
      (∃ v, s.rank r = .reduce v) ∧ s.req j = .send r true ∧ s.req (S.w + j) = .recv r true)

section InFlight

variable {r j : Nat}

theorem InFlight.congr (hr : t.rank r = s.rank r) (hs : (j : Int) < S.w → t.req j = s.req j)
    (hw : t.req (S.w + j) = s.req (S.w + j)) : InFlight S t r j ↔ InFlight S s r j := by
  unfold InFlight
  by_cases hj : (j : Int) < S.w
  · rw [hr, hs hj, hw]
  · simp [hj]

theorem InFlight.recv (h : InFlight S s r j) : ∃ d, s.req (S.w + j) = .recv r d := by
  obtain ⟨-, ⟨-, -, h⟩ | ⟨-, -, h⟩ | ⟨-, -, h⟩⟩ := h <;> exact ⟨_, h⟩

theorem InFlight.send (h : InFlight S s r j) : ∃ d, s.req j = .send r d := by
  obtain ⟨-, ⟨-, h, -⟩ | ⟨-, h, -⟩ | ⟨-, h, -⟩⟩ := h <;> exact ⟨_, h⟩

theorem InFlight.stage_recv (h : InFlight S s r j) (hrk : s.rank r = .recv) :
    s.req (S.w + j) = .recv r false := by
  obtain ⟨-, ⟨-, -, h⟩ | ⟨⟨v, hv⟩, -⟩ | ⟨⟨v, hv⟩, -⟩⟩ := h
  · exact h
  all_goals rw [hrk] at hv; cases hv

theorem InFlight.stage_send {v : Bool} (h : InFlight S s r j) (hrk : s.rank r = .send v) :
    s.req j = .send r true := by
  obtain ⟨-, ⟨hv, -⟩ | ⟨-, h, -⟩ | ⟨⟨v', hv⟩, -⟩⟩ := h
  · rw [hrk] at hv; cases hv
  · exact h
  · rw [hrk] at hv; cases hv

/-- A reply that has arrived belongs to a rank waiting in `scr_alltrue`, whose go flag went
out. -/
theorem InFlight.stage_reduce (h : InFlight S s r j) (hd : s.req (S.w + j) = .recv r true) :
    (s.rank r).isReduce ∧ s.req j = .send r true := by
  obtain ⟨-, ⟨-, -, h⟩ | ⟨-, -, h⟩ | ⟨⟨v, hv⟩, hs, -⟩⟩ := h
  · rw [hd] at h; cases h
  · rw [hd] at h; cases h
  · exact ⟨by simp [hv, Rank.isReduce], hs⟩

end InFlight

/-- Before the first reply is consumed, rank 0 fills the slots in order: `index = i - 1`, and
every slot from `i - 1` on is unwritten. After it the window is full, and at the loop head with
ranks left to post at most one slot is free, the one `index` names. -/
def Phase (S : Setup) (s : World) : Prop :=
  (s.index + 1 = s.i ∧ s.outstanding + 1 = s.i ∧
      ∀ j : Nat, s.i ≤ j + 1 → (j : Int) < S.w → s.req j = .uninit ∧ s.req (S.w + j) = .uninit) ∨
    (S.w + 1 ≤ s.i ∧ (s.pc = .head → s.i < S.N → S.w ≤ s.outstanding + 1 ∧
      (s.outstanding < S.w → 0 ≤ s.index ∧ s.index < S.w ∧ (s.req s.index).active = false ∧
        (s.req (S.w + s.index)).active = false)))

/-- The window in every state a run with `scr_fetch_width ≥ 1` reaches: no `abort`, no
undefined behaviour, `outstanding` counts the posted receives, every posted receive carries
the exchange of exactly one rank below `i`, and every rank is at the stage its slot says. -/
structure Live (S : Setup) (s : World) : Prop where
  alloc : s.pc = .alloc → s = init S
  not_abort : s.pc ≠ .abort
  not_fault : s.pc ≠ .fault
  i_pos : 1 ≤ s.i
  i_le : s.i ≤ S.N
  posted : s.outstanding = postedRecvs S.w s.req
  outstanding_lt : s.outstanding < s.i
  uninit : ∀ j : Nat, (j : Int) < S.w → s.req (S.w + j) = .uninit → s.i ≤ j + 1
  owner : ∀ j : Nat, (j : Int) < S.w → (s.req (S.w + j)).active →
    ∃ r, 1 ≤ r ∧ r < s.i ∧ InFlight S s r j
  send_free : ∀ j : Nat, (j : Int) < S.w → (s.req (S.w + j)).active = false →
    (s.req j).active = false
  slot_uniq : ∀ r j j', InFlight S s r j → InFlight S s r j' → j = j'
  rank : ∀ r, 1 ≤ r → r < S.N → s.i ≤ r ∧ s.rank r = .recv ∨
    r < s.i ∧ ((∃ j, InFlight S s r j) ∨ (s.rank r).isReduce ∨ ∃ b, s.pc = .done b)
  phase : Phase S s
  waitany : s.pc = .waitany → 0 < s.outstanding ∧ (s.i < S.N → S.w ≤ s.outstanding)
  reduce : s.pc = .reduce → S.N ≤ s.i ∧ s.outstanding ≤ 0

section Live

/-- The rank a posted receive waits for is the rank whose exchange the slot carries. -/
theorem Live.of_recv (hl : Live S s) {r j : Nat} {d : Bool} (hj : (j : Int) < S.w)
    (h : s.req (S.w + j) = .recv r d) : InFlight S s r j := by
  obtain ⟨r', -, -, h'⟩ := hl.owner j hj (by simp [h, Req.active])
  obtain ⟨d', hd'⟩ := h'.recv
  rw [h] at hd'
  cases hd'
  exact h'

/-- So is the rank a pending send goes to. -/
theorem Live.of_send (hl : Live S s) {r j : Nat} {d : Bool} (hj : (j : Int) < S.w)
    (h : s.req j = .send r d) : InFlight S s r j := by
  have ha : (s.req (S.w + j)).active := by
    by_contra hn
    have := hl.send_free j hj (by simpa using hn)
    simp [h, Req.active] at this
  obtain ⟨r', -, -, h'⟩ := hl.owner j hj ha
  obtain ⟨d', hd'⟩ := h'.send
  rw [h] at hd'
  cases hd'
  exact h'

theorem Live.bounds (hl : Live S s) {r j : Nat} (h : InFlight S s r j) : 1 ≤ r ∧ r < s.i := by
  obtain ⟨d, hd⟩ := h.recv
  obtain ⟨r', h1, hi, h'⟩ := hl.owner j h.1 (by simp [hd, Req.active])
  obtain ⟨d', hd'⟩ := h'.recv
  rw [hd] at hd'
  cases hd'
  exact ⟨h1, hi⟩

/-- In `MPI_Waitany` every slot has been posted to. -/
theorem Live.w_lt_i (hl : Live S s) (hpc : s.pc = .waitany) : S.w + 1 ≤ s.i := by
  have := hl.outstanding_lt
  have := hl.i_le
  have := S.w_lt
  by_cases hi : s.i < S.N
  · have := (hl.waitany hpc).2 hi
    omega
  · omega

end Live

/-! ## Every move keeps `Live` -/

section Slots

variable {x j r : Nat}

theorem post_req_send (hx : s.index = x) (hj : (j : Int) < S.w) :
    (post s S.w).req j = if j = x then .send s.i false else s.req j := by
  simp only [post, Function.update_apply, hx]
  split_ifs <;> first | rfl | omega

theorem post_req_recv (hx : s.index = x) (hxw : s.index < S.w) :
    (post s S.w).req (S.w + j) = if j = x then .recv s.i false else s.req (S.w + j) := by
  simp only [post, Function.update_apply, hx]
  split_ifs <;> first | rfl | omega

theorem consume_req_send (hj : (j : Int) < S.w) :
    (consume s S.w x r).req j = if j = x then .null else s.req j := by
  simp only [consume, Function.update_apply]
  split_ifs <;> first | rfl | omega

theorem consume_req_recv (hxw : (x : Int) < S.w) :
    (consume s S.w x r).req (S.w + j) = if j = x then .null else s.req (S.w + j) := by
  simp only [consume, Function.update_apply]
  split_ifs <;> first | rfl | omega

theorem deliver_req_send : (deliver S s r x).req j = if j = x then .send r true else s.req j := by
  simp only [deliver, Function.update_apply]
  split_ifs <;> first | rfl | omega

theorem deliver_req_recv (hxw : (x : Int) < S.w) :
    (deliver S s r x).req (S.w + j) = s.req (S.w + j) := by
  simp only [deliver]
  rw [Function.update_noteq (by omega)]

theorem reply_req_send {v : Bool} (hj : (j : Int) < S.w) :
    (reply s r (S.w + x) v).req j = s.req j := by
  simp only [reply]
  rw [Function.update_noteq (by omega)]

theorem reply_req_recv {v : Bool} :
    (reply s r (S.w + x) v).req (S.w + j) = if j = x then .recv r true else s.req (S.w + j) := by
  simp only [reply, Function.update_apply]
  split_ifs <;> first | rfl | omega

end Slots

/-- At the loop head with ranks left to post to and room in the window, the slot `index`
names is free. -/
theorem Live.index_free (hl : Live S s) (hpc : s.pc = .head) (hi : s.i < S.N)
    (ho : s.outstanding < S.w) {x : Nat} (hx : s.index = x) :
    (s.req x).active = false ∧ (s.req (S.w + x)).active = false := by
  rcases hl.phase with ⟨hix, hio, hu⟩ | ⟨-, hst⟩
  · have := hu x (by omega) (by omega)
    simp [this.1, this.2, Req.active]
  · obtain ⟨-, -, h1, h2⟩ := (hst hpc hi).2 ho
    rw [hx] at h1 h2
    exact ⟨h1, h2⟩

/-- At the loop head with ranks left to post to and room in the window, `index` lies in
`[0, w)`. -/
theorem Live.index_range (hl : Live S s) (hpc : s.pc = .head) (hi : s.i < S.N)
    (ho : s.outstanding < S.w) : 0 ≤ s.index ∧ s.index < S.w := by
  rcases hl.phase with ⟨hix, hio, -⟩ | ⟨-, hst⟩
  · have := hl.i_pos
    omega
  · obtain ⟨h0, hw, -⟩ := (hst hpc hi).2 ho
    exact ⟨h0, hw⟩

/-- With nothing outstanding, no slot carries an exchange. -/
theorem Live.not_inFlight (hl : Live S s) (ho : s.outstanding ≤ 0) {r j : Nat} :
    ¬InFlight S s r j := fun h => by
  obtain ⟨d, hd⟩ := h.recv
  have : 0 < postedRecvs S.w s.req := List.countP_pos_iff.2
    ⟨j, List.mem_range.2 (by have := h.1; omega), by simp [hd, Req.active]⟩
  have := hl.posted
  omega

/-- Lines 595–604 give rank `i` the slot `index` names and leave every other exchange where it
was. -/
theorem inFlight_post (hl : Live S s) (hpc : s.pc = .head) (hi : s.i < S.N)
    (ho : s.outstanding < S.w) {x : Nat} (hx : s.index = x) (hw : s.index < S.w) {r j : Nat} :
    InFlight S (post s S.w) r j ↔ InFlight S s r j ∨ r = s.i ∧ j = x := by
  by_cases hjx : j = x
  · subst hjx
    have hfree := hl.index_free hpc hi ho hx
    constructor
    · intro h
      obtain ⟨d, hd⟩ := h.recv
      rw [post_req_recv hx hw, if_pos rfl] at hd
      cases hd
      exact .inr ⟨rfl, rfl⟩
    · rintro (h | ⟨rfl, -⟩)
      · obtain ⟨d, hd⟩ := h.recv
        simp [hd, Req.active] at hfree
      · have hnew : s.rank s.i = .recv := by
          rcases hl.rank s.i hl.i_pos hi with ⟨-, h⟩ | ⟨h, -⟩
          · exact h
          · omega
        exact ⟨by omega, .inl ⟨hnew, by rw [post_req_send hx (by omega), if_pos rfl],
          by rw [post_req_recv hx hw, if_pos rfl]⟩⟩
  · rw [InFlight.congr (t := post s S.w) (s := s) rfl
      (fun hj => by rw [post_req_send hx hj, if_neg hjx]) (by rw [post_req_recv hx hw, if_neg hjx])]
    simp [hjx]

/-- Lines 595–604 post rank `i`'s exchange in the free slot `index`. -/
theorem live_post (hl : Live S s) (hpc : s.pc = .head) (hi : s.i < S.N) (ho : s.outstanding < S.w)
    (h0 : 0 ≤ s.index) (hw : s.index < S.w) : Live S (post s S.w) := by
  obtain ⟨x, hx⟩ := Int.eq_ofNat_of_zero_le h0
  have hfree := hl.index_free hpc hi ho hx
  have hsend := fun (j : Nat) (hj : (j : Int) < S.w) => post_req_send (S := S) hx hj
  have hrecv := fun j => post_req_recv (S := S) (s := s) (j := j) hx hw
  have hpost := fun {r j : Nat} => inFlight_post (r := r) (j := j) hl hpc hi ho hx hw
  have hnew : InFlight S (post s S.w) s.i x := hpost.2 (.inr ⟨rfl, rfl⟩)
  exact
  { alloc := fun h => by simp [hpc] at h
    not_abort := by simp [hpc]
    not_fault := by simp [hpc]
    i_pos := by simp
    i_le := hi
    posted := by
      have hhigh := postedRecvs_update_high h0 hw s.req (.recv s.i false)
      rw [hx, hfree.2] at hhigh
      simp only [Req.active, Bool.false_eq_true, if_false, if_true] at hhigh
      have hpost : (post s S.w).req = Function.update
          (Function.update s.req (S.w + x) (.recv s.i false)) x (.send s.i false) := by
        simp only [post, hx, add_comm]
      rw [post_outstanding, hpost, postedRecvs_update_low (by omega), hl.posted]
      omega
    outstanding_lt := by
      rw [post_outstanding, post_i]
      have := hl.outstanding_lt
      omega
    uninit := fun j hj hu => by
      rw [hrecv] at hu
      split_ifs at hu with hjx
      · have := hl.uninit j hj hu
        simp only [post_i]
        rcases hl.phase with ⟨hix, -, -⟩ | ⟨hwi, -⟩ <;> omega
    owner := fun j hj ha => by
      by_cases hjx : j = x
      · subst hjx
        exact ⟨s.i, hl.i_pos, Nat.lt_succ_self _, hnew⟩
      · rw [hrecv, if_neg hjx] at ha
        obtain ⟨r, h1, hr, hf⟩ := hl.owner j hj ha
        exact ⟨r, h1, by rw [post_i]; omega, hpost.2 (.inl hf)⟩
    send_free := fun j hj hn => by
      by_cases hjx : j = x
      · rw [hrecv, if_pos hjx] at hn
        cases hn
      · rw [hrecv, if_neg hjx] at hn
        rw [hsend j hj, if_neg hjx]
        exact hl.send_free j hj hn
    slot_uniq := fun r j j' h h' => by
      rcases hpost.1 h with h | ⟨hr, rfl⟩ <;> rcases hpost.1 h' with h' | ⟨hr', rfl⟩
      · exact hl.slot_uniq r j j' h h'
      · exact absurd (hl.bounds h).2 (by omega)
      · exact absurd (hl.bounds h').2 (by omega)
      · rfl
    rank := fun r h1 hN => by
      simp only [post_i, post_rank, post_pc]
      rcases Nat.lt_trichotomy r s.i with hr | rfl | hr
      · rcases hl.rank r h1 hN with ⟨hle, -⟩ | ⟨-, ⟨j, hf⟩ | hred | hd⟩
        · omega
        · exact .inr ⟨by omega, .inl ⟨j, hpost.2 (.inl hf)⟩⟩
        · exact .inr ⟨by omega, .inr (.inl hred)⟩
        · exact .inr ⟨by omega, .inr (.inr hd)⟩
      · exact .inr ⟨by omega, .inl ⟨x, hnew⟩⟩
      · rcases hl.rank r h1 hN with ⟨-, hrk⟩ | ⟨hlt, -⟩
        · exact .inl ⟨hr, hrk⟩
        · omega
    phase := by
      rcases hl.phase with ⟨hix, hio, hu⟩ | ⟨hwi, hst⟩
      · rw [Phase, post_index, post_outstanding, post_i]
        refine .inl ⟨by omega, by omega, fun j hj hjw => ?_⟩
        have hjx : j ≠ x := by omega
        rw [hsend j hjw, hrecv, if_neg hjx, if_neg hjx]
        exact hu j (by omega) hjw
      · obtain ⟨hwo, -⟩ := hst hpc hi
        rw [Phase, post_outstanding, post_i]
        exact .inr ⟨by omega, fun _ _ => ⟨by omega, fun h => by omega⟩⟩
    waitany := fun h => by simp [hpc] at h
    reduce := fun h => by simp [hpc] at h }

/-- Lines 608–619 end the exchange of the rank whose reply slot `x` holds, and leave every other
where it was. -/
theorem inFlight_consume (hl : Live S s) {x r : Nat} (hxw : (x : Int) < S.w)
    (hr : s.req (S.w + x) = .recv r true) {r' j : Nat} :
    InFlight S (consume s S.w x r) r' j ↔ InFlight S s r' j ∧ r' ≠ r := by
  by_cases hjx : j = x
  · subst hjx
    refine iff_of_false (fun h => ?_) (fun ⟨h, hne⟩ => ?_) <;> obtain ⟨d, hd⟩ := h.recv
    · rw [consume_req_recv hxw, if_pos rfl] at hd
      cases hd
    · rw [hr] at hd
      cases hd
      exact hne rfl
  · rw [InFlight.congr (t := consume s S.w x r) (s := s) rfl
      (fun hj => by rw [consume_req_send hj, if_neg hjx])
      (by rw [consume_req_recv hxw, if_neg hjx])]
    exact ⟨fun h => ⟨h, fun e => hjx (hl.slot_uniq r j x (e ▸ h) (hl.of_recv hxw hr))⟩, And.left⟩

/-- Lines 608–619 consume the reply of the rank whose exchange slot `x` carries, and free the
slot. -/
theorem live_consume (hl : Live S s) (hpc : s.pc = .waitany) {x r : Nat} (hxw : (x : Int) < S.w)
    (hr : s.req (S.w + x) = .recv r true) : Live S (consume s S.w x r) := by
  have hf := hl.of_recv hxw hr
  have hsend := fun (j : Nat) (hj : (j : Int) < S.w) =>
    consume_req_send (s := s) (r := r) (x := x) hj
  have hrecv := fun j => consume_req_recv (s := s) (r := r) (j := j) hxw
  have hcons : ∀ {r' j : Nat}, InFlight S (consume s S.w x r) r' j ↔ InFlight S s r' j ∧ r' ≠ r :=
    inFlight_consume hl hxw hr
  have hwi := hl.w_lt_i hpc
  obtain ⟨hpos, hwo⟩ := hl.waitany hpc
  exact
  { alloc := fun h => by simp at h
    not_abort := by simp
    not_fault := by simp
    i_pos := hl.i_pos
    i_le := hl.i_le
    posted := by
      have hlow := postedRecvs_update_low hxw (Function.update s.req (S.w + x) .null) .null
      have hhigh := postedRecvs_update_high (Int.ofNat_nonneg x) hxw s.req .null
      simp only [hr, Req.active, if_true, Bool.false_eq_true, if_false] at hhigh
      simp only [consume, hlow]
      have := hl.posted
      omega
    outstanding_lt := by
      rw [consume_outstanding, consume_i]
      have := hl.outstanding_lt
      omega
    uninit := fun j hj hu => by
      rw [hrecv] at hu
      split_ifs at hu
      exact hl.uninit j hj hu
    owner := fun j hj ha => by
      by_cases hjx : j = x
      · rw [hrecv, if_pos hjx] at ha
        cases ha
      · rw [hrecv, if_neg hjx] at ha
        obtain ⟨r', h1, hr', hf'⟩ := hl.owner j hj ha
        exact ⟨r', h1, hr', hcons.2 ⟨hf', fun e => hjx (hl.slot_uniq r j x (e ▸ hf') hf)⟩⟩
    send_free := fun j hj hn => by
      rw [hsend j hj]
      split_ifs with hjx
      · rfl
      · rw [hrecv, if_neg hjx] at hn
        exact hl.send_free j hj hn
    slot_uniq := fun r' j j' h h' => hl.slot_uniq r' j j' (hcons.1 h).1 (hcons.1 h').1
    rank := fun r' h1 hN => by
      simp only [consume_i, consume_rank, consume_pc]
      rcases hl.rank r' h1 hN with h | ⟨hlt, ⟨j, hf'⟩ | hred | ⟨b, hb⟩⟩
      · exact .inl h
      · by_cases hr' : r' = r
        · subst hr'
          exact .inr ⟨hlt, .inr (.inl (hf.stage_reduce hr).1)⟩
        · exact .inr ⟨hlt, .inl ⟨j, hcons.2 ⟨hf', hr'⟩⟩⟩
      · exact .inr ⟨hlt, .inr (.inl hred)⟩
      · rw [hpc] at hb
        cases hb
    phase := by
      rw [Phase, consume_outstanding, consume_index, consume_i, hsend x hxw, hrecv, if_pos rfl,
        if_pos rfl]
      exact .inr ⟨hwi, fun _ hi => ⟨by have := hwo hi; omega, fun _ =>
        ⟨by omega, hxw, rfl, rfl⟩⟩⟩
    waitany := fun h => by simp at h
    reduce := fun h => by simp at h }

/-- A move that carries rank `r`'s exchange in slot `x` on to its next stage and changes nothing
else rank 0's loop or another rank reads: the `MPI_Recv` of a go flag (line 628) or the
`MPI_Send` of a reply (line 639). -/
structure Advance (S : Setup) (s t : World) (r x : Nat) : Prop where
  before : InFlight S s r x
  after : InFlight S t r x
  pc : t.pc = s.pc
  i : t.i = s.i
  outstanding : t.outstanding = s.outstanding
  index : t.index = s.index
  rank : ∀ r', r' ≠ r → t.rank r' = s.rank r'
  send : ∀ j : Nat, (j : Int) < S.w → j ≠ x → t.req j = s.req j
  recv : ∀ j : Nat, j ≠ x → t.req (S.w + j) = s.req (S.w + j)

/-- Line 628: rank `r` receives its go flag, and its slot moves on to the reply. -/
theorem advance_deliver (hl : Live S s) {r x : Nat} (hrk : s.rank r = .recv)
    (hxw : (x : Int) < S.w) (hreq : s.req x = .send r false) :
    Advance S s (deliver S s r x) r x := by
  have hf := hl.of_send hxw hreq
  refine ⟨hf, ⟨hxw, .inr (.inl ⟨⟨_, Function.update_same _ _ _⟩, ?_, ?_⟩)⟩, rfl, rfl, rfl, rfl,
    fun r' h => Function.update_noteq h _ _, fun j _ hjx => ?_, fun j _ => deliver_req_recv hxw⟩
  · rw [deliver_req_send, if_pos rfl]
  · rw [deliver_req_recv hxw, hf.stage_recv hrk]
  · rw [deliver_req_send, if_neg hjx]

/-- Line 639: rank `r`'s reply completes the receive posted for it. -/
theorem advance_reply (hl : Live S s) {r x : Nat} {v : Bool} (hrk : s.rank r = .send v)
    (hxw : (x : Int) < S.w) (hreq : s.req (S.w + x) = .recv r false) :
    Advance S s (reply s r (S.w + x) v) r x := by
  have hf := hl.of_recv hxw hreq
  refine ⟨hf, ⟨hxw, .inr (.inr ⟨⟨v, Function.update_same _ _ _⟩, ?_, ?_⟩)⟩, rfl, rfl, rfl, rfl,
    fun r' h => Function.update_noteq h _ _, fun j hj _ => reply_req_send hj, fun j hjx => ?_⟩
  · rw [reply_req_send hxw, hf.stage_send hrk]
  · rw [reply_req_recv, if_pos rfl]
  · rw [reply_req_recv, if_neg hjx]

/-- Under such a move every exchange stays in its slot. -/
theorem Advance.inFlight {r x : Nat} (ha : Advance S s t r x) (hl : Live S s) {r' j : Nat} : InFlight S t r' j ↔ InFlight S s r' j := by
  obtain ⟨d, hd⟩ := ha.before.recv
  obtain ⟨d', hd'⟩ := ha.after.recv
  by_cases hr : r' = r
  · subst hr
    -- rank `r`'s exchange is in slot `x` in both states, and in no other
    refine ⟨fun h => ?_, fun h => (hl.slot_uniq r' j x h ha.before) ▸ ha.after⟩
    by_cases hjx : j = x
    · exact hjx ▸ ha.before
    · obtain ⟨e, he⟩ := h.recv
      rw [ha.recv j hjx] at he
      exact absurd (hl.slot_uniq r' j x (hl.of_recv h.1 he) ha.before) hjx
  · by_cases hjx : j = x
    · subst hjx
      refine iff_of_false (fun h => ?_) (fun h => ?_) <;> obtain ⟨e, he⟩ := h.recv
      · rw [hd'] at he
        cases he
        exact hr rfl
      · rw [hd] at he
        cases he
        exact hr rfl
    · exact InFlight.congr (ha.rank r' hr) (fun hw => ha.send j hw hjx) (ha.recv j hjx)

/-- Such a move keeps `Live`. -/
theorem Advance.live {r x : Nat} (ha : Advance S s t r x) (hl : Live S s) : Live S t := by
  obtain ⟨d, hd⟩ := ha.before.recv
  obtain ⟨d', hd'⟩ := ha.after.recv
  have hactive : ∀ j : Nat, (t.req (S.w + j)).active = (s.req (S.w + j)).active := fun j => by
    by_cases hj : j = x
    · subst hj
      rw [hd, hd']
      rfl
    · rw [ha.recv j hj]
  exact
  { alloc := fun h => by
      have := hl.alloc (ha.pc ▸ h)
      subst this
      simp [init] at hd
    not_abort := ha.pc ▸ hl.not_abort
    not_fault := ha.pc ▸ hl.not_fault
    i_pos := ha.i ▸ hl.i_pos
    i_le := ha.i ▸ hl.i_le
    posted := by
      rw [ha.outstanding, hl.posted]
      exact congrArg Nat.cast (List.countP_congr fun j _ => by rw [hactive j])
    outstanding_lt := by rw [ha.outstanding, ha.i]; exact hl.outstanding_lt
    uninit := fun j hj hu => by
      by_cases hjx : j = x
      · subst hjx
        rw [hd'] at hu
        cases hu
      · rw [ha.i]
        exact hl.uninit j hj (by rwa [ha.recv j hjx] at hu)
    owner := fun j hj hact => by
      rw [hactive] at hact
      obtain ⟨r', h1, hr', h⟩ := hl.owner j hj hact
      exact ⟨r', h1, ha.i ▸ hr', (ha.inFlight hl).2 h⟩
    send_free := fun j hj hn => by
      by_cases hjx : j = x
      · subst hjx
        rw [hd'] at hn
        cases hn
      · rw [ha.send j hj hjx]
        exact hl.send_free j hj (by rwa [hactive] at hn)
    slot_uniq := fun r' j j' h h' =>
      hl.slot_uniq r' j j' ((ha.inFlight hl).1 h) ((ha.inFlight hl).1 h')
    rank := fun r' h1 hN => by
      rw [ha.i, ha.pc]
      by_cases hr : r' = r
      · subst hr
        exact .inr ⟨(hl.bounds ha.before).2, .inl ⟨x, ha.after⟩⟩
      · rw [ha.rank r' hr]
        rcases hl.rank r' h1 hN with h | ⟨hlt, ⟨j, h⟩ | h | h⟩
        · exact .inl h
        · exact .inr ⟨hlt, .inl ⟨j, (ha.inFlight hl).2 h⟩⟩
        · exact .inr ⟨hlt, .inr (.inl h)⟩
        · exact .inr ⟨hlt, .inr (.inr h)⟩
    phase := by
      have hx_busy : (s.req (S.w + x)).active := by rw [hd]; rfl
      unfold Phase
      rw [ha.i, ha.outstanding, ha.index, ha.pc]
      rcases hl.phase with ⟨hix, hio, hu⟩ | ⟨hwi, hst⟩
      · refine .inl ⟨hix, hio, fun j hj hjw => ?_⟩
        have hjx : j ≠ x := fun e => by
          subst e
          rw [(hu j hj hjw).2] at hx_busy
          cases hx_busy
        rw [ha.send j hjw hjx, ha.recv j hjx]
        exact hu j hj hjw
      · refine .inr ⟨hwi, fun hpc hi => ⟨(hst hpc hi).1, fun ho => ?_⟩⟩
        obtain ⟨h0, hiw, hs, hw⟩ := (hst hpc hi).2 ho
        obtain ⟨y, hy⟩ := Int.eq_ofNat_of_zero_le h0
        rw [hy] at hs hw ⊢
        have hyx : y ≠ x := fun e => by
          subst e
          rw [hw] at hx_busy
          cases hx_busy
        rw [ha.send y (by omega) hyx, ha.recv y hyx]
        exact ⟨by omega, by omega, hs, hw⟩
    waitany := by rw [ha.pc, ha.outstanding, ha.i]; exact hl.waitany
    reduce := by rw [ha.pc, ha.outstanding, ha.i]; exact hl.reduce }

/-- At the loop head with no rank left to post to or no free slot, rank 0 goes on to
`MPI_Waitany` or, with nothing outstanding, to `scr_alltrue`. -/
theorem live_wait (hl : Live S s) (hpc : s.pc = .head) {p : Pc} (hp : p = .waitany ∨ p = .reduce)
    (hw : p = .waitany → 0 < s.outstanding ∧ (s.i < S.N → S.w ≤ s.outstanding))
    (hr : p = .reduce → S.N ≤ s.i ∧ s.outstanding ≤ 0) : Live S { s with pc := p } :=
  { hl with
    alloc := fun h => by rcases hp with rfl | rfl <;> cases h
    not_abort := by rcases hp with rfl | rfl <;> simp
    not_fault := by rcases hp with rfl | rfl <;> simp
    rank := fun r h1 hN => by
      rcases hl.rank r h1 hN with h | ⟨hlt, h | h | ⟨b, hb⟩⟩
      · exact .inl h
      · exact .inr ⟨hlt, .inl h⟩
      · exact .inr ⟨hlt, .inr (.inl h)⟩
      · rw [hpc] at hb
        cases hb
    phase := by
      rcases hl.phase with h | ⟨h1, -⟩
      · exact .inl h
      · exact .inr ⟨h1, fun h => by rcases hp with rfl | rfl <;> cases h⟩
    waitany := hw
    reduce := hr }

/-- `scr_alltrue` returns on every rank. It fires with no receive posted, so no slot is left. -/
theorem live_finish (hl : Live S s) (hpc : s.pc = .reduce) (res : Bool) :
    Live S (finish S s res) := by
  have ho := (hl.reduce hpc).2
  have hnf : ∀ r j, ¬InFlight S (finish S s res) r j := fun r j h => by
    obtain ⟨d, hd⟩ := h.recv
    exact hl.not_inFlight ho (hl.of_recv h.1 hd)
  exact
  { hl with
    alloc := fun h => by simp at h
    not_abort := by simp
    not_fault := by simp
    owner := fun j hj ha => by
      obtain ⟨r, -, -, h⟩ := hl.owner j hj ha
      exact absurd h (hl.not_inFlight ho)
    slot_uniq := fun r j _ h => absurd h (hnf r j)
    rank := fun r h1 hN =>
      .inr ⟨show r < s.i by have := (hl.reduce hpc).1; omega, .inr (.inr ⟨res, rfl⟩)⟩
    phase := by
      rcases hl.phase with h | ⟨h1, -⟩
      · exact .inl h
      · exact .inr ⟨h1, fun h => by simp at h⟩
    waitany := fun h => by simp at h
    reduce := fun h => by simp at h }

/-- Entry to the window, before and after the `malloc`s. -/
theorem live_init_pc {p : Pc} (hp : p = .alloc ∨ p = .head) : Live S { init S with pc := p } where
  alloc h := by rcases hp with rfl | rfl <;> first | rfl | cases h
  not_abort := by rcases hp with rfl | rfl <;> simp
  not_fault := by rcases hp with rfl | rfl <;> simp
  i_pos := le_refl 1
  i_le := S.N_pos
  posted := by simp [init, postedRecvs, Req.active]
  outstanding_lt := by simp [init]
  uninit _ _ _ := by simp [init]
  owner _ _ ha := by simp [init, Req.active] at ha
  send_free _ _ _ := rfl
  slot_uniq r j _ h := by
    obtain ⟨d, hd⟩ := h.recv
    simp [init] at hd
  rank _ h1 _ := .inl ⟨h1, rfl⟩
  phase := .inl ⟨rfl, rfl, fun _ _ _ => ⟨rfl, rfl⟩⟩
  waitany h := by rcases hp with rfl | rfl <;> cases h
  reduce h := by rcases hp with rfl | rfl <;> cases h

theorem Setup.w_nonneg (hF : 0 ≤ S.F) : 0 ≤ S.w := by
  have := S.N_pos
  unfold Setup.w windowWidth; split <;> omega

/-- Every move keeps `Live`: the `malloc`s succeed, and none of the ways rank 0 faults is
open to it. -/
theorem live_step (hF : 1 ≤ S.F) (hN : S.N ≤ 2 ^ 30) (hl : Live S s) {a : Act}
    (h : step S s a = some t) : Live S t := by
  cases a with
  | root k =>
    rcases rootStep_cases h with ⟨hpc, rfl⟩ | ⟨hpc, hi, ho, h0, hw, rfl⟩ | ⟨hpc, hi, ho, hx, rfl⟩ |
      ⟨hpc, hg, rfl⟩ | ⟨hpc, ⟨j, hj, hu⟩, rfl⟩ | ⟨hpc, hn, rfl⟩ | ⟨hpc, r, hk, hr, hd, rfl⟩ |
      ⟨hpc, r, hk, hr, -, rfl⟩
    · obtain rfl := hl.alloc hpc
      have := S.w_lt
      have hok : allocFails S.w = false :=
        allocFails_eq_false (S.w_nonneg (by omega)) (by push_cast at hN; omega)
      simp only [hok, Bool.false_eq_true, if_false]
      exact live_init_pc (.inr rfl)
    · exact live_post hl hpc hi ho h0 hw
    · exact absurd (hl.index_range hpc hi ho) hx
    · by_cases hc : s.i < S.N ∨ 0 < s.outstanding
      · rw [if_pos hc]
        refine live_wait hl hpc (.inl rfl) (fun _ => ⟨?_, fun hi => by omega⟩) (fun h => by cases h)
        rcases hc with hi | ho
        · have := S.one_le_w hF (by have := hl.i_pos; omega)
          omega
        · exact ho
      · rw [if_neg hc]
        exact live_wait hl hpc (.inr rfl) (fun h => by cases h) (fun _ => by omega)
    · exfalso
      have := hl.uninit j hj hu
      have := hl.w_lt_i hpc
      omega
    · exfalso
      have hz : postedRecvs S.w s.req = 0 :=
        List.countP_eq_zero.2 fun j hj => by simp [hn j (by have := List.mem_range.1 hj; omega)]
      have := hl.posted
      have := (hl.waitany hpc).1
      omega
    · exfalso
      rw [((hl.of_recv hk hr).stage_reduce hr).2] at hd
      cases hd
    · exact live_consume hl hpc hk hr
  | rank r =>
    obtain ⟨-, -, ⟨hrk, j, hj, hreq, rfl⟩ | ⟨v, hrk, j, hj, hreq, rfl⟩⟩ := rankStep_cases h
    · exact (advance_deliver hl hrk hj hreq).live hl
    · exact (advance_reply hl hrk hj hreq).live hl
  | alltrue =>
    obtain ⟨hpc, -, rfl⟩ := alltrue_cases h
    exact live_finish hl hpc _

/-- Every run keeps `Live`. -/
theorem live_run (hF : 1 ≤ S.F) (hN : S.N ≤ 2 ^ 30) {acts : List Act} :
    ∀ {s t : World}, Live S s → run S s acts = some t → Live S t := by
  induction acts with
  | nil => intro s t hl h; cases h; exact hl
  | cons a as ih =>
    intro s t hl h
    obtain ⟨u, hu, ht⟩ := Option.bind_eq_some.mp h
    exact ih (live_step hF hN hl hu) ht

/-! ## Some move is always enabled until every rank has returned -/

/-- A rank waiting for its go flag can take it. -/
theorem rankStep_recv_ne_none {r j : Nat} (h1 : 1 ≤ r) (hN : r < S.N) (hrk : s.rank r = .recv)
    (hj : (j : Int) < S.w) (hs : s.req j = .send r false) : rankStep S s r ≠ none := by
  unfold rankStep
  rw [if_pos ⟨h1, hN⟩, hrk]
  simp only [ne_eq, Option.map_eq_none', List.find?_eq_none, not_forall, not_not]
  exact ⟨j, List.mem_range.2 (by omega), by simp [hs]⟩

/-- A rank with its reply ready can send it. -/
theorem rankStep_send_ne_none {r j : Nat} {v : Bool} (h1 : 1 ≤ r) (hN : r < S.N)
    (hrk : s.rank r = .send v) (hj : (j : Int) < S.w) (hw : s.req (S.w + j) = .recv r false) :
    rankStep S s r ≠ none := by
  unfold rankStep
  rw [if_pos ⟨h1, hN⟩, hrk]
  simp only [ne_eq, Option.map_eq_none', List.find?_eq_none, not_forall, not_not]
  exact ⟨j, List.mem_range.2 (by omega), by simp [hw]⟩

/-- In `MPI_Waitany`, an arrived reply can be consumed. -/
theorem Live.consume_enabled (hl : Live S s) (hpc : s.pc = .waitany) {r j : Nat}
    (hj : (j : Int) < S.w) (hw : s.req (S.w + j) = .recv r true) : rootStep S s j ≠ none := by
  have hu : ∀ j' : Nat, (j' : Int) < S.w → s.req (S.w + j') ≠ .uninit := fun j' hj' hu => by
    have := hl.uninit j' hj' hu
    have := hl.w_lt_i hpc
    omega
  have hs := ((hl.of_recv hj hw).stage_reduce hw).2
  unfold rootStep
  rw [hpc]
  dsimp only
  rw [if_neg, if_neg, if_pos hj, hw]
  · simp [hs, Req.waitDone]
  · simp only [Bool.not_eq_true', List.any_eq_false, Bool.not_eq_false, List.mem_map,
      List.mem_range, not_forall, not_not]
    exact ⟨_, ⟨j, by omega, rfl⟩, by simp [hw, Req.active]⟩
  · simp only [List.any_eq_true, List.mem_map, List.mem_range, not_exists, not_and]
    rintro _ ⟨j', hj', rfl⟩ h
    exact hu j' (by omega) (by simpa using h)

/-- In every state with `Live` that has not returned, some party can move: rank 0 at the
`malloc`s or the loop head; in `MPI_Waitany`, the rank a posted receive waits for, or rank 0
on its reply; in `scr_alltrue`, the collective. -/
theorem live_progress (hl : Live S s) (hd : ∀ b, s.pc ≠ .done b) : ∃ a, step S s a ≠ none := by
  cases hpc : s.pc with
  | alloc => exact ⟨.root 0, by simp [step, rootStep, hpc]⟩
  | head =>
    refine ⟨.root 0, ?_⟩
    simp only [step, rootStep, hpc]
    split_ifs <;> simp
  | waitany =>
    have hpos := (hl.waitany hpc).1
    rw [hl.posted] at hpos
    obtain ⟨j, hj, ha⟩ := List.countP_pos_iff.1 (by omega : 0 < postedRecvs S.w s.req)
    have hjw : (j : Int) < S.w := by have := List.mem_range.1 hj; omega
    obtain ⟨r, h1, hr, hf⟩ := hl.owner j hjw ha
    have hN : r < S.N := by have := hl.i_le; omega
    obtain ⟨-, ⟨hrk, hs, -⟩ | ⟨⟨v, hrk⟩, -, hw⟩ | ⟨-, -, hw⟩⟩ := hf
    · exact ⟨.rank r, rankStep_recv_ne_none h1 hN hrk hjw hs⟩
    · exact ⟨.rank r, rankStep_send_ne_none h1 hN hrk hjw hw⟩
    · exact ⟨.root j, hl.consume_enabled hpc hjw hw⟩
  | reduce =>
    obtain ⟨hi, ho⟩ := hl.reduce hpc
    have hall : ∀ r ∈ List.range' 1 (S.N - 1), (s.rank r).isReduce := fun r hr => by
      obtain ⟨h1, hN⟩ := mem_range'_one.1 hr
      rcases hl.rank r h1 hN with ⟨hle, -⟩ | ⟨-, ⟨j, hf⟩ | hred | ⟨b, hb⟩⟩
      · omega
      · exact absurd hf (hl.not_inFlight ho)
      · exact hred
      · rw [hpc] at hb
        cases hb
    refine ⟨.alltrue, ?_⟩
    simp only [step, alltrue, hpc]
    rw [if_pos (List.all_eq_true.2 hall)]
    simp
  | done b => exact absurd hpc (hd b)
  | abort => exact absurd hpc hl.not_abort
  | fault => exact absurd hpc hl.not_fault

/-- A returned state has no move left. -/
theorem step_eq_none_of_done {b : Bool} (hpc : s.pc = .done b)
    (hr : ∀ r, 1 ≤ r → r < S.N → s.rank r = .done b) (a : Act) : step S s a = none := by
  cases a with
  | root k => simp [step, rootStep, hpc]
  | rank r =>
    simp only [step, rankStep]
    split_ifs with h
    · rw [hr r h.1 h.2]
    · rfl
  | alltrue => simp [step, alltrue, hpc]

/-! ## Whole runs -/

/-- With `scr_fetch_width ≥ 1` and at most `2^30` ranks, no interleaving of the ranks makes
rank 0 `abort` in the `malloc`s, or run into undefined behaviour: an unwritten request in
`MPI_Waitany` or `MPI_Wait`, an `index` outside `[0, w)`, or `index = MPI_UNDEFINED`. -/
theorem scrFetchData_no_fault (S : Setup) (hF : 1 ≤ S.F) (hN : S.N ≤ 2 ^ 30) (acts : List Act)
    (s : World) (h : scrFetchData S acts = some s) : s.pc ≠ .fault ∧ s.pc ≠ .abort := by
  have hl := live_run hF hN (live_init_pc (.inl rfl)) h
  exact ⟨hl.not_fault, hl.not_abort⟩

/-- Three ranks, width 1, both fetches succeeding: a run that reaches `scr_alltrue`. -/
theorem scrFetchData_no_fault_three_ranks :
    let S : Setup := ⟨3, 1, fun _ => true, by decide⟩
    let acts : List Act := [.root 0, .root 0, .root 0, .rank 1, .rank 1, .root 0, .root 0,
      .root 0, .rank 2, .rank 2, .root 0, .root 0]
    let s := (scrFetchData S acts).getD (init S)
    1 ≤ S.F ∧ S.N ≤ 2 ^ 30 ∧ scrFetchData S acts = some s ∧ s.pc ≠ .fault ∧ s.pc ≠ .abort := by
  intro S acts s
  have hrun : scrFetchData S acts = some s :=
    (Option.getD_of_ne_none (Option.ne_none_iff_isSome.2 (by decide)) _).symm
  exact ⟨by decide, by decide, hrun, scrFetchData_no_fault S (by decide) (by decide) acts s hrun⟩

/-- With `scr_fetch_width ≥ 1` and at most `2^30` ranks, every schedule that no move can
extend ends with `scr_fetch_data` returned on every rank, all with the same result, which is
`SCR_SUCCESS` exactly when every rank called `scr_fetch_files_list` and got `SCR_SUCCESS`.
With `scrFetchData_length_le`, every schedule gets there within `5 N - 2` moves. -/
theorem scrFetchData_completes (S : Setup) (hF : 1 ≤ S.F) (hN : S.N ≤ 2 ^ 30) (acts : List Act)
    (s : World) (h : scrFetchData S acts = some s) (hmax : ∀ a, step S s a = none) :
    ∃ res, s.pc = .done res ∧ (∀ r, 1 ≤ r → r < S.N → s.rank r = .done res) ∧
      (res = true ↔ ∀ r < S.N, .call r true ∈ s.log) := by
  have hl := live_run hF hN (live_init_pc (.inl rfl)) h
  have hi := goInv_run goInv_init h
  by_cases hd : ∃ b, s.pc = .done b
  · obtain ⟨b, hb⟩ := hd
    exact ⟨b, hb, (hi.done b hb).2, (hi.done b hb).1⟩
  · obtain ⟨a, ha⟩ := live_progress hl fun b hb => hd ⟨b, hb⟩
    exact absurd (hmax a) ha

/-- The schedule of `scrFetchData_length_three_ranks` cannot be extended, and every rank
returns `SCR_SUCCESS`. -/
theorem scrFetchData_completes_three_ranks :
    let S : Setup := ⟨3, 1, fun _ => true, by decide⟩
    let acts : List Act := [.root 0, .root 0, .root 0, .rank 1, .rank 1, .root 0, .root 0,
      .root 0, .rank 2, .rank 2, .root 0, .root 0, .alltrue]
    let s := (scrFetchData S acts).getD (init S)
    1 ≤ S.F ∧ S.N ≤ 2 ^ 30 ∧ scrFetchData S acts = some s ∧ (∀ a, step S s a = none) ∧
      ∃ res, s.pc = .done res ∧ (∀ r, 1 ≤ r → r < S.N → s.rank r = .done res) ∧
        (res = true ↔ ∀ r < S.N, .call r true ∈ s.log) := by
  intro S acts s
  have hrun : scrFetchData S acts = some s :=
    (Option.getD_of_ne_none (Option.ne_none_iff_isSome.2 (by decide)) _).symm
  have hpc : s.pc = .done true := by decide
  have hmax := step_eq_none_of_done hpc ((goInv_run goInv_init hrun).done true hpc).2
  exact ⟨by decide, by decide, hrun, hmax,
    scrFetchData_completes S (by decide) (by decide) acts s hrun hmax⟩

end ScrFetch.Window
