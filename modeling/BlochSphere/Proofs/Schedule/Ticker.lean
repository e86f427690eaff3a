/-
A ticker runs the callbacks of a forest in the order in which batches run by hand would, whenever its clock
ticks. Whatever the timing, what was logged, the names left in the batch and the forest that waits add up to
the same order; so the log is always a beginning of it. Every step of the loop that finds something to do
takes away from a measure of the work left, and a tick lets the next step find something, so the log is
complete once the clock has ticked often enough.
-/
import BlochSphere.Proofs.Schedule
import Mathlib

namespace BlochSphere

variable {ι : Type}

namespace Ticker

open Callback

/-! ## What is still to come -/

/-- Where a ticker stands whose first callback requests `forest`. -/
inductive Underway (forest : List (Callback ι)) : Ticker ι → Prop where
  | requested {due left : Bool} : Underway forest ⟨⟨[.first forest]⟩, [], due, left, []⟩
  | begun {due left : Bool} : Underway forest ⟨⟨[]⟩, [.first forest], due, left, []⟩
  | running (waiting batch : List (Callback ι)) {due left : Bool} {log : List ι}
    (h : log ++ batch.map name ++ breadthFirst (waiting ++ deeper batch) = breadthFirst forest) :
    Underway forest ⟨⟨waiting.map .node⟩, batch.map .node, due, left, log⟩

variable {forest : List (Callback ι)} {t : Ticker ι}

theorem Underway.turn (h : Underway forest t) : Underway forest t.turn := by
  cases h with
  | @requested due left =>
    cases due <;> cases left
    · exact .requested
    · exact .requested
    · exact .begun
    · exact .requested
  | begun =>
    have hr := FrameQueue.requestAll_eq (⟨[]⟩ : FrameQueue (Task ι)) (forest.map .node)
    simp only [Ticker.turn, Task.run, hr, List.nil_append]
    exact .running _ [] (by simp)
  | @running waiting batch due left log h =>
    cases batch with
    | nil =>
      by_cases hgo : (due && !left) = true
      · -- all that waits becomes the batch
        simp only [Ticker.turn, List.map_nil, hgo, if_true, FrameQueue.take]
        rw [List.map_nil, List.append_nil, deeper_nil, List.append_nil, breadthFirst_unfold, ← List.append_assoc] at h
        exact .running [] _ h
      · simp only [Ticker.turn, List.map_nil, hgo, Bool.false_eq_true, if_false]
        exact .running _ [] h
    | cons c batch =>
      have hr := FrameQueue.requestAll_eq (⟨waiting.map .node⟩ : FrameQueue (Task ι)) (c.kids.map .node)
      simp only [Ticker.turn, List.map_cons, Task.run, hr, ← List.map_append]
      refine .running _ _ ?_
      rw [← h, deeper_cons]
      simp

theorem Underway.step (h : Underway forest t) (m : Moment) : Underway forest (t.step m) := by
  cases m with
  | tick => cases h with
    | requested => exact .requested
    | begun => exact .begun
    | running waiting batch h => exact .running waiting batch h
  | turn => exact h.turn
  | quit =>
    show Underway forest (if t.batch.isEmpty then { t with left := true } else t)
    split
    · cases h with
      | requested => exact .requested
      | begun => exact .begun
      | running waiting batch h => exact .running waiting batch h
    · exact h

theorem Underway.run (moments : List Moment) :
    ∀ {t : Ticker ι}, Underway forest t → Underway forest (t.run moments) := by
  induction moments with
  | nil => exact fun h => h
  | cons m moments ih => exact fun h => ih (h.step m)

theorem Underway.log_prefix (h : Underway forest t) : t.log <+: breadthFirst forest := by
  cases h with
  | requested => exact List.nil_prefix
  | begun => exact List.nil_prefix
  | running waiting batch h =>
    rw [List.append_assoc] at h
    exact ⟨_, h⟩

end Ticker

/-! ## How much is still to come -/

/-- The number of callbacks that a task runs, itself included. -/
def Task.size : Task ι → Nat
  | first forest => Callback.count forest + 1
  | node callback => Callback.count callback.kids + 1

/-- The tasks that a task requests. -/
def Task.asks : Task ι → List (Task ι)
  | first forest => forest.map node
  | node callback => callback.kids.map node

theorem Task.run_pending (log : List ι) (q : FrameQueue (Task ι)) (task : Task ι) :
    (task.run log q).2.pending = q.pending ++ task.asks := by
  cases task <;> exact FrameQueue.requestAll_pending _ _

theorem Task.sum_size_nodes (forest : List (Callback ι)) :
    ((forest.map node).map size).sum = Callback.count forest := by
  induction forest with
  | nil => simp [Callback.count]
  | cons c forest ih =>
    obtain ⟨name, kids⟩ := c
    simp only [List.map_cons, List.sum_cons, ih, size, Callback.count, Callback.kids]
    omega

/-- A task is one callback more than those it requests. -/
theorem Task.size_eq (task : Task ι) : task.size = (task.asks.map size).sum + 1 := by
  cases task with
  | first forest => rw [asks, sum_size_nodes, size]
  | node callback => rw [asks, sum_size_nodes, size]

namespace Ticker

open Callback

/-- The number of callbacks that a ticker has still to run. -/
def work (t : Ticker ι) : Nat := ((t.batch ++ t.waiting.pending).map Task.size).sum

/-- The number of steps that the loop needs at most to come to rest, and one more. -/
def effort (t : Ticker ι) : Nat := 2 * t.work + if t.batch.isEmpty then 1 else 0

variable {forest : List (Callback ι)} {t : Ticker ι}

/-- The loop has a batch to go on with, or a tick to start the next one. -/
def Ready (t : Ticker ι) : Prop := t.batch ≠ [] ∨ t.due = true ∧ t.left = false

theorem effort_le (t : Ticker ι) : t.effort ≤ 2 * t.work + 1 := by
  unfold effort
  split <;> omega

/-- Running a callback takes it off the work, and leaves what it requests. -/
theorem work_turn {task : Task ι} {rest : List (Task ι)} (h : t.batch = task :: rest) :
    t.turn.work + 1 = t.work := by
  obtain ⟨waiting, batch, due, left, log⟩ := t
  obtain rfl : batch = task :: rest := h
  have hp := Task.run_pending log waiting task
  have hs := task.size_eq
  simp only [Ticker.turn, work, hp, List.map_append, List.sum_append, List.map_cons, List.sum_cons]
  omega

/-- A step of a loop that has something to do takes away from the effort, until the ticker is at rest. -/
theorem turn_effort (h : t.Ready) : t.turn.effort < t.effort ∨ t.turn.effort ≤ 1 := by
  cases hb : t.batch with
  | nil =>
    obtain ⟨⟨pending⟩, batch, due, left, log⟩ := t
    obtain rfl : batch = [] := hb
    obtain ⟨rfl, rfl⟩ : due = true ∧ left = false := h.resolve_left fun h => h rfl
    cases pending with
    | nil => exact .inr (by simp [Ticker.turn, effort, work, FrameQueue.take, FrameQueue.empty])
    | cons task pending => exact .inl (by simp [Ticker.turn, effort, work, FrameQueue.take, FrameQueue.empty])
  | cons task rest =>
    left
    have hw := work_turn hb
    have hle := t.turn.effort_le
    have he : t.effort = 2 * t.work := by simp [effort, hb]
    omega

theorem turn_of_not_ready (h : ¬ t.Ready) : t.turn = t := by
  unfold Ready at h
  rw [not_or, not_not] at h
  obtain ⟨hb, hd⟩ := h
  unfold Ticker.turn
  rw [hb]
  dsimp only
  rw [if_neg]
  simpa using hd

theorem effort_step (t : Ticker ι) (m : Moment) : (t.step m).effort ≤ t.effort ∨ (t.step m).effort ≤ 1 := by
  cases m with
  | tick => exact .inl (Nat.le_refl _)
  | turn =>
    by_cases hr : t.Ready
    · exact (turn_effort hr).imp_left Nat.le_of_lt
    · show t.turn.effort ≤ _ ∨ t.turn.effort ≤ 1
      rw [turn_of_not_ready hr]
      exact .inl (Nat.le_refl _)
  | quit =>
    left
    show effort (if t.batch.isEmpty then { t with left := true } else t) ≤ _
    split <;> exact Nat.le_refl _

theorem step_left {m : Moment} (hm : m ≠ .quit) : (t.step m).left = t.left := by
  cases m with
  | tick => rfl
  | turn =>
    show t.turn.left = t.left
    unfold Ticker.turn
    split
    · rfl
    · split <;> rfl
  | quit => exact absurd rfl hm

theorem regular_succ (n : Nat) : regular (n + 1) = .tick :: .turn :: regular n := rfl

theorem quit_notMem_regular (n : Nat) : .quit ∉ regular n := by
  induction n with
  | zero => exact List.not_mem_nil
  | succ n ih =>
    rw [regular_succ]
    simpa using ih

/-- A clock that ticks often enough, with a step of the loop after each of these ticks, brings a ticker to
rest, whatever happens in between. In the second part the first of these ticks has come already. -/
theorem effort_run (moments : List Moment) : ∀ (t : Ticker ι) (n : Nat), t.left = false → .quit ∉ moments →
    ((regular n).Sublist moments → t.effort ≤ n + 1 → (t.run moments).effort ≤ 1) ∧
    ((Moment.turn :: regular n).Sublist moments → t.Ready → t.effort ≤ n + 2 →
      (t.run moments).effort ≤ 1) := by
  induction moments with
  | nil =>
    intro t n _ _
    constructor
    · intro hs he
      cases n with
      | zero => exact he
      | succ n => cases hs
    · intro hs
      cases hs
  | cons m moments ih =>
    intro t n hl hq
    rw [List.mem_cons, not_or] at hq
    obtain ⟨hm, hq⟩ := hq
    have hl' : (t.step m).left = false := (step_left (Ne.symm hm)).trans hl
    have hle := t.effort_step m
    constructor
    · intro hs he
      cases n with
      | zero => exact (ih (t.step m) 0 hl' hq).1 (List.nil_sublist _) (by omega)
      | succ n =>
        rw [regular_succ] at hs
        cases hs with
        | cons _ hs => exact (ih (t.step m) (n + 1) hl' hq).1 hs (by omega)
        | cons_cons _ hs => exact (ih (t.step .tick) n hl' hq).2 hs (.inr ⟨rfl, hl⟩) (by omega)
    · intro hs hr he
      -- the step that was waited for may be this one or an earlier one
      have turned (hm : m = .turn) (h : (regular n).Sublist moments) : ((t.step m).run moments).effort ≤ 1 := by
        have hlt := turn_effort hr
        rw [hm] at hl' ⊢
        exact (ih (t.step .turn) n hl' hq).1 h (show t.turn.effort ≤ n + 1 by omega)
      cases m with
      | quit => exact absurd rfl hm
      | turn =>
        cases hs with
        | cons _ hs => exact turned rfl ((List.sublist_cons_self _ _).trans hs)
        | cons_cons _ hs => exact turned rfl hs
      | tick =>
        cases hs with
        | cons _ hs => exact (ih (t.step .tick) n hl' hq).2 hs (.inr ⟨rfl, hl⟩) (by omega)

/-- A ticker that is at rest has logged everything. -/
theorem Underway.log_eq (h : Underway forest t) (he : t.effort ≤ 1) : t.log = breadthFirst forest := by
  have hw : t.work = 0 := by
    unfold effort at he
    split at he <;> omega
  cases h with
  | requested => simp [work, Task.size] at hw
  | begun => simp [work, Task.size] at hw
  | @running waiting batch due left log h =>
    have hempty : ∀ f : List (Callback ι), ((f.map Task.node).map Task.size).sum = 0 → f = [] := by
      intro f hf
      cases f with
      | nil => rfl
      | cons c f => simp [Task.size] at hf
    rw [work, List.map_append, List.sum_append, Nat.add_eq_zero_iff] at hw
    obtain rfl := hempty batch hw.1
    obtain rfl := hempty waiting hw.2
    simpa [breadthFirst] using h

/-! ## Any timing -/

/-- Before anything is requested, ticks come and go. -/
theorem run_idle (moments : List Moment) : ∀ due left : Bool, ∃ due' left',
    (⟨⟨[]⟩, [], due, left, []⟩ : Ticker ι).run moments = ⟨⟨[]⟩, [], due', left', []⟩ ∧
      (.quit ∉ moments → left' = left) := by
  induction moments with
  | nil => exact fun due left => ⟨due, left, rfl, fun _ => rfl⟩
  | cons m moments ih =>
    intro due left
    cases m with
    | tick =>
      obtain ⟨due', left', hr, hl⟩ := ih true left
      exact ⟨due', left', hr, fun hq => hl fun h => hq (List.mem_cons_of_mem _ h)⟩
    | turn =>
      have hstep : ∃ due', (⟨⟨[]⟩, [], due, left, []⟩ : Ticker ι).turn = ⟨⟨[]⟩, [], due', left, []⟩ := by
        cases due <;> cases left
        · exact ⟨false, rfl⟩
        · exact ⟨false, rfl⟩
        · exact ⟨false, rfl⟩
        · exact ⟨true, rfl⟩
      obtain ⟨due₁, hs⟩ := hstep
      obtain ⟨due', left', hr, hl⟩ := ih due₁ left
      refine ⟨due', left', ?_, fun hq => hl fun h => hq (List.mem_cons_of_mem _ h)⟩
      exact (congrArg (Ticker.run · moments) hs).trans hr
    | quit =>
      obtain ⟨due', left', hr, _⟩ := ih due true
      exact ⟨due', left', hr, fun hq => absurd List.mem_cons_self hq⟩

/-- Once the first callback is requested, it is underway. -/
theorem underway_run (forest : List (Callback ι)) (before after : List Moment) :
    let t := ((new.run before).request (.first forest)).run after
    Underway forest t ∧ (.quit ∉ before ++ after → (regular (2 * count forest + 2)).Sublist after →
      t.effort ≤ 1) := by
  obtain ⟨due, left, hr, hl⟩ := run_idle (ι := ι) before false false
  have hreq : (new.run before).request (.first forest) = ⟨⟨[.first forest]⟩, [], due, left, []⟩ := by
    show request ((⟨⟨[]⟩, [], false, false, []⟩ : Ticker ι).run before) _ = _
    rw [hr]
    rfl
  rw [hreq]
  refine ⟨Underway.run after .requested, fun hq hs => ?_⟩
  rw [List.mem_append, not_or] at hq
  have he : (⟨⟨[.first forest]⟩, [], due, left, []⟩ : Ticker ι).effort = 2 * (count forest + 1) + 1 := by
    simp [effort, work, Task.size]
  exact (effort_run after _ _ (hl hq.1) hq.2).1 hs (by omega)

end Ticker

namespace Callback

theorem runAll_eq (forest : List (Callback ι)) : runAll forest = (List.range (height forest + 1)).map fun k =>
    ⟨(atDepth (k + 1) forest).length, atDepth (k + 1) forest, (atDepth (k + 2) forest).length⟩ := by
  unfold runAll
  rw [FrameQueue.requestAll_eq]
  refine (batches_eq (count forest + 1) forest (Nat.lt_succ_of_le (height_le_count forest))).trans ?_
  simp only [atDepth_succ, List.length_map]

theorem atDepth_eq_nil {k : Nat} {forest : List (Callback ι)} :
    atDepth (k + 1) forest = [] ↔ height forest ≤ k := by
  rw [atDepth_succ, List.map_eq_nil_iff, iterate_deeper_eq_nil]

theorem flatMap_ran (forest : List (Callback ι)) : (runAll forest).flatMap Batch.ran = breadthFirst forest := by
  have hlast : atDepth (height forest + 1) forest = [] := atDepth_eq_nil.2 (Nat.le_refl _)
  rw [runAll_eq, List.flatMap_map, List.range_succ, List.flatMap_append]
  simp [hlast, breadthFirst]

/-- Callbacks run breadth first, and each of them once. Batch by batch, the one after `k` others runs what is
at depth `k + 1`, from left to right, finds as many callbacks waiting and leaves as many as are one deeper;
it runs nothing exactly when `k` batches were enough for all of the forest. A ticker whose first callback
requests the same trees runs them in the same order whenever its clock ticks, and runs all of them if its
clock goes on ticking and its loop is not ended. -/
theorem breadth_first (forest : List (Callback ι)) :
    (∀ k, let q := (fun q => (step q).2)^[k] (FrameQueue.empty.requestAll forest)
      (step q).1 = atDepth (k + 1) forest ∧ q.pending.length = (atDepth (k + 1) forest).length ∧
      (step q).2.pending.length = (atDepth (k + 2) forest).length ∧
      ((step q).1 = [] ↔ height forest ≤ k)) ∧
    ((runAll forest).flatMap Batch.ran = breadthFirst forest ∧
      (runAll forest).length = height forest + 1 ∧ (breadthFirst forest).Perm (names forest)) ∧
    order forest = breadthFirst forest ∧
    ∀ before after : List Moment,
      let t := ((Ticker.new.run before).request (.first forest)).run after
      t.log <+: breadthFirst forest ∧
      (.quit ∉ before ++ after → (Ticker.regular (2 * count forest + 2)).Sublist after →
        t.log = breadthFirst forest) := by
  refine ⟨fun k => ?_, ⟨flatMap_ran forest, ?_, breadthFirst_perm forest⟩, ?_, fun before after => ?_⟩
  · intro q
    have hq : q = ⟨deeper^[k] forest⟩ := iterate_step k forest
    rw [← atDepth_eq_nil, hq, step_eq, atDepth_succ, atDepth_succ, List.length_map, List.length_map,
      Function.iterate_succ_apply']
    exact ⟨rfl, rfl, rfl, Iff.rfl⟩
  · rw [runAll_eq, List.length_map, List.length_range]
  · -- ticks in regular order are one timing among others
    obtain ⟨hu, he⟩ := Ticker.underway_run forest [] (Ticker.regular (2 * count forest + 2))
    exact hu.log_eq (he (Ticker.quit_notMem_regular _) (List.Sublist.refl _))
  · obtain ⟨hu, he⟩ := Ticker.underway_run forest before after
    exact ⟨hu.log_prefix, fun hq hs => hu.log_eq (he hq hs)⟩

/-- The clock ticks before there is anything to run, twice while a batch runs, and on after the last one. -/
theorem breadth_first_with_stray_ticks :
    let forest : List (Callback Nat) := [node 1 [node 2 [], node 3 [node 4 []]], node 5 [node 6 []]]
    let before : List Moment := [.tick, .turn, .turn, .tick]
    let after : List Moment := .turn :: .turn :: .tick :: .tick :: (Ticker.regular 14 ++ [.tick, .turn])
    .quit ∉ before ++ after ∧ (Ticker.regular (2 * count forest + 2)).Sublist after ∧
      (((Ticker.new.run before).request (.first forest)).run after).log = [1, 5, 2, 3, 6, 4] := by
  intro forest before after
  have hq : .quit ∉ before ++ after := by decide
  have hc : count forest = 6 := by simp [forest, count]
  have hs : (Ticker.regular (2 * count forest + 2)).Sublist after := by
    rw [hc]
    decide
  have hb : breadthFirst forest = [1, 5, 2, 3, 6, 4] := by
    simp [forest, breadthFirst, atDepth, depths, height, List.range_succ]
  exact ⟨hq, hs, hb ▸ ((breadth_first forest).2.2.2 before after).2 hq hs⟩

end Callback

end BlochSphere
