/-
Callbacks run breadth first, each of them once. A batch takes all that waits, so after `k` batches exactly
the callbacks at depth `k + 1` wait, from left to right, and the batch that runs nothing is the first one
below the whole forest. A ticker has the same order whenever its clock ticks: between two steps of its loop
it holds the rest of one depth and the beginning of the next, and both together determine what is still to
come.
-/
import BlochSphere.Schedule
import Mathlib.Data.List.Perm.Basic
import Mathlib.Logic.Function.Iterate

namespace BlochSphere

/-! ## Requests -/

namespace FrameQueue

variable {κ : Type}

@[simp] theorem requestAll_pending (callbacks : List κ) :
    ∀ q : FrameQueue κ, (q.requestAll callbacks).pending = q.pending ++ callbacks := by
  induction callbacks with
  | nil => exact fun q => (List.append_nil _).symm
  | cons c callbacks ih =>
    intro q
    show ((q.request c).requestAll callbacks).pending = _
    rw [ih, request, List.append_assoc]
    rfl

theorem requestAll_eq (q : FrameQueue κ) (callbacks : List κ) :
    q.requestAll callbacks = ⟨q.pending ++ callbacks⟩ := by
  rw [← requestAll_pending]

end FrameQueue

/-! ## Forests by depth -/

namespace Callback

variable {ι : Type}

/-- The names of a forest with their depths, each before those below it and those to its right. The trees
of the forest are at depth `d`. -/
def depths (d : Nat) : List (Callback ι) → List (Nat × ι)
  | [] => []
  | node name kids :: rest => (d, name) :: depths (d + 1) kids ++ depths d rest

/-- The names at a depth, from left to right; the trees of a forest are at depth one. -/
def atDepth (k : Nat) (forest : List (Callback ι)) : List ι :=
  ((depths 1 forest).filter (·.1 = k)).map Prod.snd

/-- All names of a forest. -/
def names (forest : List (Callback ι)) : List ι := (depths 1 forest).map Prod.snd

/-- The greatest depth of a forest. -/
def height : List (Callback ι) → Nat
  | [] => 0
  | node _ kids :: rest => max (height kids + 1) (height rest)

/-- The names of a forest depth by depth. -/
def breadthFirst (forest : List (Callback ι)) : List ι :=
  (List.range (height forest)).flatMap fun k => atDepth (k + 1) forest

/-- The callbacks that a forest requests. -/
def deeper (forest : List (Callback ι)) : List (Callback ι) := forest.flatMap kids

@[simp] theorem depths_nil (d : Nat) : depths d ([] : List (Callback ι)) = [] := by rw [depths]

@[simp] theorem height_nil : height ([] : List (Callback ι)) = 0 := by rw [height]

@[simp] theorem deeper_nil : deeper ([] : List (Callback ι)) = [] := rfl

theorem deeper_cons (c : Callback ι) (forest : List (Callback ι)) :
    deeper (c :: forest) = c.kids ++ deeper forest := List.flatMap_cons

theorem depths_append (d : Nat) (f g : List (Callback ι)) : depths d (f ++ g) = depths d f ++ depths d g := by
  induction f with
  | nil => simp
  | cons c f ih =>
    obtain ⟨name, kids⟩ := c
    simp only [List.cons_append, depths, ih, List.append_assoc]

theorem le_of_mem_depths {d : Nat} {forest : List (Callback ι)} {p : Nat × ι} (h : p ∈ depths d forest) :
    d ≤ p.1 := by
  fun_induction depths d forest with
  | case1 => exact absurd h List.not_mem_nil
  | case2 d name kids rest ihk ihr =>
    rcases List.mem_append.1 h with h | h
    · rcases List.mem_cons.1 h with rfl | h
      · exact Nat.le_refl _
      · exact Nat.le_of_succ_le (ihk h)
    · exact ihr h

theorem filter_depths_of_lt {d k : Nat} (h : k < d) (forest : List (Callback ι)) :
    (depths d forest).filter (·.1 = k) = [] := by
  rw [List.filter_eq_nil_iff]
  intro p hp heq
  have hle := le_of_mem_depths hp
  simp at heq
  omega

theorem filter_depths_self (d : Nat) (forest : List (Callback ι)) :
    ((depths d forest).filter (·.1 = d)).map Prod.snd = forest.map name := by
  induction forest with
  | nil => simp
  | cons c forest ih =>
    obtain ⟨name, kids⟩ := c
    have hk : (depths (d + 1) kids).filter (·.1 = d) = [] := filter_depths_of_lt (Nat.lt_succ_self d) kids
    simp [depths, List.filter_append, hk, ih, Callback.name]

/-- What is deeper than the trees of a forest is in what they request. -/
theorem filter_depths_deeper {d k : Nat} (h : d < k) (forest : List (Callback ι)) :
    (depths d forest).filter (·.1 = k) = (depths (d + 1) (deeper forest)).filter (·.1 = k) := by
  induction forest with
  | nil => simp
  | cons c forest ih =>
    obtain ⟨name, kids⟩ := c
    have hd : ¬ d = k := Nat.ne_of_lt h
    rw [deeper_cons, depths_append, List.filter_append, ← ih]
    simp [depths, List.filter_append, hd, Callback.kids]

theorem filter_depths_iterate (k : Nat) : ∀ (d : Nat) (forest : List (Callback ι)),
    ((depths d forest).filter (·.1 = d + k)).map Prod.snd = (deeper^[k] forest).map name := by
  induction k with
  | zero => exact filter_depths_self
  | succ k ih =>
    intro d forest
    rw [filter_depths_deeper (by omega), Function.iterate_succ_apply, ← ih (d + 1), Nat.succ_add_eq_add_succ]

theorem atDepth_succ (k : Nat) (forest : List (Callback ι)) :
    atDepth (k + 1) forest = (deeper^[k] forest).map name := by
  rw [← filter_depths_iterate k 1, Nat.add_comm 1 k]
  rfl

/-! ## Heights -/

theorem height_append (f g : List (Callback ι)) : height (f ++ g) = max (height f) (height g) := by
  induction f with
  | nil => simp
  | cons c f ih =>
    obtain ⟨name, kids⟩ := c
    simp only [List.cons_append, height, ih, Nat.max_assoc]

theorem height_deeper (forest : List (Callback ι)) : height (deeper forest) = height forest - 1 := by
  induction forest with
  | nil => simp
  | cons c forest ih =>
    obtain ⟨name, kids⟩ := c
    rw [deeper_cons, height_append, ih]
    simp only [height, Callback.kids]
    omega

theorem height_eq_zero {forest : List (Callback ι)} : height forest = 0 ↔ forest = [] := by
  cases forest with
  | nil => simp
  | cons c forest =>
    obtain ⟨name, kids⟩ := c
    simp [height]

theorem iterate_deeper_eq_nil (k : Nat) :
    ∀ forest : List (Callback ι), deeper^[k] forest = [] ↔ height forest ≤ k := by
  induction k with
  | zero =>
    intro forest
    rw [Function.iterate_zero_apply, ← height_eq_zero]
    omega
  | succ k ih =>
    intro forest
    rw [Function.iterate_succ_apply, ih, height_deeper]
    omega

theorem height_le_count (forest : List (Callback ι)) : height forest ≤ count forest := by
  fun_induction count forest with
  | case1 => simp
  | case2 name kids rest ihk ihr =>
    simp only [height]
    omega

/-! ## Every callback once -/

/-- The names of a forest are those of its trees and those of what they request. -/
theorem depths_perm (d : Nat) (forest : List (Callback ι)) :
    ((depths d forest).map Prod.snd).Perm
      (forest.map name ++ (depths (d + 1) (deeper forest)).map Prod.snd) := by
  induction forest with
  | nil => simp
  | cons c forest ih =>
    obtain ⟨name, kids⟩ := c
    rw [deeper_cons, depths_append]
    simp only [depths, List.cons_append, List.map_cons, List.map_append, Callback.name, Callback.kids]
    refine .cons _ ?_
    refine (ih.append_left _).trans ?_
    rw [← List.append_assoc, ← List.append_assoc]
    exact List.perm_append_comm.append_right _

theorem depths_perm_iterate (forest : List (Callback ι)) (k : Nat) :
    (names forest).Perm ((List.range k).flatMap (fun i => (deeper^[i] forest).map name) ++
      (depths (1 + k) (deeper^[k] forest)).map Prod.snd) := by
  induction k with
  | zero => exact .refl _
  | succ k ih =>
    refine ih.trans ?_
    rw [List.range_succ, List.flatMap_append, List.append_assoc, Function.iterate_succ_apply']
    refine List.Perm.append_left _ ?_
    rw [List.flatMap_singleton, ← Nat.add_assoc]
    exact depths_perm (1 + k) (deeper^[k] forest)

theorem breadthFirst_eq (forest : List (Callback ι)) :
    breadthFirst forest = (List.range (height forest)).flatMap fun k => (deeper^[k] forest).map name := by
  unfold breadthFirst
  simp only [atDepth_succ]

/-- Depth by depth, every name of a forest comes up once. -/
theorem breadthFirst_perm (forest : List (Callback ι)) : (breadthFirst forest).Perm (names forest) := by
  have h := depths_perm_iterate forest (height forest)
  rw [(iterate_deeper_eq_nil _ forest).2 (Nat.le_refl _)] at h
  rw [breadthFirst_eq]
  simpa using h.symm

theorem breadthFirst_unfold (forest : List (Callback ι)) :
    breadthFirst forest = forest.map name ++ breadthFirst (deeper forest) := by
  rw [breadthFirst_eq, breadthFirst_eq, height_deeper]
  cases h : height forest with
  | zero =>
    rw [height_eq_zero] at h
    simp [h]
  | succ n =>
    rw [List.range_succ_eq_map, List.flatMap_cons, List.flatMap_map]
    rfl

/-! ## Batches -/

theorem foldl_run (batch : List (Callback ι)) : ∀ (log : List ι) (q : FrameQueue (Callback ι)),
    batch.foldl (fun (log, q) callback => run log q callback) (log, q) =
      (log ++ batch.map name, ⟨q.pending ++ deeper batch⟩) := by
  induction batch with
  | nil =>
    intro log q
    simp [deeper]
  | cons c batch ih =>
    intro log q
    show batch.foldl _ (log ++ [c.name], q.requestAll c.kids) = _
    rw [ih, deeper_cons, FrameQueue.requestAll_pending]
    simp

/-- A batch runs all that waits and leaves what that requests. -/
theorem step_eq (q : FrameQueue (Callback ι)) : step q = (q.pending.map name, ⟨deeper q.pending⟩) := by
  unfold step FrameQueue.take
  exact foldl_run q.pending [] FrameQueue.empty

theorem iterate_step (k : Nat) (forest : List (Callback ι)) :
    (fun q => (step q).2)^[k] (FrameQueue.empty.requestAll forest) = ⟨deeper^[k] forest⟩ := by
  induction k with
  | zero => exact FrameQueue.requestAll_eq _ _
  | succ k ih => rw [Function.iterate_succ_apply', Function.iterate_succ_apply', ih, step_eq]

/-- The batches of a forest: one for each depth, and one that runs nothing. -/
theorem batches_eq (turns : Nat) : ∀ forest : List (Callback ι), height forest < turns →
    batches turns ⟨forest⟩ = (List.range (height forest + 1)).map fun k =>
      ⟨(deeper^[k] forest).length, (deeper^[k] forest).map name, (deeper^[k + 1] forest).length⟩ := by
  induction turns with
  | zero => exact fun forest h => absurd h (Nat.not_lt_zero _)
  | succ turns ih =>
    intro forest h
    unfold batches
    rw [step_eq]
    dsimp only
    cases forest with
    | nil => simp
    | cons c forest =>
      have hpos : height (c :: forest) ≠ 0 := fun h0 => List.cons_ne_nil _ _ (height_eq_zero.1 h0)
      have hb : height (deeper (c :: forest)) + 1 = height (c :: forest) := by
        rw [height_deeper]
        omega
      rw [if_neg (by simp), ih _ (by omega), hb, List.range_succ_eq_map (n := height (c :: forest))]
      simp only [List.map_cons, List.map_map]
      rfl

end Callback

end BlochSphere
