/-
A reset view is as good as new. Whatever was done to a view before it was reset, from then on it does
what a new view does at the same time: it tells its renderer the same, with numbers that are larger by
the number of gates applied before, and shows the same state, history, trail and animation. Callbacks
from before the reset may still be outstanding; they do nothing.
-/
import BlochSphere.View
import BlochSphere.Proofs.Animation.Renewal
import BlochSphere.Proofs.Broadcast

namespace BlochSphere

variable {ρ α : Type}

/-! ## Renderers that begin anew -/

instance [Scalar α] : Restarting (Discard α) α where
  next := Discard.next
  shows _ _ := .ok ()
  addMarker_handle _ _ := rfl
  addMarker_next _ _ := rfl
  addMarker_shows _ _ := rfl
  render_result _ _ := rfl
  render_next _ _ := rfl
  render_shows _ _ := rfl
  clear_result _ := rfl
  clear_next _ := rfl
  clear_shows _ := rfl

instance [Scalar α] : Restarting (Broadcaster α) α where
  next := Broadcaster.nextMarker
  shows b f := (b.send f).1
  addMarker_handle _ _ := rfl
  addMarker_next _ _ := rfl
  addMarker_shows b _ := by
    funext f
    exact Broadcaster.send_fst (b.audience_renumber (b.nextMarker + 1)) f
  render_result _ _ := rfl
  render_next b f := (b.send_kept f).2
  render_shows b f := by
    funext g
    exact Broadcaster.send_fst (b.send_kept f).1 g
  clear_result b := Broadcaster.send_fst (b.audience_renumber 0) Frame.clearing
  clear_next b := (Broadcaster.send_kept { b with nextMarker := 0 } Frame.clearing).2
  clear_shows b := by
    funext f
    have hk := (Broadcaster.send_kept { b with nextMarker := 0 } Frame.clearing).1
    exact Broadcaster.send_fst (hk.trans (b.audience_renumber 0)) f

/-! ## Operations on a view -/

/-- What is done to a view. `step` runs the callbacks that are outstanding. -/
inductive ViewOp where
  | apply (name : List UInt8)
  | reset
  | setClock (now : Int)
  | advanceClock (ns : Int)
  | step
  deriving DecidableEq

/-- Whether the operation queues a gate. -/
def ViewOp.queues : ViewOp → Bool
  | .apply name => (Gate.parse name).isOk
  | _ => false

/-- How many gates are queued. -/
def ViewOp.queued (ops : List ViewOp) : Nat := ops.countP ViewOp.queues

namespace View

variable [Scalar α] [Renderer ρ α]

def operate (v : View ρ α) : ViewOp → View ρ α
  | .apply name => (v.apply name).2
  | .reset => v.reset.2
  | .setClock now => v.setClock now
  | .advanceClock ns => v.advanceClock ns
  | .step => v.step.2

def operateAll (v : View ρ α) (ops : List ViewOp) : View ρ α := ops.foldl operate v

omit [Renderer ρ α] in
theorem apply_unknown {name : List UInt8} {e : UnknownGate} (h : Gate.parse name = .error e)
    (v : View ρ α) : (v.apply name).2 = { v with
      reports := v.reports ++ [e]
      animator := { v.animator with metrics := v.animator.metrics.recordRejected } } := by
  simp only [View.apply, h]

omit [Renderer ρ α] in
theorem apply_known {name : List UInt8} {g : Gate} (h : Gate.parse name = .ok g) (v : View ρ α) :
    (v.apply name).2 = { v with
      qubit := v.qubit.apply g
      history := v.history ++ [g]
      animator := (v.animator.queue g.code).2 } := by
  simp only [View.apply, h]

/-! ## What a view goes through -/

theorem dated_operate {v : View ρ α} {resets : Nat} (h : v.animator.Dated resets) (op : ViewOp) :
    (v.operate op).animator.Dated (resets + if op = .reset then 1 else 0) := by
  cases op with
  | apply name =>
    show (v.apply name).2.animator.Dated resets
    cases hp : Gate.parse name with
    | error e =>
      rw [apply_unknown hp]
      exact ⟨h.generation, h.callbacks⟩
    | ok g =>
      rw [apply_known hp]
      exact h.queue g.code
  | reset => exact h.reset
  | setClock now => exact ⟨h.generation, h.callbacks⟩
  | advanceClock ns => exact ⟨h.generation, h.callbacks⟩
  | step => exact h.step

theorem dated_operateAll (ops : List ViewOp) : ∀ {v : View ρ α} {resets : Nat}, v.animator.Dated resets →
    (v.operateAll ops).animator.Dated (resets + ops.count .reset) := by
  induction ops with
  | nil => exact fun h => h
  | cons op ops ih =>
    intro v resets h
    have hr := ih (dated_operate h op)
    rw [Nat.add_assoc] at hr
    rw [List.count_cons, Nat.add_comm (ops.count _)]
    simp only [beq_iff_eq]
    exact hr

/-! ## Tracing changes nothing -/

section Tracing

variable {σ : Type} [Renderer σ α] {φ : ρ → σ}

theorem runBatch_mapRenderer (h : AnswersAlike φ) (batch : List UInt64) : ∀ a : Animator ρ α,
    Animator.runBatch batch (a.mapRenderer φ) =
      Prod.map id (Animator.mapRenderer φ) (Animator.runBatch batch a) := by
  induction batch with
  | nil => exact fun _ => rfl
  | cons generation rest ih =>
    intro a
    unfold Animator.runBatch
    rw [Animator.frame_mapRenderer h]
    rcases a.frame generation with ⟨_ | _, b⟩
    · rfl
    · exact ih b

/-- The view with the renderer of its animator shown as another one. -/
def mapRenderer (φ : ρ → σ) (v : View ρ α) : View σ α :=
  { v with animator := v.animator.mapRenderer φ }

theorem operate_mapRenderer (h : AnswersAlike φ) (v : View ρ α) (op : ViewOp) :
    (v.mapRenderer φ).operate op = (v.operate op).mapRenderer φ := by
  cases op with
  | apply name =>
    simp only [operate, mapRenderer, View.apply]
    cases Gate.parse name with
    | error e => rfl
    | ok g => simp only [Animator.queue_mapRenderer, Prod.map_snd]
  | reset => simp only [operate, mapRenderer, View.reset, Animator.reset_mapRenderer h, Prod.map_snd]
  | setClock now => rfl
  | advanceClock ns => rfl
  | step =>
    have hs : (v.animator.mapRenderer φ).step.2 = v.animator.step.2.mapRenderer φ := by
      rw [Animator.step_snd, Animator.step_snd]
      exact congrArg Prod.snd (runBatch_mapRenderer h _ { v.animator with callbacks := FrameQueue.empty })
    show { v with animator := (v.animator.mapRenderer φ).step.2 } = _
    rw [hs]
    rfl

theorem operateAll_mapRenderer (h : AnswersAlike φ) (ops : List ViewOp) :
    ∀ v : View ρ α, (v.mapRenderer φ).operateAll ops = (v.operateAll ops).mapRenderer φ := by
  induction ops with
  | nil => exact fun _ => rfl
  | cons op ops ih =>
    intro v
    show ((v.mapRenderer φ).operate op).operateAll ops = ((v.operate op).operateAll ops).mapRenderer φ
    rw [operate_mapRenderer h, ih]

end Tracing

/-! ## Two views in step -/

variable [Restarting ρ α]

theorem kept_operate {start : Animator (Traced ρ α) α} {v : View (Traced ρ α) α} {queued : Nat}
    (h : v.animator.Kept start queued) (op : ViewOp) :
    (v.operate op).animator.Kept start (queued + if op.queues then 1 else 0) := by
  cases op with
  | apply name =>
    show (v.apply name).2.animator.Kept start (queued + if (Gate.parse name).isOk then 1 else 0)
    cases hp : Gate.parse name with
    | error e =>
      rw [apply_unknown hp]
      exact ⟨h.seq, h.duration, h.resolution, h.shows⟩
    | ok g =>
      rw [apply_known hp]
      exact h.queue g.code
  | reset => exact h.reset
  | setClock now => exact ⟨h.seq, h.duration, h.resolution, h.shows⟩
  | advanceClock ns => exact ⟨h.seq, h.duration, h.resolution, h.shows⟩
  | step => exact h.step

theorem kept_operateAll {start : Animator (Traced ρ α) α} (ops : List ViewOp) :
    ∀ {v : View (Traced ρ α) α} {queued : Nat}, v.animator.Kept start queued →
      (v.operateAll ops).animator.Kept start (queued + ViewOp.queued ops) := by
  induction ops with
  | nil => exact fun h => h
  | cons op ops ih =>
    intro v queued h
    have hk := ih (kept_operate h op)
    rw [Nat.add_assoc] at hk
    unfold ViewOp.queued
    rw [List.countP_cons, Nat.add_comm (ops.countP _)]
    exact hk

/-- The first view agrees with the second but for larger numbers, callbacks that do nothing, and what is
only counted or recorded. -/
structure Renews (k : UInt64) (earlier : List (Call α)) (v w : View (Traced ρ α) α) : Prop where
  qubit : v.qubit = w.qubit
  history : v.history = w.history
  animator : v.animator.Renews k earlier w.animator

variable {k : UInt64} {earlier : List (Call α)}

theorem Renews.operate {v w : View (Traced ρ α) α} (h : v.Renews k earlier w) {op : ViewOp}
    (hv : op = .reset → v.animator.Fresh) (hw : op = .reset → w.animator.Fresh) :
    (v.operate op).Renews k earlier (w.operate op) := by
  have ha := h.animator
  cases op with
  | apply name =>
    show (v.apply name).2.Renews k earlier (w.apply name).2
    cases hp : Gate.parse name with
    | error e =>
      rw [apply_unknown hp, apply_unknown hp]
      exact ⟨h.qubit, h.history, ha.duration, ha.now, ha.phase, ha.trail, ha.seq, ha.pending, ha.active,
        ha.engine, ha.renderer, ha.live⟩
    | ok g =>
      rw [apply_known hp, apply_known hp]
      refine ⟨?_, ?_, ha.queue g.code⟩
      · show v.qubit.apply g = w.qubit.apply g
        rw [h.qubit]
      · show v.history ++ [g] = w.history ++ [g]
        rw [h.history]
  | reset => exact ⟨rfl, rfl, ha.reset (hv rfl) (hw rfl)⟩
  | setClock now =>
    exact ⟨h.qubit, h.history, ha.duration, rfl, ha.phase, ha.trail, ha.seq, ha.pending, ha.active,
      ha.engine, ha.renderer, ha.live⟩
  | advanceClock ns =>
    have hnow : v.animator.now + ns = w.animator.now + ns := by rw [ha.now]
    exact ⟨h.qubit, h.history, ha.duration, hnow, ha.phase, ha.trail, ha.seq, ha.pending, ha.active,
      ha.engine, ha.renderer, ha.live⟩
  | step => exact ⟨h.qubit, h.history, ha.step⟩

/-- Two views in step stay in step, as long as there are numbers left for new generations. -/
theorem Renews.operateAll (ops : List ViewOp) : ∀ {v w : View (Traced ρ α) α} {n m : Nat},
    v.Renews k earlier w → v.animator.Dated n → w.animator.Dated m →
      n + ops.count .reset < 2 ^ 64 → m + ops.count .reset < 2 ^ 64 →
      (v.operateAll ops).Renews k earlier (w.operateAll ops) := by
  induction ops with
  | nil => exact fun h _ _ _ _ => h
  | cons op ops ih =>
    intro v w n m h hv hw hn hm
    have hcount : (op :: ops).count .reset = ops.count .reset + if op = .reset then 1 else 0 := by
      rw [List.count_cons]
      simp only [beq_iff_eq]
    rw [hcount] at hn hm
    refine ih (h.operate (fun ho => hv.fresh ?_) (fun ho => hw.fresh ?_)) (dated_operate hv op)
      (dated_operate hw op) (by omega) (by omega)
    · rw [if_pos ho] at hn
      omega
    · rw [if_pos ho] at hm
      omega

/-- After a reset, a view agrees with a new one. -/
theorem reset_renews {config : Config} {renderer fresh : ρ} {now : Int} {queued resets : Nat}
    {u : View (Traced ρ α) α}
    (hk : u.animator.Kept (View.new config ⟨renderer, []⟩ now).animator queued)
    (hd : u.animator.Dated resets) (hresets : resets + 1 < 2 ^ 64) (hnext : Restarting.next fresh = 0)
    (hshows : ∀ f, Restarting.shows renderer (f.shift (UInt64.ofNat queued)) = Restarting.shows fresh f) :
    u.reset.2.Renews (UInt64.ofNat queued) u.reset.2.animator.renderer.calls
      (View.new config ⟨fresh, []⟩ u.reset.2.animator.now) := by
  obtain ⟨metrics, hr⟩ := u.animator.reset_snd
  have ha : u.reset.2.animator = u.animator.reset.2 := rfl
  have hshown := hk.reset.shows
  refine ⟨rfl, rfl, ?_⟩
  rw [ha]
  rw [hr] at hshown ⊢
  refine ⟨hk.duration, rfl, rfl, rfl, hk.seq, rfl, rfl, ?_, ⟨?_, fun f => ?_, ?_⟩, ?_⟩
  · show (⟨u.animator.engine.resolution, Quat.identity, none⟩ : Engine α) = _
    rw [hk.resolution]
    rfl
  · exact (Restarting.clear_next u.animator.renderer.renderer).trans hnext.symm
  · rw [hshown]
    exact hshows f
  · exact (List.append_nil _).symm
  · -- whatever is outstanding is from before the reset
    exact List.count_eq_zero.2 fun hm => hd.fresh hresets _ hm rfl

/-- A view that was reset does what a new one at that time does: its renderer is told the same, with numbers
that are larger by the number of gates queued before, and state, history, trail and animation are the
same. The new view has a renderer that numbers markers from zero and refuses the same frames. Both are
traced, which changes nothing of them. -/
theorem reset_as_good_as_new (config : Config) (renderer fresh : ρ) (now : Int) (before ops : List ViewOp)
    (hresets : before.count .reset + 1 + ops.count .reset < 2 ^ 64)
    (hnext : Restarting.next fresh = 0)
    (hshows : ∀ f, Restarting.shows renderer (f.shift (UInt64.ofNat (ViewOp.queued before))) =
      Restarting.shows fresh f) :
    let k := UInt64.ofNat (ViewOp.queued before)
    let used : View (Traced ρ α) α := ((View.new config ⟨renderer, []⟩ now).operateAll before).reset.2
    let new : View (Traced ρ α) α := View.new config ⟨fresh, []⟩ used.animator.now
    let v := used.operateAll ops
    let w := new.operateAll ops
    v.mapRenderer Traced.renderer =
      ((View.new config renderer now).operateAll before).reset.2.operateAll ops ∧
    w.mapRenderer Traced.renderer = (View.new config fresh used.animator.now).operateAll ops ∧
    v.animator.renderer.calls =
      used.animator.renderer.calls ++ w.animator.renderer.calls.map (Call.shift k) ∧
    v.qubit = w.qubit ∧ v.history = w.history ∧ v.animator.trail = w.animator.trail ∧
    v.animator.orientation = w.animator.orientation ∧ v.animator.phase = w.animator.phase ∧
    v.animator.pending = w.animator.pending.map (Applied.shift k) ∧
    v.animator.active = w.animator.active.map (Active.shift k) := by
  intro k used new v w
  have hk := kept_operateAll before (v := (View.new config ⟨renderer, []⟩ now : View (Traced ρ α) α))
    (show Animator.Kept _ _ 0 from ⟨rfl, rfl, rfl, rfl⟩)
  have hd := dated_operateAll before (v := (View.new config ⟨renderer, []⟩ now : View (Traced ρ α) α))
    (show Animator.Dated 0 _ from ⟨rfl, nofun⟩)
  rw [Nat.zero_add] at hk hd
  have h : v.Renews k used.animator.renderer.calls w :=
    Renews.operateAll ops (reset_renews hk hd (by omega) hnext hshows) hd.reset
      (show Animator.Dated 0 _ from ⟨rfl, nofun⟩) hresets (by omega)
  have ha := h.animator
  refine ⟨?_, ?_, ha.renderer.calls, h.qubit, h.history, ha.trail, ?_, ha.phase, ha.pending, ha.active⟩
  · have hb := operateAll_mapRenderer Traced.answersAlike before (View.new config ⟨renderer, []⟩ now)
    have hr := operate_mapRenderer Traced.answersAlike
      ((View.new config ⟨renderer, []⟩ now : View (Traced ρ α) α).operateAll before) .reset
    rw [← hb] at hr
    exact ((congrArg (View.operateAll · ops) hr).trans
      (operateAll_mapRenderer Traced.answersAlike ops used)).symm
  · exact (operateAll_mapRenderer Traced.answersAlike ops new).symm
  · show v.animator.engine.current = w.animator.engine.current
    rw [ha.engine]
    rfl

/-- The view is reset in the midst of a gate, and the callback of that gate is still outstanding. -/
theorem reset_as_good_as_new_beside_stale :
    let config : Config := { Config.default with pathResolution := 2 }
    let renderer : Broadcaster Float := (Broadcaster.new.subscribe "canvas" 1 (some completedOnly)).2
    let before : List ViewOp :=
      [.apply [120], .step, .reset, .apply [104], .apply [63], .step, .advanceClock 600000000, .step]
    let ops : List ViewOp := [.apply [121], .step, .advanceClock 700000000, .step, .apply [122], .step]
    let used : View (Traced (Broadcaster Float) Float) Float :=
      ((View.new config ⟨renderer, []⟩ 0).operateAll before).reset.2
    let v := used.operateAll ops
    let w : View (Traced (Broadcaster Float) Float) Float :=
      (View.new config ⟨Broadcaster.new, []⟩ 600000000).operateAll ops
    before.count .reset + 1 + ops.count .reset < 2 ^ 64 ∧
    (∀ f, (renderer.send (f.shift 2)).1 = (Broadcaster.new.send f).1) ∧
    used.animator.now = 600000000 ∧ used.animator.callbacks.pending = [1] ∧
    used.animator.generation = 2 ∧ w.animator.markers.map Marker.handle = [0] ∧
    v.animator.renderer.calls = used.animator.renderer.calls ++
      w.animator.renderer.calls.map (Call.shift 2) ∧
    v.animator.trail = w.animator.trail := by
  intro config renderer before ops used v w
  have hresets : before.count .reset + 1 + ops.count .reset < 2 ^ 64 := by decide
  have hqueued : UInt64.ofNat (ViewOp.queued before) = 2 := by decide +kernel
  have hshows : ∀ f, (renderer.send (f.shift 2)).1 = (Broadcaster.new.send f).1 := by
    intro f
    rw [Broadcaster.send_open (by decide +kernel), Broadcaster.send_open (by decide +kernel)]
  have hnow : used.animator.now = 600000000 := by decide +kernel
  have hpending : used.animator.callbacks.pending = [1] := by decide +kernel
  have hgeneration : used.animator.generation = 2 := by decide +kernel
  have hmarkers : w.animator.markers.map Marker.handle = [0] := by decide +kernel
  have hused : used = ((View.new config ⟨renderer, []⟩ 0).operateAll before).reset.2 := rfl
  have hv : v = used.operateAll ops := rfl
  have hw : w = (View.new config ⟨Broadcaster.new, []⟩ 600000000).operateAll ops := rfl
  -- the runs themselves are no longer needed, and unifying with them would run them again
  clear_value v w used
  have key := reset_as_good_as_new config renderer Broadcaster.new 0 before ops hresets rfl
    (by rw [hqueued]; exact hshows)
  rw [hqueued, ← hused] at key
  obtain ⟨_, _, hcalls, _, _, htrail, _⟩ := key
  rw [hnow, ← hv, ← hw] at hcalls htrail
  exact ⟨hresets, hshows, hnow, hpending, hgeneration, hmarkers, hcalls, htrail⟩

end View

end BlochSphere
