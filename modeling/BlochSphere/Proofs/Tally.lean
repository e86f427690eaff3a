/-
The counters of a view balance. Every gate that was queued has been completed, is being shown, is pending or
was dropped by a reset; every frame that the renderer took is counted, and so is every reset that cleared
the picture; and every name that was applied is counted as queued or as rejected. What the renderer refused
is not counted, and this is all that the counters and the calls to the renderer differ by. So no counter gets
beyond the number of calls.
-/
import BlochSphere.Proofs.Rejection

namespace BlochSphere

variable {ρ α : Type}

/-! ## Counting calls -/

namespace Call

/-- A frame was handed to the renderer, whether or not it was taken. -/
def isRender : Call α → Bool
  | shown _ => true
  | refused _ => true
  | _ => false

/-- A completing frame was handed to the renderer, whether or not it was taken. -/
def isCompleting : Call α → Bool
  | shown frame => frame.complete
  | refused frame => frame.complete
  | _ => false

def isRefused : Call α → Bool
  | refused _ => true
  | _ => false

def isClear : Call α → Bool
  | clear => true
  | _ => false

/-- The calls without the refused frames. -/
def taken (calls : List (Call α)) : List (Call α) := calls.filter fun call => !call.isRefused

theorem taken_append (calls more : List (Call α)) : taken (calls ++ more) = taken calls ++ taken more :=
  List.filter_append _ _

theorem taken_markers (markers : List (Marker α)) : taken (markers.map marker) = markers.map marker := by
  refine List.filter_eq_self.2 fun call hc => ?_
  obtain ⟨m, -, rfl⟩ := List.mem_map.1 hc
  rfl

theorem countP_markers {p : Call α → Bool} (hp : ∀ m, p (marker m) = false) (markers : List (Marker α)) :
    (markers.map marker).countP p = 0 := by
  rw [List.countP_map, List.countP_eq_zero]
  intro m _
  simp [hp]

/-- Every frame that was handed over was taken or refused. -/
theorem countP_isRender (calls : List (Call α)) :
    calls.countP isRender = (taken calls).countP isRender + calls.countP isRefused := by
  have refused : (calls.filter isRefused).countP isRender = calls.countP isRefused := by
    rw [List.countP_eq_length_filter, List.filter_filter, List.countP_eq_length_filter]
    congr 2
    funext call
    cases call <;> rfl
  rw [List.countP_eq_countP_filter_add calls isRender isRefused, refused, Nat.add_comm]
  rfl

end Call

/-- What the counters say of the calls to the renderer: how many frames it took, how many of them completed a
request, and how often it cleared the picture. All but `uncleared` of the clearings did not fail. -/
structure Metrics.Counts (m : Metrics) (uncleared : Nat) (calls : List (Call α)) : Prop where
  frames : m.framesPublished = (Call.taken calls).countP Call.isRender
  completed : m.gatesCompleted = (Call.taken calls).countP Call.isCompleting
  resets : calls.countP Call.isClear = m.resets + uncleared

namespace Metrics.Counts

variable {m : Metrics} {n : Nat} {calls : List (Call α)}

theorem markers (h : m.Counts n calls) (markers : List (Marker α)) :
    m.Counts n (calls ++ markers.map Call.marker) := by
  have unchanged {p : Call α → Bool} (hp : ∀ m, p (.marker m) = false) (calls : List (Call α)) :
      (calls ++ markers.map Call.marker).countP p = calls.countP p := by
    rw [List.countP_append, Call.countP_markers hp, Nat.add_zero]
  constructor
  · rw [Call.taken_append, Call.taken_markers, unchanged fun _ => rfl]
    exact h.frames
  · rw [Call.taken_append, Call.taken_markers, unchanged fun _ => rfl]
    exact h.completed
  · rw [unchanged fun _ => rfl]
    exact h.resets

/-- One more call, and what the counters have to add for it. -/
theorem concat {m' : Metrics} {n' : Nat} {call : Call α} (h : m.Counts n calls)
    (hf : m'.framesPublished = m.framesPublished + (Call.taken [call]).countP Call.isRender)
    (hc : m'.gatesCompleted = m.gatesCompleted + (Call.taken [call]).countP Call.isCompleting)
    (hr : m.resets + n + [call].countP Call.isClear = m'.resets + n') : m'.Counts n' (calls ++ [call]) := by
  constructor
  · rw [Call.taken_append, List.countP_append, ← h.frames, hf]
  · rw [Call.taken_append, List.countP_append, ← h.completed, hc]
  · rw [List.countP_append, h.resets, hr]

theorem shown {frame : Frame α} (h : m.Counts n calls) (hc : frame.complete = false) :
    m.recordFrame.Counts n (calls ++ [.shown frame]) := by
  refine h.concat rfl ?_ rfl
  simp [Call.taken, Call.isCompleting, Call.isRefused, hc, recordFrame]

theorem complete {frame : Frame α} (h : m.Counts n calls) (hc : frame.complete = true) (d : Duration) :
    (m.recordFrame.recordCompleted d).Counts n (calls ++ [.shown frame]) := by
  refine h.concat rfl ?_ rfl
  simp [Call.taken, Call.isCompleting, Call.isRefused, hc, recordFrame, recordCompleted]

theorem refused (h : m.Counts n calls) (frame : Frame α) : m.Counts n (calls ++ [.refused frame]) :=
  h.concat rfl rfl rfl

theorem cleared (h : m.Counts n calls) : m.recordReset.Counts n (calls ++ [.clear]) :=
  h.concat rfl rfl (Nat.add_right_comm _ _ _)

theorem uncleared (h : m.Counts n calls) : m.Counts (n + 1) (calls ++ [.clear]) :=
  h.concat rfl rfl rfl

end Metrics.Counts

/-! ## One animator -/

namespace Animator

theorem todo_length (a : Animator ρ α) :
    a.todo.length = a.pending.length + if a.active.isSome then 1 else 0 := by
  unfold todo current
  rw [List.length_append, List.length_map, Nat.add_comm]
  cases a.active <;> rfl

/-- The account of an animator that was asked for `applied` gates by name: they were queued or rejected; those
that were queued are completed, to do or among the `dropped` ones; and the counters agree with the calls to the
renderer. -/
structure Tallied (applied dropped uncleared : Nat) (a : Animator (Traced ρ α) α) : Prop where
  asked : a.metrics.gatesQueued + a.metrics.gatesRejected = applied
  queued : a.metrics.gatesQueued = a.metrics.gatesCompleted + a.todo.length + dropped
  counts : a.metrics.Counts uncleared a.renderer.calls

variable {a b : Animator (Traced ρ α) α} {applied dropped uncleared : Nat}

theorem Tallied.activate {active : Active} (h : a.Tallied applied dropped uncleared)
    (hb : a.activate = some (active, b)) : b.Tallied applied dropped uncleared := by
  have hq := h.queued
  rw [← activate_todo hb] at hq
  rw [activate_eq hb] at hq ⊢
  exact ⟨h.asked, hq, h.counts⟩

theorem Tallied.queue (h : a.Tallied applied dropped uncleared) (code : GateCode) :
    (a.queue code).2.Tallied (applied + 1) dropped uncleared := by
  obtain ⟨ha, hq, hc⟩ := h
  rw [queue_eq]
  refine ⟨?_, ?_, hc.frames, hc.completed, hc.resets⟩
  · show a.metrics.gatesQueued + 1 + a.metrics.gatesRejected = applied + 1
    omega
  · show a.metrics.gatesQueued + 1 = a.metrics.gatesCompleted +
      (a.current ++ (a.pending ++ [(⟨a.seq + 1, code⟩ : Applied)])).length + dropped
    rw [todo, List.length_append] at hq
    simp only [List.length_append, List.length_singleton]
    omega

theorem Tallied.reject (h : a.Tallied applied dropped uncleared) :
    Tallied (applied + 1) dropped uncleared { a with metrics := a.metrics.recordRejected } := by
  obtain ⟨ha, hq, hc⟩ := h
  refine ⟨?_, hq, hc.frames, hc.completed, hc.resets⟩
  show a.metrics.gatesQueued + (a.metrics.gatesRejected + 1) = applied + 1
  omega

variable [Scalar α] [Renderer ρ α]

/-- A reset drops all that is to do, and counts unless the picture could not be cleared. -/
theorem Tallied.reset (h : a.Tallied applied dropped uncleared) :
    a.reset.2.Tallied applied (dropped + a.todo.length) (uncleared + if a.reset.1.isOk then 0 else 1) := by
  have hq : a.metrics.gatesQueued = a.metrics.gatesCompleted + 0 + (dropped + a.todo.length) := by
    have hq := h.queued
    omega
  have hcalls := Traced.clear_calls a.renderer
  unfold Animator.reset
  generalize (Renderer.clear a.renderer : Except Fault Unit × Traced ρ α) = outcome at hcalls
  obtain ⟨_ | _, t⟩ := outcome
  · have hc := h.counts.uncleared
    rw [← hcalls] at hc
    exact ⟨h.asked, hq, hc⟩
  · have hc := h.counts.cleared
    rw [← hcalls] at hc
    exact ⟨h.asked, hq, hc⟩

/-- Until it is handed over, a shot tells the renderer of markers only. -/
theorem Tallied.shot {active : Active} {s : Shot (Traced ρ α) α} (h : a.Tallied applied dropped uncleared)
    (hs : a.shot active = .ok s) : a.metrics.Counts uncleared s.renderer.calls := by
  rw [shot_calls hs]
  exact h.counts.markers _

theorem FrameStep.tallied {generation : UInt64} {outcome : Except Fault Unit × Animator (Traced ρ α) α}
    (step : FrameStep a generation outcome) (h : a.Tallied applied dropped uncleared) :
    outcome.2.Tallied applied dropped uncleared := by
  -- a completed request moves from what is to do to what is completed
  have finished {active : Active} {b : Animator (Traced ρ α) α} {s : Shot (Traced ρ α) α} {t : Traced ρ α}
      (hb : a.activate = some (active, b)) (hs : b.shot active = .ok s)
      (hr : Renderer.render s.renderer s.frame = (.ok (), t)) (hcomplete : s.frame.complete = true) :
      b.metrics.gatesQueued = b.metrics.gatesCompleted + 1 + b.pending.length + dropped ∧
        (b.metrics.recordFrame.recordCompleted s.elapsed).Counts uncleared t.calls := by
    have hq := (h.activate hb).queued
    rw [todo_length, activate_active hb] at hq
    simp only [Option.isSome_some, if_true] at hq
    rw [Traced.render_ok hr]
    exact ⟨by omega, ((h.activate hb).shot hs).complete hcomplete _⟩
  cases step with
  | ignored => exact h
  | drained => exact ⟨h.asked, h.queued, h.counts⟩
  | blocked _ hb _ => exact h.activate hb
  | @refused active b s fault t _ hb hs hr =>
    have hc := ((h.activate hb).shot hs).refused s.frame
    rw [← Traced.render_error hr] at hc
    exact ⟨(h.activate hb).asked, (h.activate hb).queued, hc⟩
  | shown _ hb hs hr hcomplete =>
    have hc := ((h.activate hb).shot hs).shown hcomplete
    rw [← Traced.render_ok hr] at hc
    exact ⟨(h.activate hb).asked, (h.activate hb).queued, hc⟩
  | passed _ hb hs hr hcomplete _ =>
    obtain ⟨hq, hc⟩ := finished hb hs hr hcomplete
    exact ⟨(h.activate hb).asked, hq, hc⟩
  | ended _ hb hs hr hcomplete _ =>
    obtain ⟨hq, hc⟩ := finished hb hs hr hcomplete
    exact ⟨(h.activate hb).asked, hq, hc⟩

theorem Tallied.step (h : a.Tallied applied dropped uncleared) :
    a.step.2.Tallied applied dropped uncleared := by
  rw [step_snd]
  exact runBatch_induction (P := Tallied applied dropped uncleared)
    (fun a generation ha => (a.frame_step generation).tallied ha) _ _ ⟨h.asked, h.queued, h.counts⟩

end Animator

/-! ## Runs of a view -/

/-- The call applies a name, known or not. -/
def HostCall.applies : HostCall → Bool
  | .move (.apply _) => true
  | _ => false

namespace Scene

variable [Scalar α] [Renderer ρ α]

/-- The requests that a call drops: those that are not done when a reset comes. -/
def drops (s : Scene ρ α) : HostCall → List Applied
  | .move .reset => s.view.animator.todo
  | _ => []

/-- The fault of a reset that could not clear the picture. -/
def clearFaults (s : Scene ρ α) : HostCall → List Fault
  | .move .reset =>
    match s.view.reset.1 with
    | .error fault => [fault]
    | .ok () => []
  | _ => []

/-- What is read off each call of a run and the scene it comes to, in the order of the calls. -/
def along {β : Type} (read : Scene ρ α → HostCall → List β) : Scene ρ α → List HostCall → List β
  | _, [] => []
  | s, c :: calls => read s c ++ (s.handle c).along read calls

variable {s : Scene (Traced ρ α) α} {applied dropped uncleared : Nat}

theorem tallied_handle (h : s.view.animator.Tallied applied dropped uncleared) (c : HostCall) :
    (s.handle c).view.animator.Tallied (applied + if c.applies then 1 else 0)
      (dropped + (s.drops c).length) (uncleared + (s.clearFaults c).length) := by
  rcases c with (name | _ | _ | _ | i) | ns | _ | shown
  case move.apply =>
    show (s.view.apply name).2.animator.Tallied (applied + 1) dropped uncleared
    cases hp : Gate.parse name with
    | error e =>
      rw [View.apply_unknown hp]
      exact h.reject
    | ok g =>
      rw [View.apply_known hp]
      exact h.queue g.code
  case move.reset =>
    have hf : (s.clearFaults (.move .reset)).length = if s.view.animator.reset.1.isOk then 0 else 1 := by
      show (match s.view.animator.reset.1 with | .error fault => [fault] | .ok () => []).length = _
      cases s.view.animator.reset.1 <;> rfl
    rw [hf]
    exact h.reset
  case move.fire =>
    show (s.fire i).view.animator.Tallied applied dropped uncleared
    rcases s.fire_view i with hv | ⟨generation, hv⟩
    · rw [hv]
      exact h
    · rw [hv]
      exact (s.view.animator.frame_step generation).tallied h
  case step => exact h.step
  all_goals exact ⟨h.asked, h.queued, h.counts⟩

theorem tallied_handleAll (calls : List HostCall) : ∀ {s : Scene (Traced ρ α) α}
    {applied dropped uncleared : Nat}, s.view.animator.Tallied applied dropped uncleared →
      (s.handleAll calls).view.animator.Tallied (applied + calls.countP HostCall.applies)
        (dropped + (s.along drops calls).length) (uncleared + (s.along clearFaults calls).length) := by
  induction calls with
  | nil => exact fun h => h
  | cons c calls ih =>
    intro s applied dropped uncleared h
    have hrest := ih (tallied_handle h c)
    rw [Nat.add_assoc, Nat.add_assoc, Nat.add_assoc, ← List.length_append, ← List.length_append] at hrest
    rw [List.countP_cons, Nat.add_comm (calls.countP _)]
    exact hrest

theorem tallied_run (config : Config) (renderer : ρ) (now : Int) (calls : List HostCall) :
    let s : Scene (Traced ρ α) α := Scene.new config ⟨renderer, []⟩ now
    (s.handleAll calls).view.animator.Tallied (calls.countP HostCall.applies) (s.along drops calls).length
      (s.along clearFaults calls).length := by
  intro s
  have new : s.view.animator.Tallied 0 0 0 := ⟨rfl, rfl, rfl, rfl, rfl⟩
  have h := tallied_handleAll calls new
  rwa [Nat.zero_add, Nat.zero_add, Nat.zero_add] at h

/-- No counter gets beyond the number of calls, those to the view or those to the renderer. -/
theorem counters_le (config : Config) (renderer : ρ) (now : Int) (calls : List HostCall) :
    let a := ((Scene.new config ⟨renderer, []⟩ now : Scene (Traced ρ α) α).handleAll calls).view.animator
    let m := a.metrics
    m.gatesQueued + m.gatesRejected ≤ calls.length ∧ m.gatesCompleted ≤ calls.length ∧
      m.framesPublished ≤ a.renderer.calls.length ∧ m.resets ≤ a.renderer.calls.length := by
  intro a m
  have h : a.Tallied _ _ _ := tallied_run config renderer now calls
  have hasked : m.gatesQueued + m.gatesRejected ≤ calls.length := h.asked.le.trans List.countP_le_length
  have hqueued : m.gatesQueued = m.gatesCompleted + _ + _ := h.queued
  have hframes : m.framesPublished ≤ a.renderer.calls.length := by
    rw [h.counts.frames]
    exact List.countP_le_length.trans (List.length_filter_le _ _)
  have hresets : m.resets + _ ≤ a.renderer.calls.length := h.counts.resets.ge.trans List.countP_le_length
  exact ⟨hasked, by omega, hframes, by omega⟩

/-- The metrics balance. Of the queued gates each is completed, pending, active or was dropped by a reset;
each applied name was queued or rejected; and the renderer took the frames that were published, those of them
that complete a gate for the completed gates, and one clearing for each reset. What the counters leave out is
what the renderer refused. The run is traced, which changes nothing of it. -/
theorem metrics_balance (config : Config) (renderer : ρ) (now : Int) (calls : List HostCall) :
    let s : Scene (Traced ρ α) α := Scene.new config ⟨renderer, []⟩ now
    let final := s.handleAll calls
    let a := final.view.animator
    let m := a.metrics
    let told := a.renderer.calls
    final.mapRenderer Traced.renderer = (Scene.new config renderer now).handleAll calls ∧
    m.gatesQueued = m.gatesCompleted + a.pending.length + (if a.active.isSome then 1 else 0) +
      (s.along drops calls).length ∧
    m.gatesQueued + m.gatesRejected = calls.countP HostCall.applies ∧
    m.framesPublished = (Call.taken told).countP Call.isRender ∧
    told.countP Call.isRender = m.framesPublished + told.countP Call.isRefused ∧
    m.gatesCompleted = (Call.taken told).countP Call.isCompleting ∧
    told.countP Call.isClear = m.resets + (s.along clearFaults calls).length := by
  intro s final a m told
  obtain ⟨hasked, hqueued, hcounts⟩ := tallied_run (α := α) config renderer now calls
  rw [Animator.todo_length, ← Nat.add_assoc] at hqueued
  refine ⟨(handleAll_mapRenderer Traced.answersAlike calls s).symm, hqueued, hasked, hcounts.frames, ?_,
    hcounts.completed, hcounts.resets⟩
  rw [Call.countP_isRender, ← hcounts.frames]

-- a reset in the middle of the first of two gates drops both
example : ((Scene.new { Config.default with pathResolution := 2 } Discard.new 0 : Scene (Discard Float) Float).along
    drops [.move (.apply [120]), .move (.apply [104]), .step, .move .reset, .step]).map Applied.seq = [1, 2] := by
  decide +kernel

/-- A broadcaster whose only channel was closed by a subscription that failed refuses the first frame: one
frame was handed over and none is counted. -/
theorem refused_frame_not_counted :
    let channel : Broadcaster Float := (Broadcaster.new.subscribe "a" 4 none).2
    let closed : Broadcaster Float := (channel.subscribe "a" (-1) none).2
    let config : Config := { Config.default with pathResolution := 2 }
    let a : Animator (Traced (Broadcaster Float) Float) Float :=
      ((Scene.new config ⟨closed, []⟩ 0).handleAll [.move (.apply [88]), .step]).view.animator
    a.renderer.calls.countP Call.isRender = 1 ∧ a.metrics.framesPublished = 0 := by
  decide +kernel

end Scene

end BlochSphere
