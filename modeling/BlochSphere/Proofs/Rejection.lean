/-
Names that no gate has are reported and do nothing else. A run of a view with such names between its
other calls ends as the run without them does, down to every frame, callback and counter; only the
reports and the number of rejected gates tell the two apart, and they tell exactly of those names.
-/
import BlochSphere.Proofs.Reset
import BlochSphere.Proofs.View

namespace BlochSphere

variable {ρ α : Type}

/-! ## Rejections that an animator has counted -/

namespace Animator

/-- The animator with `n` more rejected gates on its account. -/
def refuse (n : Nat) (a : Animator ρ α) : Animator ρ α :=
  { a with metrics := { a.metrics with gatesRejected := a.metrics.gatesRejected + n } }

theorem queue_refuse (n : Nat) (a : Animator ρ α) (code : GateCode) :
    (a.refuse n).queue code = Prod.map id (refuse n) (a.queue code) := by
  rw [queue_eq, queue_eq]
  rfl

theorem activate_refuse (n : Nat) (a : Animator ρ α) :
    (a.refuse n).activate = a.activate.map (Prod.map id (refuse n)) := by
  obtain ⟨_, _, _, _, _, _, _, pending, active, _, _, _⟩ := a
  cases active with
  | some active => rfl
  | none => cases pending <;> rfl

variable [Scalar α] [Renderer ρ α]

theorem reset_refuse (n : Nat) (a : Animator ρ α) :
    (a.refuse n).reset = Prod.map id (refuse n) a.reset := by
  have hr : (a.refuse n).renderer = a.renderer := rfl
  unfold reset
  rw [hr]
  rcases (Renderer.clear a.renderer : Except Fault Unit × ρ) with ⟨_ | _, r⟩ <;> rfl

/-- No callback looks at the number of rejected gates. -/
theorem FrameStep.refuse (n : Nat) {a : Animator ρ α} {generation : UInt64}
    {outcome : Except Fault Unit × Animator ρ α} (h : FrameStep a generation outcome) :
    FrameStep (a.refuse n) generation (Prod.map id (Animator.refuse n) outcome) := by
  have alive (hl : a.Live generation) : (a.refuse n).Live generation := hl
  have activated {active : Active} {b : Animator ρ α} (hb : a.activate = some (active, b)) :
      (a.refuse n).activate = some (active, b.refuse n) := by
    rw [activate_refuse, hb]
    rfl
  cases h with
  | ignored hl => exact .ignored hl
  | drained hl hn => exact .drained (alive hl) (by rw [activate_refuse, hn]; rfl)
  | blocked hl hb hs => exact .blocked (alive hl) (activated hb) hs
  | refused hl hb hs hr => exact .refused (alive hl) (activated hb) hs hr
  | shown hl hb hs hr hc => exact .shown (alive hl) (activated hb) hs hr hc
  | passed hl hb hs hr hc hp => exact .passed (alive hl) (activated hb) hs hr hc hp
  | ended hl hb hs hr hc hp => exact .ended (alive hl) (activated hb) hs hr hc hp

theorem frame_refuse (n : Nat) (a : Animator ρ α) (generation : UInt64) :
    (a.refuse n).frame generation = Prod.map id (refuse n) (a.frame generation) :=
  ((a.frame_step generation).refuse n).frame_eq

theorem runBatch_refuse (n : Nat) (batch : List UInt64) : ∀ a : Animator ρ α,
    runBatch batch (a.refuse n) = Prod.map id (refuse n) (runBatch batch a) := by
  induction batch with
  | nil => exact fun _ => rfl
  | cons generation rest ih =>
    intro a
    unfold runBatch
    rw [frame_refuse]
    rcases a.frame generation with ⟨_ | _, b⟩
    · rfl
    · exact ih b

theorem step_refuse (n : Nat) (a : Animator ρ α) : (a.refuse n).step.2 = a.step.2.refuse n := by
  rw [step_snd, step_snd]
  exact congrArg Prod.snd (runBatch_refuse n _ { a with callbacks := FrameQueue.empty })

/-- No callback counts a rejected gate either. -/
theorem FrameStep.gatesRejected_eq {a : Animator ρ α} {generation : UInt64}
    {outcome : Except Fault Unit × Animator ρ α} (h : FrameStep a generation outcome) :
    outcome.2.metrics.gatesRejected = a.metrics.gatesRejected := by
  have kept {active : Active} {b : Animator ρ α} (hb : a.activate = some (active, b)) :
      b.metrics.gatesRejected = a.metrics.gatesRejected := by
    rw [activate_eq hb]
  cases h with
  | ignored => rfl
  | drained => rfl
  | blocked _ hb _ => exact kept hb
  | refused _ hb _ _ => exact (kept hb :)
  | shown _ hb _ _ _ => exact (kept hb :)
  | passed _ hb _ _ _ _ => exact (kept hb :)
  | ended _ hb _ _ _ _ => exact (kept hb :)

end Animator

/-! ## Calls to a view -/

/-- What the host of a view can do: everything that can happen to the view alone, a move of its clock
by some time, a step that runs all callbacks that wait, and showing or hiding the estimates. -/
inductive HostCall where
  | move (m : ViewMove)
  | advanceClock (ns : Int)
  | step
  | showEstimates (shown : Bool)
  deriving DecidableEq

/-- A name that no gate is known by is refused as it was given. -/
theorem Gate.parse_error {name : List UInt8} {e : UnknownGate} (h : Gate.parse name = .error e) :
    e = ⟨name⟩ := by
  unfold Gate.parse at h
  split at h <;> cases h
  rfl

/-- The name that a call gives, if no gate is known by it. -/
def HostCall.unknown? : HostCall → Option (List UInt8)
  | .move (.apply name) => if (Gate.parse name).isOk then none else some name
  | _ => none

theorem HostCall.unknown?_eq_some {c : HostCall} {name : List UInt8} :
    c.unknown? = some name ↔ c = .move (.apply name) ∧ Gate.parse name = .error ⟨name⟩ := by
  constructor
  · intro h
    rcases c with (given | _ | _ | _ | _) | _ | _ | _
    case move.apply =>
      cases hp : Gate.parse given with
      | error e =>
        simp only [unknown?, hp] at h
        cases h
        exact ⟨rfl, by rw [hp, Gate.parse_error hp]⟩
      | ok g =>
        simp only [unknown?, hp] at h
        cases h
    all_goals cases h
  · rintro ⟨rfl, hp⟩
    simp only [unknown?, hp]
    rfl

theorem HostCall.parse_of_unknown?_eq_none {name : List UInt8}
    (h : unknown? (.move (.apply name)) = none) : ∃ g, Gate.parse name = .ok g := by
  cases hp : Gate.parse name with
  | error e =>
    obtain rfl := Gate.parse_error hp
    rw [unknown?_eq_some.2 ⟨rfl, hp⟩] at h
    cases h
  | ok g => exact ⟨g, rfl⟩

/-- The calls that are left without those of unknown names. -/
theorem HostCall.unknown?_of_mem (calls : List HostCall) :
    ∀ c ∈ calls.filter fun c => c.unknown?.isNone, c.unknown? = none := fun _ hc =>
  Option.isNone_iff_eq_none.1 (List.mem_filter.1 hc).2

namespace Scene

/-- The scene with more rejections reported and counted. -/
def refuse (rejections : List UnknownGate) (s : Scene ρ α) : Scene ρ α :=
  { s with view := { s.view with
    reports := s.view.reports ++ rejections
    animator := s.view.animator.refuse rejections.length } }

theorem refuse_nil (s : Scene ρ α) : s.refuse [] = s := by
  simp only [refuse, List.append_nil]
  rfl

theorem refuse_append (front back : List UnknownGate) (s : Scene ρ α) :
    s.refuse (front ++ back) = (s.refuse front).refuse back := by
  simp only [refuse, Animator.refuse, List.append_assoc, List.length_append, Nat.add_assoc]

variable [Scalar α] [Renderer ρ α]

def handle (s : Scene ρ α) : HostCall → Scene ρ α
  | .move m => s.step m
  | .advanceClock ns => { s with view := s.view.advanceClock ns }
  | .step => { s with view := s.view.step.2 }
  | .showEstimates shown => { s with view := s.view.setShowEstimates shown }

def handleAll (s : Scene ρ α) (calls : List HostCall) : Scene ρ α := calls.foldl handle s

/-- The error that a call returns because of the name it gives. -/
def error? (s : Scene ρ α) : HostCall → Option UnknownGate
  | .move (.apply name) =>
    match (s.view.apply name).1 with
    | .error e => some e
    | .ok () => none
  | _ => none

/-- All such errors of a run, in the order of its calls. -/
def errors : Scene ρ α → List HostCall → List UnknownGate
  | _, [] => []
  | s, c :: calls => (s.error? c).toList ++ (s.handle c).errors calls

omit [Renderer ρ α] in
theorem error?_eq (s : Scene ρ α) (c : HostCall) : s.error? c = c.unknown?.map UnknownGate.mk := by
  cases hu : c.unknown? with
  | some name =>
    obtain ⟨rfl, hp⟩ := HostCall.unknown?_eq_some.1 hu
    simp only [error?, View.apply, hp, Option.map_some]
  | none =>
    rcases c with (name | _ | _ | _ | _) | _ | _ | _
    case move.apply =>
      obtain ⟨g, hp⟩ := HostCall.parse_of_unknown?_eq_none hu
      simp only [error?, View.apply, hp, Option.map_none]
    all_goals rfl

/-- Which errors a run returns depends on its names alone. -/
theorem errors_eq (calls : List HostCall) : ∀ s : Scene ρ α,
    s.errors calls = (calls.filterMap HostCall.unknown?).map UnknownGate.mk := by
  induction calls with
  | nil => exact fun _ => rfl
  | cons c calls ih =>
    intro s
    rw [errors, ih, error?_eq]
    cases hu : c.unknown? with
    | none => rw [List.filterMap_cons_none hu]; rfl
    | some name => rw [List.filterMap_cons_some hu]; rfl

section Tracing

variable {σ : Type} [Renderer σ α] {φ : ρ → σ}

theorem handle_mapRenderer (h : AnswersAlike φ) (s : Scene ρ α) (c : HostCall) :
    (s.mapRenderer φ).handle c = (s.handle c).mapRenderer φ := by
  cases c with
  | move m => exact s.step_mapRenderer h m
  | advanceClock ns => rfl
  | step => exact congrArg (Scene.mk · s.batch) (s.view.operate_mapRenderer h .step)
  | showEstimates shown => rfl

theorem handleAll_mapRenderer (h : AnswersAlike φ) (calls : List HostCall) :
    ∀ s : Scene ρ α, (s.mapRenderer φ).handleAll calls = (s.handleAll calls).mapRenderer φ := by
  induction calls with
  | nil => exact fun _ => rfl
  | cons c calls ih =>
    intro s
    show ((s.mapRenderer φ).handle c).handleAll calls = ((s.handle c).handleAll calls).mapRenderer φ
    rw [handle_mapRenderer h, ih]

end Tracing

/-! ## Rejections make no difference -/

/-- A call with an unknown name reports and counts it, and that is all. -/
theorem handle_unknown {c : HostCall} {name : List UInt8} (h : c.unknown? = some name)
    (s : Scene ρ α) : s.handle c = s.refuse [⟨name⟩] := by
  obtain ⟨rfl, hp⟩ := HostCall.unknown?_eq_some.1 h
  show { s with view := (s.view.apply name).2 } = _
  rw [View.apply_unknown hp]
  rfl

theorem fire_refuse (rejections : List UnknownGate) (s : Scene ρ α) (i : Nat) :
    (s.refuse rejections).fire i = (s.fire i).refuse rejections := by
  have hb : (s.refuse rejections).batch = s.batch := rfl
  unfold fire
  rw [hb]
  cases s.batch[i]? with
  | none => rfl
  | some generation =>
    have hf : (s.refuse rejections).view.animator.frame generation = _ :=
      s.view.animator.frame_refuse rejections.length generation
    simp only [hf]
    rcases s.view.animator.frame generation with ⟨_ | _, a⟩ <;> rfl

/-- To every other call it makes no difference what was rejected before. -/
theorem handle_refuse {c : HostCall} (h : c.unknown? = none) (rejections : List UnknownGate)
    (s : Scene ρ α) : (s.refuse rejections).handle c = (s.handle c).refuse rejections := by
  rcases c with (name | _ | _ | _ | i) | ns | _ | shown
  case move.apply =>
    obtain ⟨g, hp⟩ := HostCall.parse_of_unknown?_eq_none h
    simp only [handle, step, View.apply_known hp, refuse, Animator.queue_refuse, Prod.map_snd]
  case move.reset => simp only [handle, step, View.reset, refuse, Animator.reset_refuse, Prod.map_snd]
  case move.fire => exact s.fire_refuse rejections i
  case step => simp only [handle, View.step, refuse, Animator.step_refuse]
  all_goals rfl

theorem handleAll_refuse (rejections : List UnknownGate) (calls : List HostCall) :
    ∀ s : Scene ρ α, (∀ c ∈ calls, c.unknown? = none) →
      (s.refuse rejections).handleAll calls = (s.handleAll calls).refuse rejections := by
  induction calls with
  | nil => exact fun _ _ => rfl
  | cons c calls ih =>
    intro s h
    show ((s.refuse rejections).handle c).handleAll calls = _
    rw [handle_refuse (h c List.mem_cons_self)]
    exact ih _ fun d hd => h d (List.mem_cons_of_mem c hd)

/-- A run is the run without the unknown names, with these reported and counted. -/
theorem handleAll_eq (calls : List HostCall) : ∀ s : Scene ρ α,
    s.handleAll calls = (s.handleAll (calls.filter fun c => c.unknown?.isNone)).refuse
      ((calls.filterMap HostCall.unknown?).map UnknownGate.mk) := by
  induction calls with
  | nil => exact fun s => s.refuse_nil.symm
  | cons c calls ih =>
    intro s
    show (s.handle c).handleAll calls = _
    rw [ih]
    cases hu : c.unknown? with
    | none =>
      rw [List.filterMap_cons_none hu, List.filter_cons_of_pos (by rw [hu]; rfl)]
      rfl
    | some name =>
      rw [handle_unknown hu, handleAll_refuse _ _ _ (HostCall.unknown?_of_mem calls), List.filterMap_cons_some hu,
        List.filter_cons_of_neg (by rw [hu]; nofun), ← refuse_append]
      rfl

/-! ## The account of the rejections -/

/-- The view has reported and counted these rejections and no others. -/
structure Rejected (s : Scene ρ α) (rejections : List UnknownGate) : Prop where
  reports : s.view.reports = rejections
  counted : s.view.animator.metrics.gatesRejected = rejections.length

theorem Rejected.step {s : Scene ρ α} {rejections : List UnknownGate} (h : s.Rejected rejections) :
    (s.handle .step).Rejected rejections := by
  refine ⟨h.reports, ?_⟩
  show s.view.animator.step.2.metrics.gatesRejected = _
  rw [Animator.step_snd]
  exact Animator.runBatch_induction (P := fun a => a.metrics.gatesRejected = rejections.length)
    (fun a g ha => (a.frame_step g).gatesRejected_eq.trans ha) _ _ h.counted

/-- A call adds nothing to them unless its name is unknown. -/
theorem Rejected.handle {s : Scene ρ α} {rejections : List UnknownGate} {c : HostCall}
    (h : s.Rejected rejections) (hc : c.unknown? = none) : (s.handle c).Rejected rejections := by
  rcases c with (name | _ | _ | _ | i) | ns | _ | shown
  case move.apply =>
    obtain ⟨g, hp⟩ := HostCall.parse_of_unknown?_eq_none hc
    show Rejected { s with view := (s.view.apply name).2 } rejections
    rw [View.apply_known hp, Animator.queue_eq]
    exact ⟨h.reports, h.counted⟩
  case move.reset =>
    refine ⟨h.reports, ?_⟩
    show s.view.animator.reset.2.metrics.gatesRejected = _
    rcases s.view.animator.reset_metrics with hm | hm
    · rw [hm, h.counted]
    · rw [hm]
      exact h.counted
  case move.fire =>
    show (s.fire i).Rejected rejections
    rcases s.fire_view i with hv | ⟨generation, hv⟩
    · exact ⟨by rw [hv, h.reports], by rw [hv, h.counted]⟩
    · refine ⟨by rw [hv, h.reports], ?_⟩
      rw [hv]
      exact (s.view.animator.frame_step generation).gatesRejected_eq.trans h.counted
  case step => exact h.step
  all_goals exact ⟨h.reports, h.counted⟩

theorem Rejected.handleAll (calls : List HostCall) (hc : ∀ c ∈ calls, c.unknown? = none) :
    ∀ {s : Scene ρ α} {rejections : List UnknownGate}, s.Rejected rejections →
      (s.handleAll calls).Rejected rejections := by
  induction calls with
  | nil => exact fun h => h
  | cons c calls ih =>
    intro s rejections h
    exact ih (fun d hd => hc d (List.mem_cons_of_mem c hd)) (h.handle (hc c List.mem_cons_self))

/-- Unknown names are only reported. The run without the calls that give one tells the renderer the
same and ends in the same scene, but for the reports and the number of rejected gates; and the reports
are the errors that these calls returned, one for each, which quote the names as they were given. The
run is traced, which changes nothing of it. -/
theorem unknown_names_only_reported (config : Config) (renderer : ρ) (now : Int)
    (calls : List HostCall) :
    let s : Scene (Traced ρ α) α := Scene.new config ⟨renderer, []⟩ now
    let names := calls.filterMap HostCall.unknown?
    let full := s.handleAll calls
    let rest := s.handleAll (calls.filter fun c => c.unknown?.isNone)
    full.mapRenderer Traced.renderer = (Scene.new config renderer now).handleAll calls ∧
    full.view.animator.renderer.calls = rest.view.animator.renderer.calls ∧
    full = { rest with view := { rest.view with
      reports := full.view.reports
      animator := { rest.view.animator with metrics := { rest.view.animator.metrics with
        gatesRejected := full.view.animator.metrics.gatesRejected } } } } ∧
    (full.view.reports = s.errors calls ∧ s.errors calls = names.map UnknownGate.mk ∧
      full.view.animator.metrics.gatesRejected = names.length) ∧
    (rest.view.reports = [] ∧ rest.view.animator.metrics.gatesRejected = 0) ∧
    ∀ e ∈ full.view.reports, Gate.parse e.name = .error e ∧
      e.message = "unknown gate: " ++ Text.quoted (Text.Utf8.decode e.name) := by
  intro s names full rest
  have hs : s.Rejected [] := ⟨rfl, rfl⟩
  have hrest : rest.Rejected [] := hs.handleAll _ (HostCall.unknown?_of_mem calls)
  have hfull : full = rest.refuse (names.map UnknownGate.mk) := s.handleAll_eq calls
  have hreports : full.view.reports = names.map UnknownGate.mk := by
    rw [hfull]
    show rest.view.reports ++ _ = _
    rw [hrest.reports, List.nil_append]
  have hcounted : full.view.animator.metrics.gatesRejected = names.length := by
    rw [hfull]
    show rest.view.animator.metrics.gatesRejected + _ = _
    rw [hrest.counted, List.length_map]
    exact Nat.zero_add _
  have herrors : s.errors calls = names.map UnknownGate.mk := errors_eq calls s
  refine ⟨(handleAll_mapRenderer Traced.answersAlike calls s).symm, by rw [hfull]; rfl, ?_,
    ⟨hreports.trans herrors.symm, herrors, hcounted⟩, ⟨hrest.reports, hrest.counted⟩, ?_⟩
  · rw [hfull]
    rfl
  · intro e he
    rw [hreports] at he
    obtain ⟨name, hn, rfl⟩ := List.mem_map.1 he
    obtain ⟨c, -, hc⟩ := List.mem_filterMap.1 hn
    exact ⟨(HostCall.unknown?_eq_some.1 hc).2, rfl⟩

end Scene

end BlochSphere
