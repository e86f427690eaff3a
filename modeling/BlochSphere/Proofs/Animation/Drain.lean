/-
Draining the queue. While callbacks are outstanding the animator is stepped, and then the clock moves on by
the same time. The frames that it still owes are the measure of this loop: each pending request is owed one
frame at its start, one for each move of the clock that its duration outlasts, and the one that completes it;
of the active request some of these are shown. Every round shows the first of the frames that are owed and
leaves the rest, so the number of rounds is known from the beginning.
-/
import BlochSphere.Session
import BlochSphere.Proofs.Animation.Callback
import BlochSphere.Proofs.Animation.Elapsed
import BlochSphere.Proofs.Animation.Showing
import BlochSphere.Proofs.Reset
import BlochSphere.Proofs.View
import Mathlib.Data.Rat.Floor

namespace BlochSphere

variable {ρ α : Type}

/-! ## The loop -/

namespace Animator

variable [Scalar α] [Renderer ρ α]

/-- Steps and then moves the clock by `ns`, while callbacks are outstanding and at most `limit` times. Adds
the number of times to `count`. -/
def drain (ns : Int) : (limit count : Nat) → Animator ρ α → Except Fault Nat × Animator ρ α
  | 0, count, a => (.ok count, a)
  | limit + 1, count, a =>
    if a.callbacks.pending = [] then (.ok count, a)
    else
      match a.step with
      | (.error fault, b) => (.error fault, b)
      | (.ok _, b) => drain ns limit (count + 1) (b.advanceClock ns)

section Rounds

variable {a b : Animator ρ α} {ns : Int} {limit count : Nat}

theorem drain_of_empty (h : a.callbacks.pending = []) : a.drain ns limit count = (.ok count, a) := by
  cases limit with
  | zero => rfl
  | succ limit => exact if_pos h

theorem drain_error {fault : Fault} (h : a.callbacks.pending ≠ []) (hs : a.step = (.error fault, b)) :
    a.drain ns (limit + 1) count = (.error fault, b) := by
  rw [drain, if_neg h, hs]

theorem drain_ok {n : Nat} (h : a.callbacks.pending ≠ []) (hs : a.step = (.ok n, b)) :
    a.drain ns (limit + 1) count = (b.advanceClock ns).drain ns limit (count + 1) := by
  rw [drain, if_neg h, hs]

/-- A step takes all callbacks and says how many there were, unless one of them faults. -/
theorem step_eq (a : Animator ρ α) : a.step = Prod.map (Except.map fun () => a.callbacks.pending.length) id
    (runBatch a.callbacks.pending { a with callbacks := FrameQueue.empty }) := by
  simp only [step, FrameQueue.take]
  split <;> rename_i hr <;> rw [hr] <;> rfl

theorem step_single {generation : UInt64} (h : a.callbacks.pending = [generation]) :
    a.step = Prod.map (Except.map fun () => 1) id
      (frame { a with callbacks := FrameQueue.empty } generation) := by
  rw [step_eq, h, runBatch]
  generalize frame { a with callbacks := FrameQueue.empty } generation = outcome
  obtain ⟨_ | _, b⟩ := outcome <;> rfl

/-- No callback moves the clock. -/
theorem FrameStep.now_eq {generation : UInt64} {outcome : Except Fault Unit × Animator ρ α}
    (h : FrameStep a generation outcome) : outcome.2.now = a.now := by
  have same {active : Active} {b : Animator ρ α} (hb : a.activate = some (active, b)) : b.now = a.now := by
    rw [activate_eq hb]
  cases h with
  | ignored => rfl
  | drained => rfl
  | blocked _ hb _ => exact same hb
  | refused _ hb _ _ => exact (same hb :)
  | shown _ hb _ _ _ => exact (same hb :)
  | passed _ hb _ _ _ _ => exact (same hb :)
  | ended _ hb _ _ _ _ => exact (same hb :)

theorem step_now (a : Animator ρ α) : a.step.2.now = a.now := by
  rw [step_snd]
  exact runBatch_induction (P := fun b => b.now = a.now)
    (fun b generation hb => (b.frame_step generation).now_eq.trans hb) _ _ rfl

end Rounds

section Tracing

variable {σ : Type} [Renderer σ α] {φ : ρ → σ}

theorem step_mapRenderer (h : AnswersAlike φ) (a : Animator ρ α) :
    (a.mapRenderer φ).step = Prod.map id (mapRenderer φ) a.step := by
  have hb : runBatch (a.mapRenderer φ).callbacks.pending { a.mapRenderer φ with callbacks := FrameQueue.empty } =
      Prod.map id (mapRenderer φ) (runBatch a.callbacks.pending { a with callbacks := FrameQueue.empty }) :=
    View.runBatch_mapRenderer h a.callbacks.pending { a with callbacks := FrameQueue.empty }
  rw [step_eq, step_eq, hb]
  rfl

/-- Tracing changes nothing of the loop. -/
theorem drain_mapRenderer (h : AnswersAlike φ) (ns : Int) (limit : Nat) : ∀ (count : Nat) (a : Animator ρ α),
    (a.mapRenderer φ).drain ns limit count = Prod.map id (mapRenderer φ) (a.drain ns limit count) := by
  induction limit with
  | zero => exact fun _ _ => rfl
  | succ limit ih =>
    intro count a
    by_cases hc : a.callbacks.pending = []
    · rw [drain_of_empty hc, drain_of_empty (a := a.mapRenderer φ) hc]
      rfl
    · have hm := a.step_mapRenderer h
      rcases hs : a.step with ⟨fault | n, b⟩
      · rw [hs] at hm
        rw [drain_error hc hs, drain_error (a := a.mapRenderer φ) hc hm]
        rfl
      · rw [hs] at hm
        rw [drain_ok hc hs, drain_ok (a := a.mapRenderer φ) hc hm]
        exact ih (count + 1) (b.advanceClock ns)

end Tracing

end Animator

namespace Session

variable [Scalar α] {s : Session α}

theorem step_of_stepped (h : s.stepped = true) :
    s.step = (s.animator.step.1, s.withAnimator s.animator.step.2) := by
  unfold step
  rw [if_pos h]
  rfl

omit [Scalar α] in
theorem advance_of_onWatch (h : s.onWatch = true) (ns : Int) :
    s.advance ns = { s with watch := s.watch + ns, view := s.view.setClock (s.watch + ns) } := by
  unfold advance setWatch
  exact if_pos h

/-- The loop of a session is this one, where the animation reads the watch and waits for steps. -/
theorem run_eq_drain (ns : Int) (limit : Nat) : ∀ (count : Nat) {s : Session α},
    s.stepped = true → s.onWatch = true → s.animator.now = s.watch →
      Prod.map id Session.animator (s.run ns limit count) = s.animator.drain ns limit count := by
  induction limit with
  | zero => exact fun _ _ _ _ _ => rfl
  | succ limit ih =>
    intro count s hs hw ht
    have hcallbacks : s.callbacks = s.animator.callbacks.pending.length := if_pos hs
    by_cases hc : s.animator.callbacks.pending = []
    · rw [Animator.drain_of_empty hc, run, if_pos (by rw [hcallbacks, hc]; rfl)]
      rfl
    · have hn : s.callbacks ≠ 0 := by
        rw [hcallbacks]
        exact fun h0 => hc (List.length_eq_zero_iff.1 h0)
      have hnow := s.animator.step_now
      rw [run, if_neg hn, step_of_stepped hs]
      rcases hstep : s.animator.step with ⟨fault | n, a⟩
      · rw [Animator.drain_error hc hstep]
        rfl
      · rw [hstep] at hnow
        have hclock : a.setClock (s.watch + ns) = a.advanceClock ns := by
          rw [← ht, ← show a.now = s.animator.now from hnow]
          rfl
        have hw' : (s.withAnimator a).onWatch = true := hw
        rw [Animator.drain_ok hc hstep, ← hclock]
        simp only [advance_of_onWatch hw']
        exact ih (count + 1) hs hw rfl

end Session

/-! ## What is owed -/

/-- The number of frames that show a request, with `ns` between them, while its duration lasts for the time
`left`: one now, and one after each move of the clock until the time is over. -/
def framesLeft (ns left : Int) : Nat := ⌈(left : ℚ) / ns⌉₊ + 1

theorem framesLeft_of_nonpos {ns left : Int} (hns : 0 < ns) (h : left ≤ 0) : framesLeft ns left = 1 := by
  have hq : (left : ℚ) / ns ≤ 0 := div_nonpos_of_nonpos_of_nonneg (by exact_mod_cast h) (by exact_mod_cast hns.le)
  rw [framesLeft, Nat.ceil_eq_zero.2 hq]

theorem framesLeft_of_pos {ns left : Int} (hns : 0 < ns) (h : 0 < left) :
    framesLeft ns left = framesLeft ns (left - ns) + 1 := by
  have hns : (0 : ℚ) < ns := by exact_mod_cast hns
  have hq : 0 < ⌈(left : ℚ) / ns⌉₊ := Nat.ceil_pos.2 (div_pos (by exact_mod_cast h) hns)
  have hsub : ((left - ns : ℤ) : ℚ) / ns = left / ns - 1 := by
    rw [Int.cast_sub, sub_div, div_self hns.ne']
  rw [← Int.ceil_toNat] at hq
  rw [framesLeft, framesLeft, hsub, ← Int.ceil_toNat, ← Int.ceil_toNat, Int.ceil_sub_one]
  omega

namespace Animator

/-- The requests of the frames that are still to be shown, one by one, if the clock moves by `ns` after each
of them. -/
def owed (ns : Int) (a : Animator ρ α) : List Applied :=
  (a.active.toList.flatMap fun active =>
    List.replicate (framesLeft ns (a.duration.toInt - (a.now - active.start))) active.gate) ++
  a.pending.flatMap (List.replicate (framesLeft ns a.duration.toInt))

theorem owed_of_active {ns : Int} {a : Animator ρ α} {active : Active} (h : a.active = some active) :
    a.owed ns = List.replicate (framesLeft ns (a.duration.toInt - (a.now - active.start))) active.gate ++
      a.pending.flatMap (List.replicate (framesLeft ns a.duration.toInt)) := by
  rw [owed, h, Option.toList_some, List.flatMap_singleton]

theorem owed_of_none {ns : Int} {a : Animator ρ α} (h : a.active = none) :
    a.owed ns = a.pending.flatMap (List.replicate (framesLeft ns a.duration.toInt)) := by
  rw [owed, h]
  rfl

/-- A request that becomes active now is owed what it was owed before. -/
theorem activate_owed {ns : Int} {a b : Animator ρ α} {active : Active} (h : a.activate = some (active, b)) :
    b.owed ns = a.owed ns := by
  rcases activate_cases h with ⟨_, rfl⟩ | ⟨ha, hp, hs, hb⟩
  · rfl
  · have hd : b.duration = a.duration := by rw [hb]
    have hn : b.now = a.now := by rw [hb]
    rw [owed_of_active (activate_active h), owed_of_none ha, hp, List.flatMap_cons, hd, hn, hs, sub_self, sub_zero]

theorem owed_eq_nil {ns : Int} {a : Animator ρ α} : a.owed ns = [] ↔ a.active = none ∧ a.pending = [] := by
  constructor
  · intro h
    obtain ⟨hactive, hpending⟩ := List.append_eq_nil_iff.1 h
    constructor
    · cases ha : a.active with
      | none => rfl
      | some active =>
        rw [ha] at hactive
        cases hactive
    · cases hp : a.pending with
      | nil => rfl
      | cons g rest =>
        rw [hp] at hpending
        cases hpending
  · rintro ⟨ha, hp⟩
    rw [owed_of_none ha, hp]
    rfl

/-! ## One round -/

/-- An animator between two rounds. While it has something to do its own callback is the only one, the clock
is not behind the start of the active request, and nothing stands in the way of a frame but the renderer. -/
structure Poised (a : Animator ρ α) : Prop where
  callbacks : a.callbacks.pending = if a.phase = .running then [a.generation] else []
  busy : a.phase = .running ↔ a.Busy
  lasts : 0 < a.duration.toInt
  started : ∀ active, a.active = some active → active.start ≤ a.now
  gates : ∀ g ∈ a.todo, ∃ gate : Gate, g.code = gate.code
  fits : a.engine.resolution + 1 ≤ Engine.maxKeyframes

theorem Poised.running {ns : Int} {a : Animator ρ α} (h : a.Poised) (ho : a.owed ns ≠ []) :
    a.phase = .running ∧ a.callbacks.pending = [a.generation] := by
  have hb : a.Busy := by
    by_contra hb
    obtain ⟨hp, ha⟩ := not_or.1 hb
    exact ho (owed_eq_nil.2 ⟨not_not.1 ha, not_not.1 hp⟩)
  have hp := h.busy.2 hb
  refine ⟨hp, ?_⟩
  rw [h.callbacks, if_pos hp]

/-- An animator that owes nothing has come to rest. -/
theorem Poised.rests {ns : Int} {a : Animator ρ α} (h : a.Poised) (ho : a.owed ns = []) :
    a.phase = .idle ∧ a.callbacks.pending = [] ∧ a.active = none ∧ a.pending = [] := by
  obtain ⟨ha, hp⟩ := owed_eq_nil.1 ho
  have hr : a.phase ≠ .running := by
    intro hr
    rcases h.busy.1 hr with hb | hb
    · exact hb hp
    · exact hb ha
  refine ⟨?_, ?_, ha, hp⟩
  · cases hphase : a.phase with
    | idle => rfl
    | running => exact absurd hphase hr
  · rw [h.callbacks, if_neg hr]

theorem Poised.queue {a : Animator ρ α} (h : a.Poised) (g : Gate) : (a.queue g.code).2.Poised := by
  rw [queue_eq]
  refine ⟨?_, ⟨fun _ => .inl (List.concat_ne_nil _ _), fun _ => rfl⟩, h.lasts, h.started, ?_, h.fits⟩
  · have hc := h.callbacks
    cases hp : a.phase with
    | idle =>
      rw [hp] at hc
      show a.callbacks.pending ++ [a.generation] = [a.generation]
      rw [hc]
      rfl
    | running =>
      rw [hp] at hc
      exact hc
  · intro x hx
    have hx : x ∈ a.current ++ (a.pending ++ [⟨a.seq + 1, g.code⟩]) := hx
    rw [← List.append_assoc] at hx
    rcases List.mem_append.1 hx with hx | hx
    · exact h.gates x hx
    · rw [List.mem_singleton.1 hx]
      exact ⟨g, rfl⟩

section Round

variable {a b c : Animator (Traced ρ ℝ) ℝ} {ns : Int}

theorem activate_mem {a b : Animator ρ α} {active : Active} (h : a.activate = some (active, b)) :
    active.gate ∈ a.todo := by
  rw [← activate_todo h, todo, current_of_active (activate_active h)]
  exact List.mem_cons_self

/-- One frame of the active request is off what is owed, whether it completes the request or not. -/
theorem owed_round {active : Active} {complete : Bool} (hns : 0 < ns) (ha : b.active = some active)
    (hc : complete = true ↔ b.duration.toInt ≤ b.now - active.start) (hn : c.now = b.now)
    (hd : c.duration = b.duration) (hp : c.pending = b.pending)
    (hr : c.active = if complete then none else some active) :
    b.owed ns = active.gate :: (c.advanceClock ns).owed ns := by
  have hpending : (c.advanceClock ns).pending.flatMap
      (List.replicate (framesLeft ns (c.advanceClock ns).duration.toInt)) =
        b.pending.flatMap (List.replicate (framesLeft ns b.duration.toInt)) := by
    show c.pending.flatMap (List.replicate (framesLeft ns c.duration.toInt)) = _
    rw [hp, hd]
  have hr : (c.advanceClock ns).active = if complete then none else some active := hr
  rw [owed_of_active ha]
  cases complete with
  | true =>
    have hover : b.duration.toInt - (b.now - active.start) ≤ 0 := by
      have := hc.1 rfl
      omega
    rw [owed_of_none hr, hpending, framesLeft_of_nonpos hns hover]
    rfl
  | false =>
    have hleft : 0 < b.duration.toInt - (b.now - active.start) := by
      have := mt hc.2 Bool.false_ne_true
      omega
    have hnext : (c.advanceClock ns).duration.toInt - ((c.advanceClock ns).now - active.start) =
        b.duration.toInt - (b.now - active.start) - ns := by
      show c.duration.toInt - (c.now + ns - active.start) = _
      rw [hd, hn]
      omega
    rw [owed_of_active hr, hpending, hnext, framesLeft_of_pos hns hleft]
    rfl

variable [Renderer ρ ℝ]

theorem FrameStep.pending_eq {generation : UInt64} {active : Active}
    {outcome : Except Fault Unit × Animator (Traced ρ ℝ) ℝ} (h : FrameStep a generation outcome)
    (hl : a.Live generation) (hb : a.activate = some (active, b)) : outcome.2.pending = b.pending := by
  cases h with
  | ignored hn => exact absurd hl hn
  | drained _ hn => cases hb.symm.trans hn
  | blocked _ hb' _ => cases hb.symm.trans hb'; rfl
  | refused _ hb' _ _ => cases hb.symm.trans hb'; rfl
  | shown _ hb' _ _ _ => cases hb.symm.trans hb'; rfl
  | passed _ hb' _ _ _ _ => cases hb.symm.trans hb'; rfl
  | ended _ hb' _ _ _ _ => cases hb.symm.trans hb'; rfl

/-- A callback that does not fault requests the next one, unless nothing is left to do. -/
theorem FrameStep.rearms {generation : UInt64} {outcome : Except Fault Unit × Animator (Traced ρ ℝ) ℝ}
    (h : FrameStep a generation outcome) (hl : a.Live generation) (hw : a.Busy)
    (hc : a.callbacks.pending = []) (hok : outcome.1.isOk = true) :
    (outcome.2.callbacks.pending = if outcome.2.phase = .running then [outcome.2.generation] else []) ∧
      (outcome.2.phase = .running ↔ outcome.2.Busy) := by
  rcases h.schedule hl hw with ⟨_, hp, hbusy, hcb⟩ | ⟨_, hp, hbusy, hcb⟩ | ⟨⟨fault, hf⟩, _⟩
  · rw [hcb, hc, if_pos hp, h.kept.2]
    exact ⟨rfl, fun _ => hbusy, fun _ => hp⟩
  · have hidle : outcome.2.phase ≠ .running := by
      rw [hp]
      nofun
    rw [hcb, hc, if_neg hidle]
    exact ⟨rfl, fun hr => absurd hr hidle, fun hb => absurd hb hbusy⟩
  · rw [hf] at hok
    cases hok

/-- A shot completes its request exactly when the duration is over. -/
theorem shot_complete_iff {active : Active} {s : Shot (Traced ρ ℝ) ℝ} (hs : b.shot active = .ok s)
    (hd : 0 < b.duration.toInt) (hstart : active.start ≤ b.now) :
    s.frame.complete = true ↔ b.duration.toInt ≤ b.now - active.start := by
  obtain ⟨turned, hshot⟩ := shot_spec hs
  rw [hshot.complete, decide_eq_true_iff, Scalar.real_one]
  exact one_le_progressAt hd hstart

/-- The callback of a poised animator hands over the first of the frames that are owed. If the frame is taken,
the animator is poised again once the clock has moved, and owes the rest. -/
theorem Poised.frame {g : Applied} {left : List Applied} {outcome : Except Fault Unit × Animator (Traced ρ ℝ) ℝ}
    (h : a.Poised) (hns : 0 < ns) (ho : a.owed ns = g :: left)
    (step : FrameStep { a with callbacks := FrameQueue.empty } a.generation outcome) :
    ∃ frame taken, a.Exposes outcome.2 [(frame, taken)] ∧ outcome.1.isOk = taken ∧
      (taken = true → frame.gate = g ∧ (outcome.2.advanceClock ns).Poised ∧
        (outcome.2.advanceClock ns).owed ns = left) := by
  obtain ⟨hrun, _⟩ := h.running (ho ▸ List.cons_ne_nil g left : a.owed ns ≠ [])
  have live : Live { a with callbacks := FrameQueue.empty } a.generation := ⟨rfl, hrun⟩
  have busy : Busy { a with callbacks := FrameQueue.empty } := h.busy.1 hrun
  rcases step.exposes with ⟨hn | hn, _⟩ | ⟨active, fault, hb, hs⟩ | ⟨active, b, s, taken, hb, hs, he, hok⟩
  · exact absurd live hn
  · exact absurd hn busy.activate
  · -- every request is a gate, and its path is not too long
    obtain ⟨gate, hg⟩ := h.gates _ (activate_mem hb :)
    have hlong := Engine.rotationAt_error hg (shot_error.1 hs)
    rw [activate_eq hb] at hlong
    exact absurd hlong (not_lt.2 h.fits)
  · have hba := activate_eq hb
    have hnow : b.now = a.now := by rw [hba]
    have hduration : b.duration = a.duration := by rw [hba]
    have hrenderer : b.renderer = a.renderer := by rw [hba]
    refine ⟨s.frame, taken, ?_, hok, ?_⟩
    · obtain ⟨news, hcalls, hx⟩ := he.exposes
      exact ⟨news, by rw [hcalls, hrenderer], hx⟩
    rintro rfl
    have hstart : active.start ≤ a.now := by
      rcases activate_cases hb with ⟨ha, _⟩ | ⟨_, _, hs, _⟩
      · exact h.started active ha
      · exact hs.le
    have hcomplete := shot_complete_iff hs (by rw [hduration]; exact h.lasts) (by rw [hnow]; exact hstart)
    have howed : b.owed ns = g :: left := (activate_owed hb).trans ho
    rw [owed_round hns (activate_active hb) hcomplete he.now he.duration (step.pending_eq live hb)
      he.remains] at howed
    obtain ⟨turned, hshot⟩ := shot_spec hs
    obtain ⟨hcallbacks, hbusy⟩ := step.rearms live busy rfl hok
    obtain ⟨hgate, hleft⟩ := List.cons.inj howed
    refine ⟨hshot.gate.trans hgate, ⟨hcallbacks, hbusy, ?_, ?_, ?_, ?_⟩, hleft⟩
    · show 0 < outcome.2.duration.toInt
      rw [he.duration, hduration]
      exact h.lasts
    · intro active' ha
      have ha : outcome.2.active = some active' := ha
      rw [he.remains] at ha
      split at ha <;> cases ha
      show active.start ≤ outcome.2.now + ns
      rw [he.now, hnow]
      omega
    · exact fun g hg => h.gates g (step.todo_subset hg)
    · show outcome.2.engine.resolution + 1 ≤ _
      rw [step.resolution_eq]
      exact h.fits

theorem Poised.step {g : Applied} {left : List Applied} (h : a.Poised) (hns : 0 < ns)
    (ho : a.owed ns = g :: left) :
    (∃ fault frame b, a.step = (.error fault, b) ∧ a.Exposes b [(frame, false)]) ∨
    ∃ frame b, a.step = (.ok 1, b) ∧ a.Exposes b [(frame, true)] ∧ frame.gate = g ∧
      (b.advanceClock ns).Poised ∧ (b.advanceClock ns).owed ns = left := by
  obtain ⟨_, hc⟩ := h.running (ho ▸ List.cons_ne_nil g left : a.owed ns ≠ [])
  rw [step_single hc]
  have step := frame_step { a with callbacks := FrameQueue.empty } a.generation
  generalize Animator.frame { a with callbacks := FrameQueue.empty } a.generation = outcome at step
  obtain ⟨frame, taken, he, hok, hnext⟩ := h.frame hns ho step
  obtain ⟨fault | _, b⟩ := outcome
  · obtain rfl : false = taken := hok
    exact .inl ⟨fault, frame, b, rfl, he⟩
  · obtain rfl : true = taken := hok
    exact .inr ⟨frame, b, rfl, he, hnext rfl⟩

end Round

/-! ## Frames that are refused -/

section Refusals

variable {a b c : Animator (Traced ρ α) α}

theorem Exposes.trans {front back : List (Frame α × Bool)} (hab : a.Exposes b front) (hbc : b.Exposes c back) :
    a.Exposes c (front ++ back) := by
  obtain ⟨news, hb, rfl⟩ := hab
  obtain ⟨more, hc, rfl⟩ := hbc
  exact ⟨news ++ more, by rw [hc, hb, List.append_assoc], List.filterMap_append⟩

/-- On its way from `a` to `b` the animator had no frame refused. -/
def Unrefused (a b : Animator (Traced ρ α) α) : Prop :=
  ∀ frame, Call.refused frame ∉ b.renderer.calls.drop a.renderer.calls.length

theorem Exposes.unrefused_iff {exposed : List (Frame α × Bool)} (h : a.Exposes b exposed) :
    a.Unrefused b ↔ ∀ frame, (frame, false) ∉ exposed := by
  obtain ⟨news, hb, rfl⟩ := h
  unfold Unrefused
  rw [hb, List.drop_left]
  refine forall_congr' fun frame => not_congr ?_
  rw [List.mem_filterMap]
  constructor
  · exact fun hm => ⟨_, hm, rfl⟩
  · rintro ⟨_ | _ | _ | _, hm, hx⟩ <;> cases hx
    exact hm

variable [Scalar α] [Renderer ρ α]

/-- A shot that is handed over in one more call shows what that call does. -/
theorem shot_exposes {active : Active} {s : Shot (Traced ρ α) α} {call : Call α} (hs : a.shot active = .ok s)
    (ht : b.renderer.calls = s.renderer.calls ++ [call]) : a.Exposes b call.exposed?.toList := by
  refine ⟨s.frame.newMarkers.map Call.marker ++ [call], by rw [ht, shot_calls hs, List.append_assoc], ?_⟩
  rw [List.filterMap_append, Call.exposed_markers]
  cases call <;> rfl

/-- From `a` to `b` the animator told its renderer more, and what was refused is what a renderer refuses. -/
def Tells (a b : Animator (Traced ρ α) α) : Prop :=
  ∃ exposed, a.Exposes b exposed ∧
    ∀ frame, (frame, false) ∈ exposed → ∃ (r : ρ) (fault : Fault), (Renderer.render r frame).1 = .error fault

omit [Scalar α] in
theorem Tells.of_renderer (h : b.renderer = a.renderer) : a.Tells b := ⟨[], .of_renderer h, nofun⟩

omit [Scalar α] in
theorem Tells.trans (hab : a.Tells b) (hbc : b.Tells c) : a.Tells c := by
  obtain ⟨front, hab, hf⟩ := hab
  obtain ⟨back, hbc, hb⟩ := hbc
  refine ⟨front ++ back, hab.trans hbc, fun frame hm => ?_⟩
  rcases List.mem_append.1 hm with hm | hm
  · exact hf frame hm
  · exact hb frame hm

theorem FrameStep.tells {generation : UInt64} {outcome : Except Fault Unit × Animator (Traced ρ α) α}
    (h : FrameStep a generation outcome) : a.Tells outcome.2 := by
  rcases h.hands with ⟨_, hr⟩ | ⟨active, b, s, fault | _, t, hb, hs, hrender, _, hr⟩
  · exact .of_renderer hr
  · have hinner := Traced.answersAlike.render s.renderer s.frame
    rw [hrender] at hinner
    refine Tells.trans (b := b) (.of_renderer (by rw [activate_eq hb]))
      ⟨_, shot_exposes hs (by rw [hr, Traced.render_error hrender]), ?_⟩
    intro frame hm
    cases List.mem_singleton.1 hm
    exact ⟨s.renderer.renderer, fault, by rw [hinner]; rfl⟩
  · refine Tells.trans (b := b) (.of_renderer (by rw [activate_eq hb]))
      ⟨_, shot_exposes hs (by rw [hr, Traced.render_ok hrender]), ?_⟩
    intro frame hm
    cases List.mem_singleton.1 hm

theorem step_tells (a : Animator (Traced ρ α) α) : a.Tells a.step.2 := by
  rw [step_snd]
  exact runBatch_induction (P := a.Tells) (fun b generation hb => hb.trans (b.frame_step generation).tells) _ _
    (.of_renderer rfl)

theorem drain_tells (ns : Int) (limit : Nat) : ∀ (count : Nat) (a : Animator (Traced ρ α) α),
    a.Tells (a.drain ns limit count).2 := by
  induction limit with
  | zero => exact fun _ _ => .of_renderer rfl
  | succ limit ih =>
    intro count a
    by_cases hc : a.callbacks.pending = []
    · rw [drain_of_empty hc]
      exact .of_renderer rfl
    · have htold := a.step_tells
      rcases hs : a.step with ⟨fault | n, b⟩
      · rw [hs] at htold
        rw [drain_error hc hs]
        exact htold
      · rw [hs] at htold
        rw [drain_ok hc hs]
        exact (htold.trans (.of_renderer rfl)).trans (ih (count + 1) (b.advanceClock ns))

/-- A renderer that takes every frame refuses none of a loop. -/
theorem drain_unrefused (h : ∀ (r : ρ) (frame : Frame α), (Renderer.render r frame).1 = .ok ()) (ns : Int)
    (limit count : Nat) (a : Animator (Traced ρ α) α) : a.Unrefused (a.drain ns limit count).2 := by
  obtain ⟨exposed, he, hrefused⟩ := drain_tells ns limit count a
  rw [he.unrefused_iff]
  intro frame hm
  obtain ⟨r, fault, hf⟩ := hrefused frame hm
  cases (h r frame).symm.trans hf

end Refusals

/-! ## The whole loop -/

variable [Renderer ρ ℝ]

/-- As long as no frame is refused, each round of the loop shows the first of the frames that are owed. -/
theorem Poised.drain {ns : Int} (hns : 0 < ns) (left : List Applied) :
    ∀ {a : Animator (Traced ρ ℝ) ℝ} {count : Nat}, a.Poised → a.owed ns = left →
      a.Unrefused (a.drain ns left.length count).2 →
      ∃ published : List (Frame ℝ), published.map Frame.gate = left ∧ ∀ limit, ∃ b,
        a.drain ns limit count = (.ok (count + min limit left.length), b) ∧
        a.Exposes b ((published.take limit).map fun frame => (frame, true)) ∧
        b.Poised ∧ b.owed ns = left.drop limit := by
  induction left with
  | nil =>
    intro a count h ho _
    refine ⟨[], rfl, fun limit => ⟨a, ?_, ?_, h, by rw [ho, List.drop_nil]⟩⟩
    · rw [drain_of_empty (h.rests ho).2.1, List.length_nil, Nat.min_zero, Nat.add_zero]
    · rw [List.take_nil]
      exact .of_renderer rfl
  | cons g left ih =>
    intro a count h ho hr
    have hc : a.callbacks.pending ≠ [] := by
      rw [(h.running (ho ▸ List.cons_ne_nil g left : a.owed ns ≠ [])).2]
      nofun
    rcases h.step hns ho with ⟨fault, frame, b, hs, he⟩ | ⟨frame, b, hs, he, hg, hnext, howed⟩
    · rw [List.length_cons, drain_error hc hs, he.unrefused_iff] at hr
      exact absurd List.mem_cons_self (hr frame)
    · have he : a.Exposes (b.advanceClock ns) [(frame, true)] := he
      rw [List.length_cons, drain_ok hc hs] at hr
      -- what is refused after this round is refused in the whole loop
      have hrest : (b.advanceClock ns).Unrefused ((b.advanceClock ns).drain ns left.length (count + 1)).2 := by
        obtain ⟨exposed, hrest, _⟩ := drain_tells ns left.length (count + 1) (b.advanceClock ns)
        rw [(he.trans hrest).unrefused_iff] at hr
        rw [hrest.unrefused_iff]
        exact fun f hm => hr f (List.mem_append_right _ hm)
      obtain ⟨published, hgates, hloop⟩ := ih hnext howed hrest
      refine ⟨frame :: published, by rw [List.map_cons, hg, hgates], fun limit => ?_⟩
      cases limit with
      | zero => exact ⟨a, by rw [Nat.zero_min]; rfl, .of_renderer rfl, h, ho⟩
      | succ limit =>
        obtain ⟨c, hdrain, hexposes, hpoised, hleft⟩ := hloop limit
        refine ⟨c, ?_, he.trans hexposes, hpoised, hleft⟩
        rw [drain_ok hc hs, hdrain, List.length_cons, Nat.add_min_add_right, Nat.add_assoc, Nat.add_comm 1]

end Animator

/-! ## Draining a queue -/

namespace Stage

/-- Requests are put behind each other, and a poised animator stays poised. -/
theorem run_queue (gates : List Gate) : ∀ {s : Stage (Traced ρ ℝ) ℝ} [Renderer ρ ℝ], s.animator.Poised →
    let a := (s.run (gates.map Move.queue)).animator
    a.Poised ∧ a.active = s.animator.active ∧ a.duration = s.animator.duration ∧
      a.pending.map Applied.code = s.animator.pending.map Applied.code ++ gates.map Gate.code := by
  induction gates with
  | nil => exact fun h => ⟨h, rfl, rfl, (List.append_nil _).symm⟩
  | cons g gates ih =>
    intro s _ h
    obtain ⟨hp, ha, hd, hpending⟩ := ih (s := s.queue g) (h.queue g)
    have hq : (s.queue g).animator = (s.animator.queue g.code).2 := rfl
    rw [hq, Animator.queue_active] at ha
    rw [hq, Animator.queue_eq] at hd
    rw [hq, Animator.queue_pending, List.map_append, List.append_assoc] at hpending
    exact ⟨hp, ha, hd, hpending⟩

/-- An animator that idles without a callback can be given requests, if the path of a gate is not too long. -/
theorem poised_of_idle {s : Stage (Traced ρ ℝ) ℝ} {steps : Nat} (he : s.Explained steps)
    (hrests : s.animator.phase = .idle → s.animator.todo = []) (hd : 0 < s.animator.duration.toInt)
    (hfits : steps + 1 ≤ Engine.maxKeyframes) (hidle : s.animator.phase = .idle) (hout : s.outstanding = []) :
    s.animator.Poised ∧ s.animator.active = none ∧ s.animator.pending = [] := by
  obtain ⟨hcurrent, hpending⟩ := List.append_eq_nil_iff.1 (hrests hidle)
  have hactive : s.animator.active = none := by
    cases ha : s.animator.active with
    | none => rfl
    | some active =>
      rw [Animator.current_of_active ha] at hcurrent
      cases hcurrent
  refine ⟨⟨?_, ?_, hd, ?_, he.gates, by rw [he.resolution]; exact hfits⟩, hactive, hpending⟩
  · rw [hidle, (List.append_eq_nil_iff.1 hout).2]
    rfl
  · rw [hidle]
    refine ⟨nofun, fun hb => ?_⟩
    rcases hb with hb | hb
    · exact absurd hpending hb
    · exact absurd hactive hb
  · rw [hactive]
    nofun

variable [Renderer ρ ℝ]

/-- An animator that idles has nothing to do, and its duration is the one it was given. -/
theorem run_rests (duration : Duration) (resolution : Int) (renderer : ρ) (now : Int) (moves : List Move) :
    let s : Stage (Traced ρ ℝ) ℝ := (Stage.new duration resolution ⟨renderer, []⟩ now).run moves
    (s.animator.phase = .idle → s.animator.todo = []) ∧ s.animator.duration = duration := by
  refine run_induction
    (P := fun s => (s.animator.phase = .idle → s.animator.todo = []) ∧ s.animator.duration = duration)
    (fun s m h => ?_) moves _ ⟨fun _ => rfl, rfl⟩
  cases m with
  | queue g =>
    show ((s.animator.queue g.code).2.phase = .idle → _) ∧ (s.animator.queue g.code).2.duration = _
    rw [Animator.queue_eq]
    exact ⟨nofun, h.2⟩
  | reset =>
    obtain ⟨metrics, hr⟩ := s.animator.reset_snd
    show (s.animator.reset.2.phase = .idle → s.animator.reset.2.todo = []) ∧ s.animator.reset.2.duration = _
    rw [hr]
    exact ⟨fun _ => rfl, h.2⟩
  | clock now => exact h
  | take => exact h
  | fire i =>
    show ((s.fire i).animator.phase = .idle → (s.fire i).animator.todo = []) ∧ (s.fire i).animator.duration = _
    rcases s.fire_animator i with ha | ⟨generation, ha⟩
    · rw [ha]
      exact h
    · rw [ha]
      have step := s.animator.frame_step generation
      exact ⟨step.rests h.1, step.duration_eq.trans h.2⟩

/-- A queue is drained in a known number of rounds. However the animator came to idle, gates that are queued
then are shown one after the other, each in one more frame than the clock has to move to get over its
duration, and each step shows one frame. When all are shown the loop stops, and the animator idles with
nothing left to do. That holds unless a path is too long or a frame is refused. The loop is traced, which
changes nothing of it. -/
theorem drains_in_known_rounds (duration : Duration) (hd : 0 < duration) (resolution : Int) (renderer : ρ)
    (now : Int) (moves : List Move) (gates : List Gate) (ns : Int) (hns : 0 < ns)
    (hfits : (Engine.new resolution : Engine ℝ).resolution + 1 ≤ Engine.maxKeyframes) :
    let s : Stage (Traced ρ ℝ) ℝ := (Stage.new duration resolution ⟨renderer, []⟩ now).run moves
    let a := (s.run (gates.map Move.queue)).animator
    let untraced := (((Stage.new duration resolution renderer now).run moves).run (gates.map Move.queue)).animator
    let perGate := ⌈(duration.toInt : ℚ) / ns⌉₊ + 1
    let rounds := gates.length * perGate
    s.animator.phase = .idle → s.outstanding = [] → a.Unrefused (a.drain ns rounds 0).2 →
    a.pending.map Applied.code = gates.map Gate.code ∧
    ∃ published : List (Frame ℝ),
      published.length = rounds ∧ published.map Frame.gate = a.pending.flatMap (List.replicate perGate) ∧
      ∀ limit, ∃ b,
        a.drain ns limit 0 = (.ok (min limit rounds), b) ∧
        untraced.drain ns limit 0 = (.ok (min limit rounds), b.mapRenderer Traced.renderer) ∧
        a.Exposes b ((published.take limit).map fun frame => (frame, true)) ∧
        (b.callbacks.pending = [] ↔ rounds ≤ limit) ∧
        (rounds ≤ limit → b.phase = .idle ∧ b.active = none ∧ b.pending = []) := by
  intro s a untraced perGate rounds hidle hout hr
  obtain ⟨hrests, hduration⟩ := run_rests duration resolution renderer now moves
  have he : s.Explained (Engine.new resolution : Engine ℝ).resolution :=
    run_induction Explained.step moves _ (.new duration resolution renderer now)
  have hlasts : 0 < s.animator.duration.toInt := by
    rw [hduration]
    exact Int64.lt_iff_toInt_lt.1 hd
  obtain ⟨poised, hactive, hpending⟩ := poised_of_idle he hrests hlasts hfits hidle hout
  obtain ⟨hp, ha, hd', hcodes⟩ := run_queue gates poised
  rw [hpending, List.map_nil, List.nil_append] at hcodes
  have howed : a.owed ns = a.pending.flatMap (List.replicate perGate) := by
    rw [Animator.owed_of_none (ha.trans hactive), hd', hduration]
    rfl
  have hlength : (a.pending.flatMap (List.replicate perGate)).length = rounds := by
    have hn : a.pending.length = gates.length := by
      rw [← List.length_map (f := Applied.code), hcodes, List.length_map]
    simp [List.length_flatMap, hn, rounds]
  have htraced : untraced = a.mapRenderer Traced.renderer := by
    have hs := run_mapRenderer Traced.answersAlike moves
      (Stage.new duration resolution ⟨renderer, []⟩ now : Stage (Traced ρ ℝ) ℝ)
    have hq := run_mapRenderer Traced.answersAlike (gates.map Move.queue) s
    rw [← hs] at hq
    exact congrArg Stage.animator hq
  rw [← hlength] at hr
  obtain ⟨published, hgates, hloop⟩ := hp.drain hns _ howed hr
  refine ⟨hcodes, published, by rw [← hlength, ← hgates, List.length_map], hgates, fun limit => ?_⟩
  obtain ⟨b, hdrain, hexposes, hb, hleft⟩ := hloop limit
  rw [hlength, Nat.zero_add] at hdrain
  have hrest (hl : rounds ≤ limit) := hb.rests (hleft.trans (List.drop_eq_nil_of_le (by rw [hlength]; exact hl)))
  refine ⟨b, hdrain, ?_, hexposes, ⟨fun hc => ?_, fun hl => (hrest hl).2.1⟩, fun hl => ?_⟩
  · rw [htraced, Animator.drain_mapRenderer Traced.answersAlike, hdrain]
    rfl
  · by_contra hl
    have hmore : b.owed ns ≠ [] := by
      rw [hleft, Ne, List.drop_eq_nil_iff, hlength]
      exact hl
    rw [(hb.running hmore).2] at hc
    cases hc
  · obtain ⟨hphase, _, hactive, hpending⟩ := hrest hl
    exact ⟨hphase, hactive, hpending⟩

/-- Two gates of a second each, with 300 milliseconds between the frames, take ten rounds of a session. -/
theorem drains_in_known_rounds_of_session :
    let config : Config := { Config.default with rotationDuration := 1000000000 }
    let idle : Session ℝ := Session.new config (.discard Discard.new) true true
    let s := ((idle.queue Gate.x.code).2.queue Gate.h.code).2
    (s.run 300000000 1000 0).1 = .ok 10 ∧ (s.run 300000000 1000 0).2.animator.phase = .idle ∧
      (s.run 300000000 9 0).1 = .ok 9 := by
  intro config idle s
  have hceil : ⌈(((1000000000 : Duration).toInt : ℤ) : ℚ) / (300000000 : ℤ)⌉₊ = 4 := by
    rw [show (1000000000 : Duration).toInt = 1000000000 from rfl, Nat.ceil_eq_iff (by decide)]
    norm_num
  obtain ⟨_, published, _, _, hloop⟩ := drains_in_known_rounds 1000000000 (by decide) 64
    (Discard.new : Discard ℝ) 0 [] [.x, .h] 300000000 (by decide) (by decide) rfl rfl
    (Animator.drain_unrefused (fun _ _ => rfl) _ _ _ _)
  rw [hceil] at hloop
  -- the session has the same animator, with its renderer as a surface
  have halike : AnswersAlike (Surface.discard : Discard ℝ → Surface ℝ) :=
    ⟨fun _ _ => rfl, fun _ _ => rfl, fun _ => rfl⟩
  let queued : Animator (Discard ℝ) ℝ :=
    ((Stage.new 1000000000 64 Discard.new 0).run ([.x, .h].map Move.queue)).animator
  have hrun {limit n : Nat} {b : Animator (Discard ℝ) ℝ} (hb : queued.drain 300000000 limit 0 = (.ok n, b)) :
      (s.run 300000000 limit 0).1 = .ok n ∧ (s.run 300000000 limit 0).2.animator.phase = b.phase := by
    have hs : Prod.map id Session.animator (s.run 300000000 limit 0) =
        (queued.mapRenderer Surface.discard).drain 300000000 limit 0 := Session.run_eq_drain _ _ _ rfl rfl rfl
    rw [Animator.drain_mapRenderer halike, hb] at hs
    obtain ⟨hresult, hanimator⟩ := Prod.ext_iff.1 hs
    rw [Prod.map_snd] at hanimator
    exact ⟨hresult, congrArg Animator.phase hanimator⟩
  obtain ⟨b, _, hlong, _, _, hend⟩ := hloop 1000
  obtain ⟨c, _, hshort, _⟩ := hloop 9
  obtain ⟨hten, hphase⟩ := hrun hlong
  exact ⟨hten, hphase.trans (hend (by decide)).1, (hrun hshort).1⟩

/-- A fault ends the loop in its first round, with the gate still active: a path that is too long, although
the renderer takes every frame, or a frame that is refused by a broadcaster whose only channel was closed by a
subscription that failed. -/
theorem fault_ends_drain :
    (let config : Config := { Config.default with rotationDuration := 1000000000, pathResolution := 4000000000000 }
      let s : Session ℝ := ((Session.new config (.discard Discard.new) true true).queue Gate.x.code).2
      (s.run 100000000 1000 0).1 = .error .pathTooLong ∧ (s.run 100000000 1000 0).2.animator.active ≠ none) ∧
    (let channel : Broadcaster Float := (Broadcaster.new.subscribe "a" 4 none).2
      let closed : Broadcaster Float := (channel.subscribe "a" (-1) none).2
      let config : Config := { Config.default with rotationDuration := 1000000000, pathResolution := 2 }
      let s : Session Float := ((Session.new config (.broadcast closed) true true).queue Gate.x.code).2
      (s.run 100000000 1000 0).1.isOk = false ∧ (s.run 100000000 1000 0).2.animator.active ≠ none) := by
  refine ⟨⟨rfl, nofun⟩, ?_⟩
  decide +kernel

end Stage

end BlochSphere
