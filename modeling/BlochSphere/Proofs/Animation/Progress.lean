/-
Progress follows the clock. In exact arithmetic, and on a clock that never goes back, a frame shows the
eased share of its request's duration that has passed since the request became active: zero in the first
frame, one from the end of the duration on. The frame that completes the request is the first one of
that time, so no request is completed before its duration is over.
-/
import BlochSphere.Proofs.Animation.Elapsed
import BlochSphere.Proofs.Animation.Callback
import BlochSphere.Proofs.Animation.Showing

namespace BlochSphere

/-! ## One showing -/

namespace Showing

/-- The exposures of a showing, as the clock stands at `now`: each is at its time, in the order of time
from the beginning of the showing on, and only the last one can complete the request. -/
structure Proper (d : Duration) (now : Int) (sh : Showing ℝ) : Prop where
  gate : ∀ k ∈ sh.exposures, k.frame.gate = sh.gate
  progress : ∀ k ∈ sh.exposures,
    k.frame.progress = Animator.progressAt (Duration.between sh.start k.time) d
  complete : ∀ k ∈ sh.exposures, k.frame.complete = decide (1 ≤ k.frame.progress)
  ordered : (sh.start :: sh.exposures.map Exposure.time).Pairwise (· ≤ ·)
  past : ∀ u ∈ sh.start :: sh.exposures.map Exposure.time, u ≤ now
  first : ∀ k ∈ sh.exposures.head?, k.time = sh.start
  last : ∀ k ∈ sh.exposures.dropLast, k.finishes = false

theorem Proper.later {d : Duration} {now now' : Int} {sh : Showing ℝ} (h : sh.Proper d now)
    (hn : now ≤ now') : sh.Proper d now' :=
  ⟨h.gate, h.progress, h.complete, h.ordered, fun u hu => (h.past u hu).trans hn, h.first, h.last⟩

theorem Proper.begin (d : Duration) (gate : Applied) (now : Int) :
    Proper d now ⟨gate, now, []⟩ :=
  ⟨nofun, nofun, nofun, List.pairwise_singleton _ _,
    fun _ hu => (List.mem_singleton.1 hu).le, nofun, nofun⟩

/-- One more exposure, at the present time. -/
theorem Proper.expose {d : Duration} {now : Int} {sh : Showing ℝ} {k : Exposure ℝ}
    (h : sh.Proper d now) (hg : k.frame.gate = sh.gate) (ht : k.time = now)
    (hp : k.frame.progress = Animator.progressAt (Duration.between sh.start now) d)
    (hc : k.frame.complete = decide (1 ≤ k.frame.progress))
    (hf : sh.exposures = [] → sh.start = now) (hu : ∀ e ∈ sh.exposures, e.finishes = false) :
    (sh.expose [k]).Proper d now := by
  have each {P : Exposure ℝ → Prop} (hs : ∀ e ∈ sh.exposures, P e) (hk : P k) :
      ∀ e ∈ sh.exposures ++ [k], P e := by
    intro e he
    rcases List.mem_append.1 he with he | he
    · exact hs e he
    · exact List.mem_singleton.1 he ▸ hk
  have times : sh.start :: (sh.exposures ++ [k]).map Exposure.time =
      (sh.start :: sh.exposures.map Exposure.time) ++ [now] := by
    rw [List.map_append, ← ht]
    rfl
  refine ⟨each h.gate hg, each h.progress (ht ▸ hp), each h.complete hc, ?_, ?_, ?_, ?_⟩
  · show (sh.start :: (sh.exposures ++ [k]).map Exposure.time).Pairwise (· ≤ ·)
    rw [times, List.pairwise_append]
    refine ⟨h.ordered, List.pairwise_singleton _ _, fun u hu v hv => ?_⟩
    rw [List.mem_singleton.1 hv]
    exact h.past u hu
  · show ∀ u ∈ sh.start :: (sh.exposures ++ [k]).map Exposure.time, u ≤ now
    rw [times]
    intro u hu
    rcases List.mem_append.1 hu with hu | hu
    · exact h.past u hu
    · exact (List.mem_singleton.1 hu).le
  · show ∀ e ∈ (sh.exposures ++ [k]).head?, e.time = sh.start
    intro e he
    cases hx : sh.exposures with
    | nil =>
      rw [hx] at he
      cases he
      exact ht.trans (hf hx).symm
    | cons first rest =>
      rw [hx] at he
      cases he
      exact h.first _ (by rw [hx]; rfl)
  · show ∀ e ∈ (sh.exposures ++ [k]).dropLast, e.finishes = false
    rw [List.dropLast_concat]
    exact hu

end Showing

/-! ## All showings of a run -/

variable {ρ : Type} {d : Duration} {a b : Animator (Traced ρ ℝ) ℝ} {showings : List (Showing ℝ)}

/-- The showings are a true record of what the animator showed. The last one is of the active request,
if there is one, and has not completed it. -/
structure Recorded (d : Duration) (a : Animator (Traced ρ ℝ) ℝ) (showings : List (Showing ℝ)) : Prop where
  duration : a.duration = d
  proper : ∀ sh ∈ showings, sh.Proper d a.now
  current : ∀ active, a.active = some active → ∃ front sh, showings = front ++ [sh] ∧
    sh.gate = active.gate ∧ sh.start = active.start ∧ ∀ k ∈ sh.exposures, k.finishes = false
  exposed : a.renderer.calls.filterMap Call.exposed? =
    showings.flatMap fun sh => sh.exposures.map fun k => (k.frame, k.taken)
  timing : a.metrics.timing =
    (showings.flatMap Showing.durations).foldl Metrics.recordCompleted Metrics.new

/-- What neither shows a frame nor activates a request leaves the record as it is. -/
theorem Recorded.quiet (h : Recorded d a showings) (he : a.Exposes b []) (hd : b.duration = a.duration)
    (hn : a.now ≤ b.now) (ha : ∀ active, b.active = some active → a.active = some active)
    (ht : b.metrics.timing = a.metrics.timing) : Recorded d b showings := by
  obtain ⟨news, hc, hx⟩ := he
  refine ⟨hd.trans h.duration, fun sh hs => (h.proper sh hs).later hn,
    fun active hb => h.current active (ha active hb), ?_, ht.trans h.timing⟩
  rw [hc, List.filterMap_append, hx, List.append_nil]
  exact h.exposed

theorem Recorded.activate {active : Active} (h : Recorded d a showings)
    (hb : a.activate = some (active, b)) : Recorded d b (showings ++ Showing.begun a b) := by
  rcases Animator.activate_cases hb with ⟨ha, rfl⟩ | ⟨ha, _, hs, hb'⟩
  · rw [Showing.begun_of_active ha, List.append_nil]
    exact h
  · rw [Showing.begun_eq ha (Animator.activate_active hb)]
    have hnow : b.now = a.now := by rw [hb']
    refine ⟨?_, ?_, ?_, ?_, ?_⟩
    · rw [hb']
      exact h.duration
    · intro sh hm
      rw [hnow]
      rcases List.mem_append.1 hm with hm | hm
      · exact h.proper sh hm
      · rw [List.mem_singleton.1 hm]
        exact .begin d active.gate a.now
    · intro active' ha'
      rw [Animator.activate_active hb] at ha'
      cases ha'
      exact ⟨showings, _, rfl, rfl, hs.symm, nofun⟩
    · rw [hb', List.flatMap_append]
      exact h.exposed.trans (List.append_nil _).symm
    · rw [hb', List.flatMap_append]
      exact h.timing.trans (congrArg (List.foldl _ _) (List.append_nil _).symm)

/-- One more frame of the active request was handed to the renderer. -/
theorem Recorded.expose {front : List (Showing ℝ)} {sh : Showing ℝ} {active : Active}
    {s : Shot (Traced ρ ℝ) ℝ} {taken : Bool} [Renderer ρ ℝ] (h : Recorded d a (front ++ [sh]))
    (hs : a.shot active = .ok s) (he : a.Exposed active s.frame taken b)
    (hg : sh.gate = active.gate) (hstart : sh.start = active.start)
    (hu : ∀ k ∈ sh.exposures, k.finishes = false) (hf : sh.exposures = [] → sh.start = a.now) :
    Recorded d b (front ++ [sh.expose [⟨a.now, s.frame, taken⟩]]) := by
  obtain ⟨turned, hshot⟩ := Animator.shot_spec hs
  obtain ⟨news, hc, hx⟩ := he.exposes
  have hp : s.frame.progress = Animator.progressAt (Duration.between sh.start a.now) d := by
    rw [hshot.progress, hstart, ← h.duration]
    rfl
  have hcomplete : s.frame.complete = decide (1 ≤ s.frame.progress) := by
    rw [hshot.complete, hshot.progress, decide_eq_decide, Scalar.real_one]
  refine ⟨he.duration.trans h.duration, ?_, ?_, ?_, ?_⟩
  · intro sh' hm
    rw [he.now]
    rcases List.mem_append.1 hm with hm | hm
    · exact h.proper sh' (List.mem_append_left _ hm)
    · rw [List.mem_singleton.1 hm]
      exact (h.proper sh (List.mem_append_right _ List.mem_cons_self)).expose
        (hshot.gate.trans hg.symm) rfl hp hcomplete hf hu
  · intro active' ha'
    rw [he.remains] at ha'
    split at ha'
    · cases ha'
    · rename_i hk
      cases ha'
      refine ⟨front, _, rfl, hg, hstart, fun k hm => ?_⟩
      rcases List.mem_append.1 hm with hm | hm
      · exact hu k hm
      · rw [List.mem_singleton.1 hm]
        exact Bool.eq_false_iff.2 hk
  · rw [hc, List.filterMap_append, h.exposed, hx]
    simp [Showing.expose]
  · have hk : Exposure.finishes ⟨a.now, s.frame, taken⟩ = (taken && s.frame.complete) := rfl
    rw [he.timing, h.timing, List.flatMap_append, List.flatMap_append, List.flatMap_singleton,
      List.flatMap_singleton, Showing.durations_expose, hk, hstart, ← List.append_assoc]
    split
    · exact (List.foldl_concat _ _ _ _).symm
    · rw [List.append_nil]

/-- A request that is active and has not been shown never will be: there is no path for it. -/
structure Projected (d : Duration) (a : Animator (Traced ρ ℝ) ℝ) (showings : List (Showing ℝ)) : Prop
    extends Recorded d a showings where
  blocked : ∀ active, a.active = some active → ∀ sh ∈ showings.getLast?, sh.exposures = [] →
    ∃ fault, a.engine.pathFor active.gate = .error fault

theorem Projected.quiet (h : Projected d a showings) (he : a.Exposes b []) (hd : b.duration = a.duration)
    (hn : a.now ≤ b.now)
    (ha : ∀ active, b.active = some active → a.active = some active ∧ b.engine = a.engine)
    (ht : b.metrics.timing = a.metrics.timing) : Projected d b (Showing.watch a b showings) := by
  have idle : a.active = none → b.active = none := by
    intro hnone
    cases hb : b.active with
    | none => rfl
    | some active => exact nomatch hnone.symm.trans (ha active hb).1
  rw [he.watch_nil idle]
  refine ⟨h.toRecorded.quiet he hd hn (fun active hb => (ha active hb).1) ht, fun active hb => ?_⟩
  rw [(ha active hb).2]
  exact h.blocked active (ha active hb).1

theorem Projected.queue (h : Projected d a showings) (code : GateCode) :
    Projected d (a.queue code).2 (Showing.watch a (a.queue code).2 showings) := by
  have hq := a.queue_eq code
  refine h.quiet (.of_renderer (a.queue_renderer code)) (by rw [hq]) (by rw [hq]) ?_ (by rw [hq]; rfl)
  rw [hq]
  exact fun _ ha => ⟨ha, rfl⟩

variable [Renderer ρ ℝ]

theorem Projected.reset (h : Projected d a showings) :
    Projected d a.reset.2 (Showing.watch a a.reset.2 showings) := by
  obtain ⟨metrics, hr⟩ := a.reset_snd
  have hnone : a.reset.2.active = none := by rw [hr]
  refine h.quiet (.reset a) (by rw [hr]) (by rw [hr]) (fun _ ha => nomatch hnone.symm.trans ha) ?_
  rcases a.reset_metrics with hm | hm <;> rw [hm]
  rfl

/-- A frame is added to the last showing, which begins with it if no request was active. -/
theorem Projected.shoot {active : Active} {s : Shot (Traced ρ ℝ) ℝ} {taken : Bool}
    {c : Animator (Traced ρ ℝ) ℝ} (h : Projected d a showings) (hpos : 0 < d.toInt)
    (hb : a.activate = some (active, b)) (hs : b.shot active = .ok s)
    (he : b.Exposed active s.frame taken c) : ∃ front sh, showings ++ Showing.begun a b = front ++ [sh] ∧
      Showing.watch a c showings = front ++ [sh.expose [⟨a.now, s.frame, taken⟩]] ∧
      Recorded d c (front ++ [sh.expose [⟨a.now, s.frame, taken⟩]]) := by
  have hr := h.toRecorded.activate hb
  obtain ⟨front, sh, hlast, hg, hstart, hu⟩ := hr.current active (Animator.activate_active hb)
  obtain ⟨turned, hshot⟩ := Animator.shot_spec hs
  have hnow : b.now = a.now := by rw [Animator.activate_eq hb]
  have hcalls : a.Exposes c [(s.frame, taken)] := by
    obtain ⟨news, hc, hx⟩ := he.exposes
    rw [Animator.activate_eq hb] at hc
    exact ⟨news, hc, hx⟩
  have first : (Showing.begun a c : List (Showing ℝ)) = Showing.begun a b ∧
      (sh.exposures = [] → sh.start = b.now) := by
    rcases Animator.activate_cases hb with ⟨ha, rfl⟩ | ⟨ha, _, hs0, hb'⟩
    · rw [Showing.begun_of_active ha, Showing.begun_of_active ha]
      refine ⟨rfl, fun hx => ?_⟩
      -- without a path there is no shot
      rw [Showing.begun_of_active ha, List.append_nil] at hlast
      obtain ⟨fault, hp⟩ := h.blocked active ha sh (by rw [hlast]; exact List.getLast?_concat) hx
      have hro := hshot.rotation
      rw [Engine.rotationAt_eq_error.2 hp] at hro
      cases hro
    · -- the first frame never completes its request
      have hzero : b.progress active = 0 := by
        show Animator.progressAt (Duration.between active.start b.now) b.duration = 0
        rw [hs0, hnow, hr.duration, Animator.progressAt_start hpos]
      have hincomplete : s.frame.complete = false := by
        rw [hshot.complete, hzero, Scalar.real_one]
        exact decide_eq_false zero_lt_one.not_ge
      have hc : c.active = some active := by
        rw [he.remains, hincomplete, Bool.and_false]
        rfl
      refine ⟨?_, fun _ => ?_⟩
      · rw [Showing.begun_eq ha hc, Showing.begun_eq ha (Animator.activate_active hb)]
      · rw [hstart, hs0, hnow]
  rw [hlast] at hr
  refine ⟨front, sh, hlast, ?_, hnow ▸ hr.expose hs he hg hstart hu first.2⟩
  rw [hcalls.watch, first.1, hlast, Showing.exposeLast_concat]
  rfl

theorem Projected.frame {generation : UInt64} {outcome : Except Fault Unit × Animator (Traced ρ ℝ) ℝ}
    (h : Projected d a showings) (hpos : 0 < d.toInt) (step : a.FrameStep generation outcome) :
    Projected d outcome.2 (Showing.watch a outcome.2 showings) := by
  rcases step.exposes with ⟨_, phase, ho⟩ | ⟨active, fault, hb, hs⟩ | ⟨active, b, s, taken, hb, hs, he, _⟩
  · rw [ho]
    exact h.quiet (.of_renderer rfl) rfl le_rfl (fun active hb => ⟨hb, rfl⟩) rfl
  · have hc : a.Exposes outcome.2 [] := .of_renderer (by rw [Animator.activate_eq hb])
    rw [hc.watch, List.map_nil, Showing.exposeLast_nil]
    refine ⟨h.toRecorded.activate hb, fun active' ha' sh _ _ => ⟨fault, ?_⟩⟩
    rw [Animator.activate_active hb] at ha'
    cases ha'
    exact Engine.rotationAt_eq_error.1 (Animator.shot_error.1 hs)
  · obtain ⟨front, sh, _, hwatch, hr⟩ := h.shoot hpos hb hs he
    rw [hwatch]
    refine ⟨hr, fun active' _ sh' hl hx => ?_⟩
    rw [List.getLast?_concat] at hl
    cases hl
    exact absurd hx (List.concat_ne_nil _ _)

/-! ## Moves -/

/-- The reading that a move sets the clock to. -/
def Move.reading? : Move → Option Int
  | .clock now => some now
  | _ => none

/-- Only a move of the clock changes the time. -/
theorem Stage.step_now (s : Stage (Traced ρ ℝ) ℝ) (m : Move) :
    (s.step m).animator.now = m.reading?.getD s.animator.now := by
  cases m with
  | queue g =>
    show (s.animator.queue g.code).2.now = _
    rw [Animator.queue_eq]
    rfl
  | reset =>
    obtain ⟨metrics, hr⟩ := s.animator.reset_snd
    show s.animator.reset.2.now = _
    rw [hr]
    rfl
  | clock now => rfl
  | take => rfl
  | fire i =>
    show (s.fire i).animator.now = s.animator.now
    rcases s.fire_animator i with ha | ⟨generation, ha⟩
    · rw [ha]
    · rw [ha]
      rcases (s.animator.frame_step generation).exposes with
        ⟨_, phase, ho⟩ | ⟨active, fault, hb, _⟩ | ⟨active, b, _, _, hb, _, he, _⟩
      · rw [ho]
      · rw [Animator.activate_eq hb]
      · rw [he.now, Animator.activate_eq hb]

namespace Reel

theorem projected_step {r : Reel ρ ℝ} {m : Move} (h : Projected d r.stage.animator r.showings)
    (hpos : 0 < d.toInt) (hm : ∀ now ∈ m.reading?, r.stage.animator.now ≤ now) :
    Projected d (r.step m).stage.animator (r.step m).showings := by
  show Projected d (r.stage.step m).animator (Showing.watch r.stage.animator (r.stage.step m).animator _)
  cases m with
  | queue g => exact h.queue g.code
  | reset => exact h.reset
  | clock now => exact h.quiet (.of_renderer rfl) rfl (hm now rfl) (fun _ hb => ⟨hb, rfl⟩) rfl
  | take => exact h.quiet (.of_renderer rfl) rfl le_rfl (fun _ hb => ⟨hb, rfl⟩) rfl
  | fire i =>
    show Projected d (r.stage.fire i).animator (Showing.watch _ (r.stage.fire i).animator _)
    rcases r.stage.fire_animator i with ha | ⟨generation, ha⟩
    · rw [ha]
      exact h.quiet (.of_renderer rfl) rfl le_rfl (fun _ hb => ⟨hb, rfl⟩) rfl
    · rw [ha]
      exact h.frame hpos (r.stage.animator.frame_step generation)

/-- The readings of the clock never go back. -/
def Forward (now : Int) (moves : List Move) : Prop :=
  (now :: moves.filterMap Move.reading?).Pairwise (· ≤ ·)

instance (now : Int) (moves : List Move) : Decidable (Forward now moves) :=
  inferInstanceAs (Decidable (List.Pairwise _ _))

theorem Forward.head {now : Int} {m : Move} {moves : List Move} (h : Forward now (m :: moves)) :
    ∀ next ∈ m.reading?, now ≤ next := by
  intro next hn
  unfold Forward at h
  rw [List.filterMap_cons_some hn] at h
  exact List.rel_of_pairwise_cons h List.mem_cons_self

theorem Forward.tail {now : Int} {m : Move} {moves : List Move} (h : Forward now (m :: moves)) :
    Forward (m.reading?.getD now) moves := by
  unfold Forward at h ⊢
  cases hm : m.reading? with
  | none =>
    rw [List.filterMap_cons_none hm] at h
    exact h
  | some next =>
    rw [List.filterMap_cons_some hm] at h
    exact h.of_cons

theorem projected_run (hpos : 0 < d.toInt) (moves : List Move) : ∀ {r : Reel ρ ℝ},
    Projected d r.stage.animator r.showings → Forward r.stage.animator.now moves →
    Projected d (r.run moves).stage.animator (r.run moves).showings := by
  induction moves with
  | nil => exact fun h _ => h
  | cons m moves ih =>
    intro r h hm
    refine ih (projected_step h hpos hm.head) ?_
    show Forward (r.stage.step m).animator.now moves
    rw [Stage.step_now]
    exact hm.tail

end Reel

/-! ## Refused frames -/

/-- All frames but the last one of a showing were taken by the renderer, and the last one too while the
showing goes on and no callback has faulted. -/
structure Steady (faulted : Bool) (a : Animator (Traced ρ ℝ) ℝ) (showings : List (Showing ℝ)) : Prop where
  taken : ∀ sh ∈ showings, ∀ k ∈ sh.exposures.dropLast, k.taken = true
  current : faulted = false → a.active ≠ none → ∀ sh ∈ showings.getLast?, ∀ k ∈ sh.exposures,
    k.taken = true

omit [Renderer ρ ℝ] in
theorem Steady.quiet {faulted faulted' : Bool} (h : Steady faulted a showings) (he : a.Exposes b [])
    (hf : faulted' = false → faulted = false) (hn : a.active = none → b.active = none) :
    Steady faulted' b (Showing.watch a b showings) := by
  rw [he.watch_nil hn]
  exact ⟨h.taken, fun hb ha => h.current (hf hb) fun hnone => ha (hn hnone)⟩

omit [Renderer ρ ℝ] in
/-- The showing of the active request has only frames that were taken, also when it begins now. -/
theorem Steady.begun {active : Active} {front : List (Showing ℝ)} {sh : Showing ℝ}
    (h : Steady false a showings) (hb : b.active = some active)
    (hl : showings ++ Showing.begun a b = front ++ [sh]) :
    (∀ other ∈ front, ∀ k ∈ other.exposures.dropLast, k.taken = true) ∧
      ∀ k ∈ sh.exposures, k.taken = true := by
  cases ha : a.active with
  | some current =>
    rw [Showing.begun_of_active ha, List.append_nil] at hl
    refine ⟨fun other hm => h.taken other ?_, h.current rfl (by rw [ha]; nofun) sh ?_⟩
    · rw [hl]
      exact List.mem_append_left _ hm
    · rw [hl]
      exact List.getLast?_concat
  | none =>
    rw [Showing.begun_eq ha hb] at hl
    obtain ⟨rfl, hs⟩ := List.append_inj' hl rfl
    cases hs
    exact ⟨h.taken, nofun⟩

theorem Steady.frame {faulted : Bool} {generation : UInt64}
    {outcome : Except Fault Unit × Animator (Traced ρ ℝ) ℝ} (h : Steady false a showings)
    (hp : Projected d a showings) (hpos : 0 < d.toInt) (step : a.FrameStep generation outcome)
    (hf : faulted = false → outcome.1.isOk = true) :
    Steady faulted outcome.2 (Showing.watch a outcome.2 showings) := by
  rcases step.exposes with ⟨_, phase, ho⟩ | ⟨active, fault, hb, _⟩ | ⟨active, b, s, taken, hb, hs, he, hok⟩
  · rw [ho]
    exact h.quiet (.of_renderer rfl) (fun _ => rfl) (fun hn => hn)
  · have hc : a.Exposes outcome.2 [] := .of_renderer (by rw [Animator.activate_eq hb])
    have hactive := Animator.activate_active hb
    obtain ⟨front, sh, hlast, _⟩ := (hp.toRecorded.activate hb).current active hactive
    obtain ⟨hfront, hsh⟩ := h.begun hactive hlast
    rw [hc.watch, List.map_nil, Showing.exposeLast_nil, hlast]
    refine ⟨fun other hm => ?_, fun _ _ other hm => ?_⟩
    · rcases List.mem_append.1 hm with hm | hm
      · exact hfront other hm
      · rw [List.mem_singleton.1 hm]
        exact fun k hk => hsh k (List.mem_of_mem_dropLast hk)
    · rw [List.getLast?_concat] at hm
      cases hm
      exact hsh
  · obtain ⟨front, sh, hlast, hwatch, _⟩ := hp.shoot hpos hb hs he
    obtain ⟨hfront, hsh⟩ := h.begun (Animator.activate_active hb) hlast
    rw [hwatch]
    refine ⟨fun other hm => ?_, fun hnot _ other hm k hk => ?_⟩
    · rcases List.mem_append.1 hm with hm | hm
      · exact hfront other hm
      · rw [List.mem_singleton.1 hm, Showing.expose, List.dropLast_concat]
        exact hsh
    · rw [List.getLast?_concat] at hm
      cases hm
      rcases List.mem_append.1 hk with hk | hk
      · exact hsh k hk
      · rw [List.mem_singleton.1 hk]
        exact hok.symm.trans (hf hnot)

namespace Reel

/-- A callback that does something is the only one, so no callback has faulted before it. -/
theorem steady_fire {r : Reel ρ ℝ} {resets : Nat} (h : Steady r.stage.faulted r.stage.animator r.showings)
    (hp : Projected d r.stage.animator r.showings) (hpos : 0 < d.toInt)
    (hs : r.stage.Scheduled resets) (i : Nat) :
    Steady (r.stage.fire i).faulted (r.stage.fire i).animator
      (Showing.watch r.stage.animator (r.stage.fire i).animator r.showings) := by
  cases hi : r.stage.batch[i]? with
  | none =>
    rw [Stage.fire_none hi]
    exact h.quiet (.of_renderer rfl) (fun hf => hf) (fun hn => hn)
  | some generation =>
    by_cases hl : r.stage.animator.Live generation
    · obtain ⟨rfl, hphase⟩ := hl
      rw [(hs.only_live hi hphase).1] at h
      have step := r.stage.animator.frame_step r.stage.animator.generation
      rcases hf : r.stage.animator.frame r.stage.animator.generation with ⟨fault | _, c⟩
      · rw [hf] at step
        rw [Stage.fire_error hi hf]
        exact h.frame hp hpos step nofun
      · rw [hf] at step
        rw [Stage.fire_ok hi hf]
        exact h.frame hp hpos step fun _ => rfl
    · rw [Stage.fire_ok hi (Animator.frame_of_not_live hl)]
      exact h.quiet (.of_renderer rfl) (fun hf => hf) (fun hn => hn)

theorem steady_step {r : Reel ρ ℝ} {resets : Nat} (h : Steady r.stage.faulted r.stage.animator r.showings)
    (hp : Projected d r.stage.animator r.showings) (hpos : 0 < d.toInt)
    (hs : r.stage.Scheduled resets) (m : Move) :
    Steady (r.step m).stage.faulted (r.step m).stage.animator (r.step m).showings := by
  cases m with
  | queue g =>
    refine h.quiet (.of_renderer (Animator.queue_renderer _ _)) (fun hf => hf) fun hn => ?_
    exact (Animator.queue_active _ _).trans hn
  | reset =>
    obtain ⟨metrics, hr⟩ := r.stage.animator.reset_snd
    have hnone : r.stage.animator.reset.2.active = none := by rw [hr]
    show Steady false r.stage.animator.reset.2 (Showing.watch _ r.stage.animator.reset.2 _)
    rw [(Animator.Exposes.reset r.stage.animator).watch_nil fun _ => hnone]
    exact ⟨h.taken, fun _ ha => absurd hnone ha⟩
  | clock now => exact h.quiet (.of_renderer rfl) (fun hf => hf) (fun hn => hn)
  | take => exact h.quiet (.of_renderer rfl) (fun hf => hf) (fun hn => hn)
  | fire i => exact steady_fire h hp hpos hs i

theorem steady_run (hpos : 0 < d.toInt) (moves : List Move) : ∀ {r : Reel ρ ℝ} {resets : Nat},
    Steady r.stage.faulted r.stage.animator r.showings → Projected d r.stage.animator r.showings →
    r.stage.Scheduled resets → resets + moves.count .reset < 2 ^ 64 →
    Forward r.stage.animator.now moves →
    Steady (r.run moves).stage.faulted (r.run moves).stage.animator (r.run moves).showings := by
  induction moves with
  | nil => exact fun h _ _ _ _ => h
  | cons m moves ih =>
    intro r resets h hp hs hr hm
    have hsplit : ([m] ++ moves).count .reset = [m].count .reset + moves.count .reset :=
      List.count_append
    change resets + ([m] ++ moves).count .reset < _ at hr
    rw [hsplit, ← Nat.add_assoc] at hr
    refine ih (steady_step h hp hpos hs m) (projected_step hp hpos hm.head)
      (hs.run [m] (by omega)) hr ?_
    show Forward (r.stage.step m).animator.now moves
    rw [Stage.step_now]
    exact hm.tail

end Reel

/-! ## Progress follows the clock -/

namespace Showing

/-- The frames of a request follow the clock. `progress` to `complete` are about each frame at its time,
`rising` to `last` about their order. -/
structure Punctual (d : Duration) (sh : Showing ℝ) : Prop where
  gate : ∀ k ∈ sh.exposures, k.frame.gate = sh.gate
  since : ∀ k ∈ sh.exposures, sh.start ≤ k.time
  progress : ∀ k ∈ sh.exposures, k.frame.progress =
    if k.time - sh.start < d.toInt then
      Easing.inOutCubic (((k.time - sh.start : ℤ) : ℝ) / (d.toInt : ℝ)) else 1
  start : ∀ k ∈ sh.exposures, k.time = sh.start → k.frame.progress = 0
  bounds : ∀ k ∈ sh.exposures, 0 ≤ k.frame.progress ∧ k.frame.progress ≤ 1
  complete : ∀ k ∈ sh.exposures, k.frame.complete = true ↔ d.toInt ≤ k.time - sh.start
  rising : (sh.exposures.map fun k => k.frame.progress).Pairwise (· ≤ ·)
  first : ∀ k ∈ sh.exposures.head?, k.time = sh.start ∧ k.frame.progress = 0
  last : ∀ k ∈ sh.exposures.dropLast, k.taken = true → k.time - sh.start < d.toInt

theorem Proper.since {now : Int} {sh : Showing ℝ} (h : sh.Proper d now) :
    ∀ k ∈ sh.exposures, sh.start ≤ k.time := fun _ hk =>
  List.rel_of_pairwise_cons h.ordered (List.mem_map_of_mem hk)

theorem Proper.complete_iff {now : Int} {sh : Showing ℝ} (h : sh.Proper d now) (hpos : 0 < d.toInt) :
    ∀ k ∈ sh.exposures, k.frame.complete = true ↔ d.toInt ≤ k.time - sh.start := by
  intro k hk
  rw [h.complete k hk, decide_eq_true_iff, h.progress k hk]
  exact Animator.one_le_progressAt hpos (h.since k hk)

theorem Proper.punctual {now : Int} {sh : Showing ℝ} (h : sh.Proper d now) (hpos : 0 < d.toInt) :
    sh.Punctual d where
  gate := h.gate
  since := h.since
  progress k hk := by
    rw [h.progress k hk]
    split
    · exact Animator.progressAt_of_lt (h.since k hk) ‹_›
    · exact Animator.progressAt_of_ge hpos (by omega)
  start k hk ht := by
    rw [h.progress k hk, ht]
    exact Animator.progressAt_start hpos
  bounds k hk := by
    rw [h.progress k hk]
    exact Animator.progressAt_mem hpos (h.since k hk)
  complete := h.complete_iff hpos
  rising := by
    have ht := List.pairwise_map.1 h.ordered.of_cons
    refine List.pairwise_map.2 (ht.imp_of_mem fun {k l} hk hl hle => ?_)
    rw [h.progress k hk, h.progress l hl]
    exact Animator.progressAt_mono hpos (h.since k hk) hle
  first k hk := by
    have ht := h.first k hk
    rw [h.progress k (List.mem_of_mem_head? hk), ht]
    exact ⟨rfl, Animator.progressAt_start hpos⟩
  last k hk ht := by
    have hm := List.mem_of_mem_dropLast hk
    have hf := h.last k hk
    rw [Exposure.finishes, ht, Bool.true_and] at hf
    by_contra hd
    rw [(h.complete_iff hpos k hm).2 (by omega)] at hf
    cases hf

/-- No request is completed before its duration is over. -/
theorem Proper.le_durations {now : Int} {sh : Showing ℝ} (h : sh.Proper d now) (hpos : 0 < d.toInt) :
    ∀ t ∈ sh.durations, d ≤ t := by
  intro t ht
  obtain ⟨k, hk, rfl⟩ := List.mem_map.1 ht
  obtain ⟨hm, hf⟩ := List.mem_filter.1 hk
  have hc : k.frame.complete = true := (Bool.and_eq_true_iff.1 hf).2
  exact Int64.le_iff_toInt_le.2 (Duration.le_toInt_between ((h.complete_iff hpos k hm).1 hc))

end Showing

/-- On a clock that never goes back, every request is shown as the time since it became active asks for.
The showings hold every frame that was handed to the renderer, and the last of them is the one of the
active request. Before the generations come round again, only the last frame of a showing can have been
refused or be of a time when the duration is over. The durations that were recorded are those of the
completed showings, and none is shorter than the duration of a request. -/
theorem Reel.progress_follows_clock (d : Duration) (hd : 0 < d) (resolution : Int) (renderer : ρ)
    (now : Int) (moves : List Move) (hm : Reel.Forward now moves) :
    let r : Reel ρ ℝ := (Reel.new d resolution renderer now).run moves
    let a := r.stage.animator
    r.stage.mapRenderer Traced.renderer = (Stage.new d resolution renderer now).run moves ∧
    (a.renderer.calls.filterMap Call.exposed? =
        r.showings.flatMap fun sh => sh.exposures.map fun k => (k.frame, k.taken)) ∧
    (∀ active, a.active = some active →
      ∃ sh ∈ r.showings.getLast?, sh.gate = active.gate ∧ sh.start = active.start) ∧
    (∀ sh ∈ r.showings, sh.Punctual d) ∧
    (moves.count .reset < 2 ^ 64 → ∀ sh ∈ r.showings, ∀ k ∈ sh.exposures.dropLast,
      k.taken = true ∧ k.time - sh.start < d.toInt) ∧
    a.metrics.timing =
      (r.showings.flatMap Showing.durations).foldl Metrics.recordCompleted Metrics.new ∧
    ∀ t ∈ r.showings.flatMap Showing.durations, d ≤ t := by
  intro r a
  have hpos : 0 < d.toInt := Int64.lt_iff_toInt_lt.1 hd
  have new : Projected d (Reel.new d resolution renderer now : Reel ρ ℝ).stage.animator [] :=
    ⟨⟨rfl, nofun, nofun, rfl, rfl⟩, nofun⟩
  have scheduled : (Reel.new d resolution renderer now : Reel ρ ℝ).stage.Scheduled 0 :=
    ⟨rfl, nofun, rfl, ⟨nofun, fun hb => hb.elim (absurd rfl) (absurd rfl)⟩, nofun⟩
  have h : Projected d a r.showings := Reel.projected_run hpos moves new hm
  have punctual : ∀ sh ∈ r.showings, sh.Punctual d := fun sh hs => (h.proper sh hs).punctual hpos
  refine ⟨?_, h.exposed, ?_, punctual, fun hr sh hs k hk => ?_, h.timing, ?_⟩
  · rw [Reel.run_stage]
    exact (Stage.run_mapRenderer Traced.answersAlike moves _).symm
  · intro active ha
    obtain ⟨front, sh, hl, hg, hs, _⟩ := h.current active ha
    exact ⟨sh, by rw [hl]; exact List.getLast?_concat, hg, hs⟩
  · have steady : Steady r.stage.faulted a r.showings :=
      Reel.steady_run hpos moves ⟨nofun, nofun⟩ new scheduled (by omega) hm
    exact ⟨steady.taken sh hs k hk, (punctual sh hs).last k hk (steady.taken sh hs k hk)⟩
  · intro t ht
    obtain ⟨sh, hs, ht⟩ := List.mem_flatMap.1 ht
    exact (h.proper sh hs).le_durations hpos t ht

/-- A gate that was queued at time zero and becomes active later begins with a frame of progress zero. -/
theorem Reel.progress_follows_clock_from_activation :
    let moves : List Move := [.queue .x, .clock 3, .take, .fire 0, .clock 10]
    let r : Reel (Discard ℝ) ℝ := (Reel.new 1000 2 Discard.new 0).run moves
    (0 : Duration) < 1000 ∧ Reel.Forward 0 moves ∧
      ∃ sh ∈ r.showings, ∃ k ∈ sh.exposures.head?, k.time = sh.start ∧ k.frame.progress = 0 := by
  intro moves r
  have hd : (0 : Duration) < 1000 := by decide
  have hm : Reel.Forward 0 moves := by decide
  obtain ⟨_, hexposed, _, hpunctual, _⟩ :=
    Reel.progress_follows_clock 1000 hd 2 (Discard.new : Discard ℝ) 0 moves hm
  have hshown : r.stage.animator.renderer.calls.filterMap Call.exposed? ≠ [] := by
    let s := (Reel.new 1000 2 Discard.new 0 : Reel (Discard ℝ) ℝ).stage.run [.queue .x, .clock 3, .take]
    have hg : s.batch[0]? = some 0 := rfl
    show (s.fire 0).animator.renderer.calls.filterMap Call.exposed? ≠ []
    rw [Stage.fire_some hg]
    rcases (s.animator.frame_step 0).exposes with
      ⟨hn | hn, _⟩ | ⟨active, fault, hb, hs⟩ | ⟨active, b, shot, taken, _, _, he, _⟩
    · exact absurd ⟨rfl, rfl⟩ hn
    · cases hn
    · have ha : active = ⟨⟨1, Gate.x.code⟩, 3⟩ := congrArg Prod.fst (Option.some.inj hb).symm
      have hp := Engine.rotationAt_eq_error.1 (Animator.shot_error.1 hs)
      rw [Animator.activate_eq hb, ha] at hp
      cases hp
    · obtain ⟨news, hc, hx⟩ := he.exposes
      rw [hc, List.filterMap_append, hx]
      exact List.concat_ne_nil _ _
  refine ⟨hd, hm, ?_⟩
  rw [hexposed] at hshown
  obtain ⟨x, hx⟩ := List.exists_mem_of_ne_nil _ hshown
  obtain ⟨sh, hs, hk⟩ := List.mem_flatMap.1 hx
  cases he : sh.exposures with
  | nil =>
    rw [he] at hk
    cases hk
  | cons k rest => exact ⟨sh, hs, k, by rw [he]; rfl, (hpunctual sh hs).first k (by rw [he]; rfl)⟩

end BlochSphere
