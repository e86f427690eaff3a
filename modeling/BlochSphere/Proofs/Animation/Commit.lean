/-
What an engine has committed. Between two requests it stands where the completed requests lead. The
path in flight belongs to the request being shown, or is still that of the last completed one; since
neighbouring requests have different numbers the two are never taken for each other. The rotation
of a request is committed with its completing frame, even if the renderer then refuses the frame.
-/
import BlochSphere.Proofs.Animation.Order
import BlochSphere.Proofs.Engine
import BlochSphere.Proofs.Quat
import BlochSphere.Proofs.Scalar.UnitInterval

namespace BlochSphere

theorem GateCode.filterMap_gate? (gates : List Gate) :
    (gates.map Gate.code).filterMap GateCode.gate? = gates := by
  induction gates with
  | nil => rfl
  | cons g gates ih => rw [List.map_cons, List.filterMap_cons, GateCode.gate?_code, ih]

/-- The gates that were requested. -/
def Applied.gates (requests : List Applied) : List Gate := requests.filterMap (·.code.gate?)

/-- Where requests lead from rest. -/
def Applied.turned {α : Type} [Scalar α] (requests : List Applied) : Quat α :=
  Quat.identity.turnAll (Applied.gates requests)

theorem Applied.turned_concat {α : Type} [Scalar α] (requests : List Applied) {g : Applied} {gate : Gate}
    (hg : g.code = gate.code) :
    (Applied.turned (requests ++ [g]) : Quat α) = gate.turn * Applied.turned requests := by
  have hs : Applied.gates [g] = [gate] := by
    unfold Applied.gates
    rw [List.filterMap_cons, hg, GateCode.gate?_code, List.filterMap_nil]
  unfold Applied.turned
  rw [Applied.gates, List.filterMap_append, Quat.turnAll_append]
  exact congrArg (Quat.turnAll _) hs

/-! ## Neighbouring requests -/

/-- Requests with consecutive numbers up to `seq`. -/
structure Numbered (seq : UInt64) (requests : List Applied) : Prop where
  chain : requests.IsChain fun g h => g.seq + 1 = h.seq
  last : ∀ g, requests.getLast? = some g → g.seq = seq

theorem Numbered.concat {seq : UInt64} {requests : List Applied} (h : Numbered seq requests)
    (code : GateCode) : Numbered (seq + 1) (requests ++ [⟨seq + 1, code⟩]) := by
  refine ⟨List.isChain_append.2 ⟨h.chain, .singleton _, fun g hg next hn => ?_⟩, fun g hg => ?_⟩
  · cases hn
    rw [h.last g hg]
  · rw [List.getLast?_concat] at hg
    cases hg
    rfl

/-- A request never has the number of the one before it. -/
theorem Numbered.seq_ne {seq : UInt64} {front back : List Applied} {g next : Applied}
    (h : Numbered seq (front ++ next :: back)) (hg : front.getLast? = some g) : g.seq ≠ next.seq := by
  have hs := (List.isChain_append.1 h.chain).2.2 g hg next rfl
  intro he
  rw [he] at hs
  exact absurd hs (by simp)

/-! ## The path in flight -/

variable {ρ α : Type} [Scalar α]

/-- What an engine holds, given the completed requests, the one being shown and the spoiled one. -/
inductive Tracked (e : Engine α) (completed : List Applied) : Option Active → List Applied → Prop where
  -- no shot of the active request was taken yet, or none is active
  | rested {active : Option Active} (hc : e.current = Applied.turned completed)
    (hp : ∀ p, e.active = some p → completed.getLast? = some p.gate) : Tracked e completed active []
  -- its path is in flight and not committed
  | underway {active : Active} {p : RotationPath α} (hp : e.active = some p)
    (hg : p.gate = active.gate) (ht : p.target = Applied.turned (completed ++ [active.gate]))
    (hc : e.current = Applied.turned completed) : Tracked e completed (some active) []
  -- its path was committed, but its completing frame was refused
  | spoiled {active : Active} {p : RotationPath α} (hp : e.active = some p)
    (hg : p.gate = active.gate) (ht : p.target = Applied.turned (completed ++ [active.gate]))
    (hc : e.current = p.target) : Tracked e completed (some active) [active.gate]

namespace Tracked

variable {e : Engine α} {completed spoiled : List Applied} {active : Active}

theorem current_eq {active : Option Active} (h : Tracked e completed active spoiled) :
    e.current = Applied.turned (completed ++ spoiled) := by
  cases h with
  | rested hc _ =>
    rw [List.append_nil]
    exact hc
  | underway _ _ _ hc =>
    rw [List.append_nil]
    exact hc
  | spoiled _ _ ht hc => exact hc.trans ht

theorem spoiled_cases {active : Option Active} (h : Tracked e completed active spoiled) :
    spoiled = [] ∨ spoiled = active.toList.map Active.gate := by
  cases h with
  | rested => exact .inl rfl
  | underway => exact .inl rfl
  | spoiled => exact .inr rfl

/-- While no request is shown, a path in flight is that of the last completed one. -/
theorem rested_gate (h : Tracked e completed none spoiled) {p : RotationPath α}
    (hp : e.active = some p) : completed.getLast? = some p.gate := by
  cases h with
  | rested _ hlast => exact hlast p hp

/-- A request that becomes active has no path yet. -/
theorem activate (h : Tracked e completed none spoiled) (active : Option Active) :
    Tracked e completed active spoiled := by
  cases h with
  | rested hc hp => exact .rested hc hp

/-- The path of the request being shown leads on from the completed ones, whether it is in flight or
made now. -/
theorem pathFor {gate : Gate} {p : RotationPath α} (h : Tracked e completed (some active) spoiled)
    (hn : ∀ g, completed.getLast? = some g → g.seq ≠ active.gate.seq)
    (hg : active.gate.code = gate.code) (hp : e.pathFor active.gate = .ok p) :
    p.gate = active.gate ∧ p.target = Applied.turned (completed ++ [active.gate]) := by
  cases h with
  | rested hc hlast =>
    -- a path in flight is that of the last completed request, which has another number
    rw [Engine.pathFor_new fun q hq => hn q.gate (hlast q hq)] at hp
    obtain rfl := Engine.newPath_ok hg hp
    refine ⟨rfl, ?_⟩
    rw [Applied.turned_concat completed hg, ← hc]
    rfl
  | underway hq hgate ht _ =>
    rw [Engine.pathFor_in_flight hq (congrArg Applied.seq hgate)] at hp
    cases hp
    exact ⟨hgate, ht⟩
  | spoiled hq hgate ht _ =>
    rw [Engine.pathFor_in_flight hq (congrArg Applied.seq hgate)] at hp
    cases hp
    exact ⟨hgate, ht⟩

end Tracked

/-! ## Callbacks -/

namespace Animator

/-- The requests are gates with consecutive numbers, and the engine follows them. -/
structure Committed (a : Animator (Traced ρ α) α) : Prop where
  gates : ∀ g ∈ a.work, ∃ gate : Gate, g.code = gate.code
  numbered : Numbered a.seq a.work
  tracked : Tracked a.engine a.completed a.active a.spoiled

variable {a b : Animator (Traced ρ α) α} {active : Active}

theorem Committed.activate (h : a.Committed) (hb : a.activate = some (active, b)) : b.Committed := by
  have hw := activate_work hb
  refine ⟨?_, ?_, ?_⟩
  · rw [hw]
    exact h.gates
  · rw [hw, activate_eq hb]
    exact h.numbered
  · rcases activate_cases hb with ⟨_, rfl⟩ | ⟨ha, _, _, hb⟩
    · exact h.tracked
    · have ht := h.tracked
      rw [ha] at ht
      rw [hb]
      exact ht.activate _

/-- The request being shown is a gate and has another number than the last completed one. -/
theorem Committed.active_gate (h : a.Committed) (ha : a.active = some active) :
    (∃ gate : Gate, active.gate.code = gate.code) ∧
      ∀ g, a.completed.getLast? = some g → g.seq ≠ active.gate.seq := by
  have hw : a.work = a.completed ++ active.gate :: a.pending := by
    unfold work
    rw [current_of_active ha, List.append_assoc]
    rfl
  constructor
  · apply h.gates
    rw [hw]
    exact List.mem_append_right _ List.mem_cons_self
  · intro g hg
    have hn := h.numbered
    rw [hw] at hn
    exact hn.seq_ne hg

theorem Committed.queue (h : a.Committed) (g : Gate) : (a.queue g.code).2.Committed := by
  have hw := a.queue_work g.code
  rw [queue_fst] at hw
  refine ⟨fun x hx => ?_, ?_, ?_⟩
  · rw [hw] at hx
    rcases List.mem_append.1 hx with hx | hx
    · exact h.gates x hx
    · rw [List.mem_singleton.1 hx]
      exact ⟨g, rfl⟩
  · rw [hw, queue_seq]
    exact h.numbered.concat g.code
  · simpa only [completed, frames, spoiled, queue_renderer, queue_engine, queue_active] using h.tracked

variable [Renderer ρ α] {s : Shot (Traced ρ α) α} {t : Traced ρ α}

theorem expose_spoiled (hs : a.shot active = .ok s)
    (hr : Renderer.render s.renderer s.frame = (.ok (), t)) :
    (a.expose s t).spoiled = if s.frame.complete then [] else a.spoiled := by
  show Call.spoiled t.calls = _
  rw [Traced.render_ok hr, Call.spoiled_concat, shot_spoiled hs]
  rfl

theorem expose_spoiled_refused {fault : Fault} (hs : a.shot active = .ok s)
    (hr : Renderer.render s.renderer s.frame = (.error fault, t)) :
    (a.expose s t).spoiled = if s.frame.complete then [active.gate] else a.spoiled := by
  obtain ⟨_, hshot⟩ := shot_spec hs
  show Call.spoiled t.calls = _
  rw [Traced.render_error hr, Call.spoiled_concat, shot_spoiled hs, ← hshot.gate]
  rfl

theorem Committed.reset (a : Animator (Traced ρ α) α) : a.reset.2.Committed := by
  obtain ⟨metrics, hr⟩ := reset_snd a
  have hs : a.reset.2.spoiled = [] := by
    unfold spoiled
    rw [hr, Traced.clear_calls, Call.spoiled_concat]
    rfl
  refine ⟨?_, ?_, ?_⟩
  · rw [reset_work]
    exact nofun
  · rw [reset_work]
    exact ⟨.nil, nofun⟩
  · unfold completed
    rw [reset_frames, hs, hr]
    exact .rested rfl nofun

variable [LawfulUnit α]

/-- A shot puts the path of its request in flight, and commits it if its frame completes the
request. -/
theorem Committed.shot (h : a.Committed) (ha : a.active = some active) (hs : a.shot active = .ok s) :
    ∃ q, s.engine.active = some q ∧ q.gate = active.gate ∧
      q.target = Applied.turned (a.completed ++ [active.gate]) ∧
      s.engine.current = if s.frame.complete then q.target else a.engine.current := by
  obtain ⟨p, q, hp, hq, he⟩ := shot_engine hs
  obtain ⟨_, hshot⟩ := shot_spec hs
  obtain ⟨⟨gate, hg⟩, hn⟩ := h.active_gate ha
  have ht := h.tracked
  rw [ha] at ht
  obtain ⟨hgate, htarget⟩ := ht.pathFor hn hg hp
  have hq1 : q.gate = p.gate := (congrArg RotationPath.gate hq :)
  have hq2 : q.target = p.target := (congrArg RotationPath.target hq :)
  refine ⟨q, by rw [he], hq1.trans hgate, hq2.trans htarget, ?_⟩
  -- the target is committed at a clamped progress of one, the frame completes at a progress from one on
  rw [he, hshot.complete, hq2, LawfulUnit.clamp_beq_one]

theorem Committed.shot_incomplete (h : a.Committed) (ha : a.active = some active)
    (hs : a.shot active = .ok s) (hc : s.frame.complete = false) :
    Tracked s.engine a.completed (some active) a.spoiled := by
  obtain ⟨q, hq, hgate, htarget, hcurrent⟩ := h.shot ha hs
  have ht := h.tracked
  rw [ha] at ht
  rw [hc, if_neg nofun, ht.current_eq] at hcurrent
  rcases ht.spoiled_cases with hspoiled | hspoiled
  · rw [hspoiled, List.append_nil] at hcurrent
    rw [hspoiled]
    exact .underway hq hgate htarget hcurrent
  · -- going back in time after a refused completion does not take the commitment back
    rw [hspoiled] at hcurrent ⊢
    exact .spoiled hq hgate htarget (hcurrent.trans htarget.symm)

theorem Committed.shot_refused (h : a.Committed) (ha : a.active = some active)
    (hs : a.shot active = .ok s) (hc : s.frame.complete = true) :
    Tracked s.engine a.completed (some active) [active.gate] := by
  obtain ⟨q, hq, hgate, htarget, hcurrent⟩ := h.shot ha hs
  rw [hc, if_pos rfl] at hcurrent
  exact .spoiled hq hgate htarget hcurrent

theorem Committed.shot_complete (h : a.Committed) (ha : a.active = some active)
    (hs : a.shot active = .ok s) (hr : Renderer.render s.renderer s.frame = (.ok (), t))
    (hc : s.frame.complete = true) :
    Tracked s.engine (a.expose s t).completed none (a.expose s t).spoiled := by
  obtain ⟨q, hq, hgate, htarget, hcurrent⟩ := h.shot ha hs
  rw [hc, if_pos rfl] at hcurrent
  rw [expose_completed hs hr, expose_spoiled hs hr, hc]
  -- the path stays in flight, and its request is now the last completed one
  refine .rested (hcurrent.trans htarget) fun p hp => ?_
  rw [hq] at hp
  cases hp
  rw [hgate]
  exact List.getLast?_concat

theorem FrameStep.tracked {generation : UInt64}
    {outcome : Except Fault Unit × Animator (Traced ρ α) α}
    (h : FrameStep a generation outcome) (hc : a.Committed) :
    Tracked outcome.2.engine outcome.2.completed outcome.2.active outcome.2.spoiled := by
  cases h with
  | ignored => exact hc.tracked
  | drained => exact hc.tracked
  | blocked _ hb _ => exact (hc.activate hb).tracked
  | @refused active b s fault r _ hb hs hr =>
    have ha := activate_active hb
    show Tracked s.engine (completions (b.expose s r).frames) b.active (b.expose s r).spoiled
    rw [ha, expose_refused hs hr, expose_spoiled_refused hs hr]
    cases hf : s.frame.complete with
    | false => exact (hc.activate hb).shot_incomplete ha hs hf
    | true => exact (hc.activate hb).shot_refused ha hs hf
  | @shown active b s r _ hb hs hr hf =>
    have ha := activate_active hb
    show Tracked s.engine (b.expose s r).completed b.active (b.expose s r).spoiled
    rw [ha, expose_completed hs hr, expose_spoiled hs hr, hf]
    exact (hc.activate hb).shot_incomplete ha hs hf
  | passed _ hb hs hr hf _ => exact (hc.activate hb).shot_complete (activate_active hb) hs hr hf
  | ended _ hb hs hr hf _ => exact (hc.activate hb).shot_complete (activate_active hb) hs hr hf

theorem FrameStep.committed {generation : UInt64}
    {outcome : Except Fault Unit × Animator (Traced ρ α) α}
    (h : FrameStep a generation outcome) (hc : a.Committed) : outcome.2.Committed := by
  refine ⟨?_, ?_, h.tracked hc⟩
  · rw [h.work_eq]
    exact hc.gates
  · rw [h.work_eq, h.kept.1]
    exact hc.numbered

end Animator

end BlochSphere
