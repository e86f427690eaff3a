/-
The callbacks of an animator. While it runs exactly one outstanding callback is of the present
generation, and none while it is idle; those of older generations do nothing. Only a callback that
faults is not replaced, and it faults only where the renderer refuses its frame or a path is too long.
-/
import BlochSphere.Broadcast
import BlochSphere.Proofs.Animation.Stage
import BlochSphere.Proofs.Engine
import Mathlib

namespace BlochSphere

namespace Animator

variable {ρ α : Type} {a : Animator ρ α}

/-! ## Work that is left -/

/-- Something is left to do. -/
def Busy (a : Animator ρ α) : Prop := a.pending ≠ [] ∨ a.active ≠ none

theorem Busy.activate (h : a.Busy) : a.activate ≠ none := by
  intro hn
  obtain ⟨ha, hp⟩ := activate_eq_none.1 hn
  rcases h with h | h
  · exact h hp
  · exact h ha

variable [Scalar α] [Renderer ρ α]

theorem FrameStep.todo_subset {generation : UInt64} {outcome : Except Fault Unit × Animator ρ α}
    (h : FrameStep a generation outcome) : outcome.2.todo ⊆ a.todo := by
  have same {active : Active} {b : Animator ρ α} (hb : a.activate = some (active, b)) :
      b.todo ⊆ a.todo := by
    rw [activate_todo hb]
    exact List.Subset.refl _
  cases h with
  | ignored => exact List.Subset.refl _
  | drained => exact List.Subset.refl _
  | blocked _ hb _ => exact same hb
  | refused _ hb _ _ => exact (same hb :)
  | shown _ hb _ _ _ => exact (same hb :)
  | passed _ hb _ _ _ _ => exact fun g hg => same hb (List.mem_append_right _ hg)
  | ended _ hb _ _ _ _ => exact fun g hg => same hb (List.mem_append_right _ hg)

theorem FrameStep.resolution_eq {generation : UInt64} {outcome : Except Fault Unit × Animator ρ α}
    (h : FrameStep a generation outcome) :
    outcome.2.engine.resolution = a.engine.resolution := by
  have same {active : Active} {b : Animator ρ α} (hb : a.activate = some (active, b)) :
      b.engine.resolution = a.engine.resolution := by
    rw [activate_eq hb]
  have turned {active : Active} {b : Animator ρ α} {s : Shot ρ α}
      (hb : a.activate = some (active, b)) (hs : b.shot active = .ok s) :
      s.engine.resolution = a.engine.resolution := by
    obtain ⟨_, _, _, _, he⟩ := shot_engine hs
    exact (congrArg Engine.resolution he).trans (same hb)
  cases h with
  | ignored => rfl
  | drained => rfl
  | blocked _ hb _ => exact same hb
  | refused _ hb hs _ => exact turned hb hs
  | shown _ hb hs _ _ => exact turned hb hs
  | passed _ hb hs _ _ _ => exact turned hb hs
  | ended _ hb hs _ _ _ => exact turned hb hs

section Cause

variable {a a' : Animator (Traced ρ α) α} {generation : UInt64}

/-- A callback that runs through has no frame refused. -/
theorem FrameStep.refusals_eq (h : FrameStep a generation (.ok (), a')) : a'.refusals = a.refusals := by
  have same {active : Active} {b : Animator (Traced ρ α) α} (hb : a.activate = some (active, b)) :
      b.refusals = a.refusals := by
    rw [activate_eq hb]
    rfl
  have rendered {active : Active} {b : Animator (Traced ρ α) α} {s : Shot (Traced ρ α) α} {t : Traced ρ α}
      (hb : a.activate = some (active, b)) (hs : b.shot active = .ok s)
      (hr : Renderer.render s.renderer s.frame = (.ok (), t)) : Call.refusals t.calls = a.refusals := by
    rw [Traced.render_ok hr, Call.refusals_concat, shot_refusals hs]
    exact same hb
  cases h with
  | ignored => rfl
  | drained => rfl
  | shown _ hb hs hr _ => exact rendered hb hs hr
  | passed _ hb hs hr _ _ => exact rendered hb hs hr
  | ended _ hb hs hr _ _ => exact rendered hb hs hr

/-- While all requests are gates, a callback faults only where the path of a gate is too long, or where
the renderer refuses the frame that it is given. -/
theorem FrameStep.cause {fault : Fault} (h : FrameStep a generation (.error fault, a'))
    (hv : ∀ g ∈ a.todo, ∃ gate : Gate, g.code = gate.code) :
    Engine.maxKeyframes < a.engine.resolution + 1 ∨ ∃ frame, a'.refusals = a.refusals ++ [frame] := by
  cases h with
  | @blocked active _ _ _ hb hs =>
    left
    have hm : active.gate ∈ a'.todo := by
      unfold todo
      rw [current_of_active (activate_active hb)]
      exact List.mem_cons_self
    rw [activate_todo hb] at hm
    obtain ⟨gate, hg⟩ := hv _ hm
    have hr := Engine.rotationAt_error hg (shot_error.1 hs)
    rw [activate_eq hb] at hr
    exact hr
  | @refused _ _ s _ t _ hb hs hr =>
    right
    refine ⟨s.frame, ?_⟩
    show Call.refusals t.calls = _
    rw [Traced.render_error hr, Call.refusals_concat, shot_refusals hs, activate_eq hb]
    rfl

end Cause

/-- A callback that has something to do leaves the animator running with the next callback
requested, or idle with nothing left to do, or it faults and requests none. -/
theorem FrameStep.schedule {generation : UInt64} {outcome : Except Fault Unit × Animator ρ α}
    (h : FrameStep a generation outcome) (hl : a.Live generation) (hw : a.Busy) :
    (outcome.1 = .ok () ∧ outcome.2.phase = .running ∧ outcome.2.Busy ∧
      outcome.2.callbacks.pending = a.callbacks.pending ++ [a.generation]) ∨
    (outcome.1 = .ok () ∧ outcome.2.phase = .idle ∧ ¬ outcome.2.Busy ∧
      outcome.2.callbacks.pending = a.callbacks.pending) ∨
    (∃ fault, outcome.1 = .error fault) ∧ outcome.2.phase = .running ∧ outcome.2.Busy ∧
      outcome.2.callbacks.pending = a.callbacks.pending := by
  have active_busy {active : Active} {b : Animator ρ α} (hb : a.activate = some (active, b)) :
      b.active ≠ none := by
    rw [activate_active hb]
    nofun
  have kept {active : Active} {b : Animator ρ α} (hb : a.activate = some (active, b)) :
      b.phase = .running ∧ b.callbacks.pending = a.callbacks.pending ∧
        b.callbacks.pending ++ [b.generation] = a.callbacks.pending ++ [a.generation] := by
    rw [activate_eq hb]
    exact ⟨hl.2, rfl, rfl⟩
  cases h with
  | ignored hn => exact absurd hl hn
  -- an animator that has something to do is never found drained
  | drained _ hn => exact absurd hn hw.activate
  | blocked _ hb _ =>
    have busy := active_busy hb
    exact .inr (.inr ⟨⟨_, rfl⟩, (kept hb).1, .inr busy, (kept hb).2.1⟩)
  | refused _ hb _ _ =>
    have busy := active_busy hb
    exact .inr (.inr ⟨⟨_, rfl⟩, (kept hb).1, .inr busy, (kept hb).2.1⟩)
  | shown _ hb _ _ _ =>
    have busy := active_busy hb
    exact .inl ⟨rfl, (kept hb).1, .inr busy, (kept hb).2.2⟩
  | passed _ hb _ _ _ hp => exact .inl ⟨rfl, (kept hb).1, .inl hp, (kept hb).2.2⟩
  | ended _ hb _ _ _ hp =>
    refine .inr (.inl ⟨rfl, rfl, ?_, (kept hb).2.1⟩)
    rintro (h | h)
    · exact h hp
    · exact h rfl

end Animator

namespace Stage

variable {ρ α : Type}

/-! ## Every outstanding callback -/

section Callbacks

/-- The callbacks that are outstanding after `resets` resets. -/
structure Scheduled (s : Stage ρ α) (resets : Nat) : Prop where
  generation : s.animator.generation = UInt64.ofNat resets
  old : ∀ g ∈ s.outstanding, g.toNat ≤ resets
  live : s.outstanding.count s.animator.generation =
    if s.animator.phase = .running ∧ s.faulted = false then 1 else 0
  busy : s.animator.phase = .running ↔ s.animator.Busy
  stalled : s.faulted = true → s.animator.phase = .running

theorem Scheduled.generation_le {s : Stage ρ α} {resets : Nat} (h : s.Scheduled resets) :
    s.animator.generation.toNat ≤ resets := by
  rw [h.generation, UInt64.toNat_ofNat']
  exact Nat.mod_le _ _

theorem Scheduled.queue {s : Stage ρ α} {resets : Nat} (h : s.Scheduled resets) (g : Gate) :
    (s.queue g).Scheduled resets := by
  have hg : (s.queue g).animator.generation = s.animator.generation := Animator.queue_generation _ _
  have hp : (s.queue g).animator.phase = .running := Animator.queue_phase _ _
  have hb : (s.queue g).animator.Busy := by
    left
    show (s.animator.queue g.code).2.pending ≠ []
    rw [Animator.queue_pending]
    exact List.concat_ne_nil _ _
  have hl := h.live
  cases hphase : s.animator.phase with
  | idle =>
    -- nothing was outstanding for this generation, and one callback is requested
    have hf : s.faulted = false := by
      cases hf : s.faulted with
      | false => rfl
      | true => rw [h.stalled hf] at hphase; cases hphase
    have ho : (s.queue g).outstanding = s.outstanding ++ [s.animator.generation] := by
      show s.batch ++ (s.animator.queue g.code).2.callbacks.pending = _
      rw [Animator.queue_callbacks_idle _ _ hphase, ← List.append_assoc]
      rfl
    rw [hphase, if_neg (fun hn => nomatch hn.1)] at hl
    refine ⟨hg.trans h.generation, fun x hx => ?_, ?_, ⟨fun _ => hb, fun _ => hp⟩, fun _ => hp⟩
    · rw [ho] at hx
      rcases List.mem_append.1 hx with hx | hx
      · exact h.old x hx
      · rw [List.mem_singleton.1 hx]
        exact h.generation_le
    · rw [hg, ho, List.count_append, hl, List.count_singleton_self, if_pos ⟨hp, hf⟩]
  | running =>
    have ho : (s.queue g).outstanding = s.outstanding := by
      show s.batch ++ (s.animator.queue g.code).2.callbacks.pending = _
      rw [Animator.queue_callbacks_running _ _ hphase]
      rfl
    rw [hphase] at hl
    refine ⟨hg.trans h.generation, fun x hx => ?_, ?_, ⟨fun _ => hb, fun _ => hp⟩, fun _ => hp⟩
    · rw [ho] at hx
      exact h.old x hx
    · rw [hg, ho, hp]
      exact hl

theorem take_outstanding (s : Stage ρ α) : s.take.outstanding = s.outstanding := by
  show s.batch ++ s.animator.callbacks.pending ++ [] = _
  rw [List.append_nil]
  rfl

theorem Scheduled.take {s : Stage ρ α} {resets : Nat} (h : s.Scheduled resets) :
    s.take.Scheduled resets := by
  refine ⟨h.generation, ?_, ?_, h.busy, h.stalled⟩
  · rw [take_outstanding]
    exact h.old
  · rw [take_outstanding]
    exact h.live

/-- Firing a callback takes one away from the outstanding ones. -/
theorem count_outstanding {s : Stage ρ α} {i : Nat} {generation : UInt64}
    (hg : s.batch[i]? = some generation) (x : UInt64) :
    s.outstanding.count x = (s.batch.eraseIdx i ++ s.animator.callbacks.pending).count x +
      if generation = x then 1 else 0 := by
  obtain ⟨hi, rfl⟩ := List.getElem?_eq_some_iff.1 hg
  have hb := (List.getElem_cons_eraseIdx_perm hi).count_eq x
  rw [List.count_cons] at hb
  unfold outstanding
  rw [List.count_append, List.count_append, ← hb]
  simp only [beq_iff_eq]
  omega

theorem Scheduled.mem_old {s : Stage ρ α} {resets i : Nat} (h : s.Scheduled resets) {g : UInt64}
    (hm : g ∈ s.batch.eraseIdx i ++ s.animator.callbacks.pending) : g.toNat ≤ resets := by
  apply h.old g
  rcases List.mem_append.1 hm with hm | hm
  · exact List.mem_append_left _ (List.mem_of_mem_eraseIdx hm)
  · exact List.mem_append_right _ hm

/-- A live callback in the batch is the only one outstanding, and no fault has happened. -/
theorem Scheduled.only_live {s : Stage ρ α} {resets i : Nat} (h : s.Scheduled resets)
    (hi : s.batch[i]? = some s.animator.generation) (hp : s.animator.phase = .running) :
    s.faulted = false ∧ (s.batch.eraseIdx i).count s.animator.generation = 0 ∧
      s.animator.callbacks.pending.count s.animator.generation = 0 := by
  have hc := count_outstanding hi s.animator.generation
  rw [if_pos rfl, h.live] at hc
  have hf : s.faulted = false := by
    by_contra hf
    rw [if_neg (fun hn => hf hn.2)] at hc
    omega
  rw [if_pos ⟨hp, hf⟩, List.count_append] at hc
  exact ⟨hf, by omega, by omega⟩

variable [Scalar α] [Renderer ρ α]

/-- No callback that is outstanding at a reset is of the new generation. -/
theorem Scheduled.reset {s : Stage ρ α} {resets : Nat} (h : s.Scheduled resets)
    (hr : resets + 1 < 2 ^ 64) : s.reset.Scheduled (resets + 1) := by
  obtain ⟨metrics, ha⟩ := s.animator.reset_snd
  have hg : s.reset.animator.generation = UInt64.ofNat (resets + 1) := by
    show s.animator.reset.2.generation = _
    rw [ha, UInt64.ofNat_add, ← h.generation]
    rfl
  have hp : s.reset.animator.phase = .idle := congrArg Animator.phase ha
  have ho : s.reset.outstanding = s.outstanding := by
    show s.batch ++ s.animator.reset.2.callbacks.pending = _
    rw [ha]
    rfl
  refine ⟨hg, fun g hm => ?_, ?_, ?_, nofun⟩
  · rw [ho] at hm
    exact Nat.le_succ_of_le (h.old g hm)
  · rw [hp, if_neg (fun hn => nomatch hn.1), ho, hg, List.count_eq_zero]
    intro hm
    -- all outstanding callbacks are of generations up to the old one, and there is no wrap-around
    have hle := h.old _ hm
    rw [UInt64.toNat_ofNat_of_lt' hr] at hle
    omega
  · rw [hp]
    refine ⟨nofun, fun hb => ?_⟩
    unfold Animator.Busy at hb
    have hn : s.reset.animator.pending = [] ∧ s.reset.animator.active = none :=
      ⟨congrArg Animator.pending ha, congrArg Animator.active ha⟩
    rw [hn.1, hn.2] at hb
    rcases hb with hb | hb <;> exact absurd rfl hb

/-- The live callback runs once and is replaced once, unless the animator comes to rest or a fault
loses it. -/
theorem Scheduled.fire_live {s : Stage ρ α} {resets i : Nat} (h : s.Scheduled resets)
    (hi : s.batch[i]? = some s.animator.generation) (hp : s.animator.phase = .running) :
    (s.fire i).Scheduled resets := by
  obtain ⟨hf, hrest, hwait⟩ := h.only_live hi hp
  have step := s.animator.frame_step s.animator.generation
  rcases hframe : s.animator.frame s.animator.generation with ⟨result, a⟩
  rw [hframe] at step
  have kept : a.generation = s.animator.generation := step.kept.2
  have hw : s.animator.Busy := h.busy.1 hp
  rcases step.schedule ⟨rfl, hp⟩ hw with
    ⟨rfl, hrun, hbusy, hcb⟩ | ⟨rfl, hidle, hbusy, hcb⟩ | ⟨⟨fault, rfl⟩, hrun, hbusy, hcb⟩
  · -- the next callback is requested
    rw [fire_ok hi hframe]
    refine ⟨kept.trans h.generation, fun g hm => ?_, ?_, ⟨fun _ => hbusy, fun _ => hrun⟩,
      fun _ => hrun⟩
    · rw [outstanding, hcb, ← List.append_assoc] at hm
      rcases List.mem_append.1 hm with hm | hm
      · exact h.mem_old hm
      · rw [List.mem_singleton.1 hm]
        exact h.generation_le
    · show (s.batch.eraseIdx i ++ a.callbacks.pending).count a.generation = _
      rw [kept, hcb, List.count_append, List.count_append, hrest, hwait, List.count_singleton_self,
        if_pos ⟨hrun, hf⟩]
  · -- nothing is left to do
    rw [fire_ok hi hframe]
    have hn : a.phase ≠ .running := fun hn => nomatch hidle.symm.trans hn
    refine ⟨kept.trans h.generation, fun g hm => ?_, ?_,
      ⟨fun hr => absurd hr hn, fun hb => absurd hb hbusy⟩, fun ht => nomatch hf.symm.trans ht⟩
    · rw [outstanding, hcb] at hm
      exact h.mem_old hm
    · show (s.batch.eraseIdx i ++ a.callbacks.pending).count a.generation = _
      rw [kept, hcb, List.count_append, hrest, hwait, if_neg (fun hr => hn hr.1)]
  · -- the callback is lost, and the rest of its batch with it
    rw [fire_error hi hframe]
    refine ⟨kept.trans h.generation, fun g hm => ?_, ?_, ⟨fun _ => hbusy, fun _ => hrun⟩,
      fun _ => hrun⟩
    · rw [outstanding, hcb] at hm
      exact h.old g (List.mem_append_right _ hm)
    · show a.callbacks.pending.count a.generation = _
      rw [kept, hcb, hwait, if_neg (fun hn => nomatch hn.2)]

theorem Scheduled.fire {s : Stage ρ α} {resets : Nat} (h : s.Scheduled resets) (i : Nat) :
    (s.fire i).Scheduled resets := by
  cases hi : s.batch[i]? with
  | none =>
    rw [fire_none hi]
    exact h
  | some generation =>
    by_cases hl : s.animator.Live generation
    · obtain ⟨rfl, hp⟩ := hl
      exact h.fire_live hi hp
    · have hc := count_outstanding hi s.animator.generation
      rw [fire_ok hi (Animator.frame_of_not_live hl)]
      -- an idle animator has no callback of its generation outstanding
      have hg : generation ≠ s.animator.generation := by
        rintro rfl
        rw [if_pos rfl, h.live, if_neg (fun hn => hl ⟨rfl, hn.1⟩)] at hc
        omega
      rw [if_neg hg, h.live] at hc
      exact ⟨h.generation, fun g hm => h.mem_old hm, hc.symm, h.busy, h.stalled⟩

theorem Scheduled.run (moves : List Move) :
    ∀ {s : Stage ρ α} {resets : Nat}, s.Scheduled resets → resets + moves.count .reset < 2 ^ 64 →
      (s.run moves).Scheduled (resets + moves.count .reset) := by
  induction moves with
  | nil => exact fun h _ => h
  | cons m moves ih =>
    intro s resets h hr
    show ((s.step m).run moves).Scheduled _
    rw [List.count_cons] at hr ⊢
    cases m with
    | queue g => exact ih (h.queue g) hr
    | reset =>
      rw [beq_self_eq_true, if_pos rfl, ← Nat.add_assoc, Nat.add_right_comm] at hr ⊢
      exact ih (h.reset (by omega)) hr
    | clock now => exact ih ⟨h.generation, h.old, h.live, h.busy, h.stalled⟩ hr
    | take => exact ih h.take hr
    | fire i => exact ih (h.fire i) hr

end Callbacks

/-! ## Faults -/

/-- All requests are gates, and a fault since the last reset has one of its two causes. A frame refused
since then is one of them. -/
structure Explained (s : Stage (Traced ρ α) α) (steps : Nat) : Prop where
  resolution : s.animator.engine.resolution = steps
  gates : ∀ g ∈ s.animator.todo, ∃ gate : Gate, g.code = gate.code
  cause : s.faulted = true → Engine.maxKeyframes < steps + 1 ∨ s.animator.refusals ≠ []
  refused : s.animator.refusals ≠ [] → s.faulted = true

theorem Explained.queue {s : Stage (Traced ρ α) α} {steps : Nat} (h : s.Explained steps) (g : Gate) :
    (s.queue g).Explained steps := by
  have hr : (s.queue g).animator.refusals = s.animator.refusals := by
    show Call.refusals (s.animator.queue g.code).2.renderer.calls = _
    rw [Animator.queue_renderer]
    rfl
  refine ⟨?_, fun x hx => ?_, ?_, ?_⟩
  · show (s.animator.queue g.code).2.engine.resolution = _
    rw [Animator.queue_engine]
    exact h.resolution
  · have ht : (s.queue g).animator.todo = s.animator.todo ++ [⟨s.animator.seq + 1, g.code⟩] := by
      simp only [Stage.queue, Animator.todo, Animator.current, Animator.queue_active,
        Animator.queue_pending, List.append_assoc]
    rw [ht] at hx
    rcases List.mem_append.1 hx with hx | hx
    · exact h.gates x hx
    · rw [List.mem_singleton.1 hx]
      exact ⟨g, rfl⟩
  · rw [hr]
    exact h.cause
  · rw [hr]
    exact h.refused

variable [Scalar α]

theorem Explained.new (duration : Duration) (resolution : Int) (renderer : ρ) (now : Int) :
    (Stage.new duration resolution ⟨renderer, []⟩ now : Stage (Traced ρ α) α).Explained
      (Engine.new resolution : Engine α).resolution :=
  ⟨rfl, nofun, nofun, fun hn => absurd rfl hn⟩

variable [Renderer ρ α]

theorem Explained.reset {s : Stage (Traced ρ α) α} {steps : Nat} (h : s.Explained steps) :
    s.reset.Explained steps := by
  obtain ⟨metrics, ha⟩ := s.animator.reset_snd
  have hr : s.reset.animator.refusals = [] := by
    show Call.refusals s.animator.reset.2.renderer.calls = _
    rw [ha]
    show Call.refusals (Renderer.clear s.animator.renderer : Except Fault Unit × Traced ρ α).2.calls = _
    rw [Traced.clear_calls, Call.refusals_concat]
    rfl
  refine ⟨(congrArg (·.engine.resolution) ha).trans h.resolution, fun g hg => ?_, nofun, fun hn => absurd hr hn⟩
  have ht : s.animator.reset.2.todo = [] := by rw [ha]; rfl
  exact absurd (ht ▸ hg) List.not_mem_nil

theorem Explained.fire {s : Stage (Traced ρ α) α} {steps : Nat} (h : s.Explained steps) (i : Nat) :
    (s.fire i).Explained steps := by
  cases hi : s.batch[i]? with
  | none =>
    rw [fire_none hi]
    exact h
  | some generation =>
    have step := s.animator.frame_step generation
    rcases hf : s.animator.frame generation with ⟨fault | _, a⟩
    · rw [hf] at step
      rw [fire_error hi hf]
      refine ⟨step.resolution_eq.trans h.resolution, fun g hg => h.gates g (step.todo_subset hg),
        fun _ => ?_, fun _ => rfl⟩
      rw [← h.resolution]
      refine (step.cause h.gates).imp_right ?_
      rintro ⟨frame, hr⟩ hn
      exact List.concat_ne_nil _ _ (hr.symm.trans hn)
    · rw [hf] at step
      rw [fire_ok hi hf]
      have hr : a.refusals = s.animator.refusals := step.refusals_eq
      refine ⟨step.resolution_eq.trans h.resolution, fun g hg => h.gates g (step.todo_subset hg), ?_, ?_⟩
      · rw [hr]
        exact h.cause
      · rw [hr]
        exact h.refused

theorem Explained.step {steps : Nat} (s : Stage (Traced ρ α) α) (m : Move) (h : s.Explained steps) :
    (s.step m).Explained steps := by
  cases m with
  | queue g => exact h.queue g
  | reset => exact h.reset
  | clock now => exact ⟨h.resolution, h.gates, h.cause, h.refused⟩
  | take => exact ⟨h.resolution, h.gates, h.cause, h.refused⟩
  | fire i => exact h.fire i

/-- An animator neither stalls nor runs double, as long as no callback has faulted since the last
reset. A callback faults only where the renderer refuses its frame, which is then on record, or where a
path is too long. -/
theorem one_live_callback (duration : Duration) (resolution : Int) (renderer : ρ) (now : Int)
    (moves : List Move) (hr : moves.count .reset < 2 ^ 64) :
    let s : Stage (Traced ρ α) α := (Stage.new duration resolution ⟨renderer, []⟩ now).run moves
    s.mapRenderer Traced.renderer = (Stage.new duration resolution renderer now).run moves ∧
    s.outstanding.count s.animator.generation =
      (if s.animator.phase = .running ∧ s.faulted = false then 1 else 0) ∧
    (s.faulted = true → Engine.maxKeyframes < (Engine.new resolution : Engine α).resolution + 1 ∨
      s.animator.refusals ≠ []) ∧
    (s.animator.refusals ≠ [] → s.faulted = true) ∧
    (s.animator.phase = .running ↔ s.animator.pending ≠ [] ∨ s.animator.active ≠ none) ∧
    (s.animator.phase = .running → s.animator.activate ≠ none) ∧
    ∀ g ∈ s.outstanding, g ≠ s.animator.generation →
      g < s.animator.generation ∧ s.animator.frame g = (.ok (), s.animator) := by
  intro s
  have traced := run_mapRenderer Traced.answersAlike moves
    (Stage.new duration resolution ⟨renderer, []⟩ now : Stage (Traced ρ α) α)
  have new : (Stage.new duration resolution ⟨renderer, []⟩ now : Stage (Traced ρ α) α).Scheduled 0 :=
    ⟨rfl, nofun, rfl, ⟨nofun, fun hb => hb.elim (absurd rfl) (absurd rfl)⟩, nofun⟩
  have h : s.Scheduled (0 + moves.count .reset) := new.run moves (by omega)
  have he : s.Explained (Engine.new resolution : Engine α).resolution :=
    run_induction Explained.step moves _ (.new duration resolution renderer now)
  refine ⟨traced.symm, h.live, he.cause, he.refused, h.busy, fun hp => (h.busy.1 hp).activate,
    fun g hg hne => ⟨?_, ?_⟩⟩
  · have hle := h.old g hg
    have hg' : g.toNat ≠ s.animator.generation.toNat := fun heq => hne (UInt64.toNat_inj.1 heq)
    rw [UInt64.lt_iff_toNat_lt]
    rw [h.generation, UInt64.toNat_ofNat_of_lt' (show _ < 2 ^ 64 by omega)] at hg' ⊢
    omega
  · exact Animator.frame_of_not_live fun hl => hne hl.1

/-- A broadcaster whose only channel was closed by a subscription that failed refuses the first frame, and
the animation stalls. After two resets a callback from between them is still to run when a new one is
requested: it does nothing, and the new one is live. -/
theorem one_live_callback_beside_stale :
    let channel : Broadcaster Float := (Broadcaster.new.subscribe "a" 4 none).2
    let closed : Broadcaster Float := (channel.subscribe "a" (-1) none).2
    let stalling : List Move := [.queue .x, .take, .fire 0]
    let moves : List Move := stalling ++ [.reset, .queue .x, .take, .reset, .queue .h, .take]
    let stalled : Stage (Traced (Broadcaster Float) Float) Float :=
      (Stage.new 1000000000 2 ⟨closed, []⟩ 0).run stalling
    let s : Stage (Traced (Broadcaster Float) Float) Float := (Stage.new 1000000000 2 ⟨closed, []⟩ 0).run moves
    moves.count .reset < 2 ^ 64 ∧ stalled.animator.refusals ≠ [] ∧ stalled.faulted = true ∧
      s.faulted = false ∧ s.outstanding = [1, 2] ∧ s.outstanding.count s.animator.generation = 1 ∧
      s.animator.frame 1 = (.ok (), s.animator) := by
  intro channel closed stalling moves stalled s
  have hr : moves.count .reset < 2 ^ 64 := by decide
  have hlength : stalled.animator.refusals.length = 1 := by decide +kernel
  have hphase : s.animator.phase = .running ∧ s.faulted = false := by decide +kernel
  have houtstanding : s.outstanding = [1, 2] := by decide +kernel
  have hne : (1 : UInt64) ≠ s.animator.generation := by decide +kernel
  have hstalling : stalling.count .reset < 2 ^ 64 := by decide
  have hrefused : stalled.animator.refusals ≠ [] := List.ne_nil_of_length_eq_add_one hlength
  have hmem : (1 : UInt64) ∈ s.outstanding := by
    rw [houtstanding]
    exact List.mem_cons_self
  obtain ⟨-, -, -, hfault, -⟩ := one_live_callback 1000000000 2 closed 0 stalling hstalling
  obtain ⟨-, hc, -, -, -, -, hs⟩ := one_live_callback 1000000000 2 closed 0 moves hr
  exact ⟨hr, hrefused, hfault hrefused, hphase.2, houtstanding, hc.trans (if_pos hphase), (hs 1 hmem hne).2⟩

/-- A path that is too long stalls the animation, although its renderer shows every frame. -/
theorem long_path_stalls :
    let s : Stage (Discard Float) Float :=
      (Stage.new 1000000000 4000000000000 Discard.new 0).run [.queue .x, .take, .fire 0]
    (∀ (r : Discard Float) (f : Frame Float), (Renderer.render r f).1 = .ok ()) ∧
      s.animator.phase = .running ∧ s.outstanding.count s.animator.generation = 0 := by
  exact ⟨fun _ _ => rfl, rfl, rfl⟩

end Stage

end BlochSphere
