/-
Runs in which anything may happen to an animator at any time. Every code may be requested, also one that names
no gate, and callbacks may run that were never requested or have run before; no order among these is asked for.
`Change` lists what one event does to the engine, to the trail and to the frames that the renderer was handed.
What holds along all such runs is shown from that list.
-/
import BlochSphere.Proofs.Animation.Trail

namespace BlochSphere

/-- What can happen to an animator. `take` empties its queue of callbacks, and `callback` runs one that was
requested in some generation. -/
inductive Event where
  | queue (code : GateCode)
  | reset
  | clock (now : Int)
  | take
  | callback (generation : UInt64)
  deriving DecidableEq

namespace Animator

variable {ρ σ α : Type} [Scalar α]

section React

variable [Renderer ρ α] [Renderer σ α]

def react (a : Animator ρ α) : Event → Animator ρ α
  | .queue code => (a.queue code).2
  | .reset => a.reset.2
  | .clock now => a.setClock now
  | .take => { a with callbacks := a.callbacks.take.2 }
  | .callback generation => (a.frame generation).2

def reactAll (a : Animator ρ α) (events : List Event) : Animator ρ α := events.foldl react a

/-- What holds at first and is kept by every event holds after every run. -/
theorem reactAll_induction {P : Animator ρ α → Prop} (h : ∀ a e, P a → P (a.react e)) :
    ∀ (events : List Event) (a : Animator ρ α), P a → P (a.reactAll events)
  | [], _, ha => ha
  | e :: events, a, ha => reactAll_induction h events (a.react e) (h a e ha)

theorem react_mapRenderer {φ : ρ → σ} (h : AnswersAlike φ) (a : Animator ρ α) (e : Event) :
    (a.mapRenderer φ).react e = (a.react e).mapRenderer φ := by
  cases e with
  | queue code => exact congrArg Prod.snd (a.queue_mapRenderer φ code)
  | reset => exact congrArg Prod.snd (reset_mapRenderer h a)
  | clock now => rfl
  | take => rfl
  | callback generation => exact congrArg Prod.snd (frame_mapRenderer h a generation)

/-- A run does the same whichever of the two renderers is there. -/
theorem reactAll_mapRenderer {φ : ρ → σ} (h : AnswersAlike φ) (events : List Event) :
    ∀ a : Animator ρ α, (a.mapRenderer φ).reactAll events = (a.reactAll events).mapRenderer φ := by
  induction events with
  | nil => exact fun a => rfl
  | cons e events ih =>
    intro a
    show ((a.mapRenderer φ).react e).reactAll events = ((a.react e).reactAll events).mapRenderer φ
    rw [react_mapRenderer h, ih]

end React

/-! ## What one event does -/

variable [Renderer ρ α]

/-- The outcomes of an event for engine, trail and handed frames: they stay as they are, or one more frame of
the active request was handed over, or everything was cleared. -/
inductive Change (a : Animator (Traced ρ α) α) : Animator (Traced ρ α) α → Prop where
  | none {c : Animator (Traced ρ α) α} (he : c.engine = a.engine) (ht : c.trail = a.trail)
    (hh : c.handed = a.handed) : Change a c
  | frame {c b : Animator (Traced ρ α) α} {active : Active} {s : Shot (Traced ρ α) α}
    (hb : a.activate = some (active, b)) (hs : b.shot active = .ok s) (he : c.engine = s.engine)
    (ht : c.trail = s.frame.trail) (hh : c.handed = a.handed ++ [s.frame]) : Change a c
  | clearing {c : Animator (Traced ρ α) α} (he : c.engine = a.engine.reset) (ht : c.trail = [])
    (hh : c.handed = a.handed ++ [Frame.clearing]) : Change a c

/-- The frame was handed over, whether or not the renderer took it. -/
theorem Change.of_render {a b c : Animator (Traced ρ α) α} {active : Active} {s : Shot (Traced ρ α) α}
    {result : Except Fault Unit} (hb : a.activate = some (active, b)) (hs : b.shot active = .ok s)
    (hr : Renderer.render s.renderer s.frame = (result, c.renderer)) (he : c.engine = s.engine)
    (ht : c.trail = s.frame.trail) : a.Change c := by
  refine .frame hb hs he ht ?_
  unfold handed
  rw [Traced.render_handed hr, shot_handed hs, activate_eq hb]
  rfl

theorem FrameStep.change {a : Animator (Traced ρ α) α} {generation : UInt64}
    {outcome : Except Fault Unit × Animator (Traced ρ α) α} (h : FrameStep a generation outcome) :
    a.Change outcome.2 := by
  cases h with
  | ignored => exact .none rfl rfl rfl
  | drained => exact .none rfl rfl rfl
  | blocked _ hb _ =>
    rw [activate_eq hb]
    exact .none rfl rfl rfl
  | refused _ hb hs hr => exact .of_render hb hs hr rfl rfl
  | shown _ hb hs hr _ => exact .of_render hb hs hr rfl rfl
  | passed _ hb hs hr _ _ => exact .of_render hb hs hr rfl rfl
  | ended _ hb hs hr _ _ => exact .of_render hb hs hr rfl rfl

theorem react_change (a : Animator (Traced ρ α) α) (e : Event) : a.Change (a.react e) := by
  cases e with
  | queue code =>
    show a.Change (a.queue code).2
    rw [queue_eq]
    exact .none rfl rfl rfl
  | reset =>
    obtain ⟨metrics, hr⟩ := a.reset_snd
    show a.Change a.reset.2
    rw [hr]
    refine .clearing rfl rfl ?_
    show Call.handed _ = _
    rw [Traced.clear_calls, Call.handed_append]
    rfl
  | clock now => exact .none rfl rfl rfl
  | take => exact .none rfl rfl rfl
  | callback generation => exact (a.frame_step generation).change

/-- A frame that was handed over by now was handed over before, or clears the picture, or is a shot of the active
request. -/
theorem Change.mem_handed {a c : Animator (Traced ρ α) α} (h : a.Change c) {f : Frame α} (hf : f ∈ c.handed) :
    f ∈ a.handed ∨ f = Frame.clearing ∨
    ∃ active b s, a.activate = some (active, b) ∧ b.shot active = .ok s ∧ f = s.frame := by
  cases h with
  | none _ _ hh =>
    rw [hh] at hf
    exact .inl hf
  | frame hb hs _ _ hh =>
    rw [hh, List.mem_append, List.mem_singleton] at hf
    exact hf.imp_right fun hf => .inr ⟨_, _, _, hb, hs, hf⟩
  | clearing _ _ hh =>
    rw [hh, List.mem_append, List.mem_singleton] at hf
    exact hf.imp_right .inl

/-- Whoever followed the frames from the start knows the trail. -/
theorem Change.followed {start : List (Marker α)} {a c : Animator (Traced ρ α) α} (h : a.Change c)
    (hf : a.Followed start a.handed) : c.Followed start c.handed := by
  cases h with
  | none _ ht hh =>
    rw [hh]
    exact hf.of_trail ht
  | frame hb hs _ ht hh =>
    rw [hh]
    exact hf.shot hb hs ht
  | clearing _ ht hh =>
    rw [hh]
    refine ⟨?_, hf.coherent.concat nofun⟩
    rw [Frame.known_concat, Frame.learn_of_cleared rfl, markers, ht]
    rfl

end Animator

end BlochSphere
