/-
A view never drifts apart from its animation. However names, resets, readings of the clock and
callbacks follow each other, the history is the work of the animator, the state is where the
history leads, and the committed orientation is where the completed part of it leads.
-/
import BlochSphere.View
import BlochSphere.Broadcast
import BlochSphere.Proofs.Animation.Commit

namespace BlochSphere

/-! ## Runs of a view -/

/-- What can happen to a view. `take` starts a batch with all callbacks that wait, and `fire i` runs
the `i`-th of the callbacks that were taken and have not run. -/
inductive ViewMove where
  | apply (name : List UInt8)
  | reset
  | clock (now : Int)
  | take
  | fire (i : Nat)
  deriving DecidableEq

/-- A view with the callbacks that were taken from its animator and have not run. -/
structure Scene (ρ α : Type) where
  view : View ρ α
  batch : List UInt64

namespace Scene

variable {ρ α : Type} [Scalar α]

def new (config : Config) (renderer : ρ) (now : Int) : Scene ρ α := ⟨View.new config renderer now, []⟩

/-- Starts a batch. -/
def take (s : Scene ρ α) : Scene ρ α :=
  let (batch, callbacks) := s.view.animator.callbacks.take
  ⟨{ s.view with animator := { s.view.animator with callbacks := callbacks } }, s.batch ++ batch⟩

variable [Renderer ρ α]

/-- Runs one callback of the batch. A fault loses the rest of it. -/
def fire (s : Scene ρ α) (i : Nat) : Scene ρ α :=
  match s.batch[i]? with
  | none => s
  | some generation =>
    match s.view.animator.frame generation with
    | (.ok (), a) => ⟨{ s.view with animator := a }, s.batch.eraseIdx i⟩
    | (.error _, a) => ⟨{ s.view with animator := a }, []⟩

def step (s : Scene ρ α) : ViewMove → Scene ρ α
  | .apply name => { s with view := (s.view.apply name).2 }
  | .reset => { s with view := s.view.reset.2 }
  | .clock now => { s with view := s.view.setClock now }
  | .take => s.take
  | .fire i => s.fire i

def run (s : Scene ρ α) (moves : List ViewMove) : Scene ρ α := moves.foldl step s

/-- The scene with the renderer of its animator shown as another one. -/
def mapRenderer {σ : Type} (φ : ρ → σ) (s : Scene ρ α) : Scene σ α :=
  { s with view := { s.view with animator := s.view.animator.mapRenderer φ } }

section Tracing

variable {σ : Type} [Renderer σ α] {φ : ρ → σ}

theorem fire_mapRenderer (h : AnswersAlike φ) (s : Scene ρ α) (i : Nat) :
    (s.mapRenderer φ).fire i = (s.fire i).mapRenderer φ := by
  have hb : (s.mapRenderer φ).batch = s.batch := rfl
  unfold fire
  rw [hb]
  cases s.batch[i]? with
  | none => rfl
  | some generation =>
    have hm : (s.mapRenderer φ).view.animator.frame generation = _ :=
      s.view.animator.frame_mapRenderer h generation
    simp only [hm]
    rcases s.view.animator.frame generation with ⟨_ | _, a⟩ <;> rfl

theorem step_mapRenderer (h : AnswersAlike φ) (s : Scene ρ α) (m : ViewMove) :
    (s.mapRenderer φ).step m = (s.step m).mapRenderer φ := by
  cases m with
  | apply name =>
    simp only [step, mapRenderer, View.apply]
    cases Gate.parse name with
    | error e => rfl
    | ok g => simp only [Animator.queue_mapRenderer, Prod.map_snd]
  | reset => simp only [step, mapRenderer, View.reset, Animator.reset_mapRenderer h, Prod.map_snd]
  | clock now => rfl
  | take => rfl
  | fire i => exact fire_mapRenderer h s i

theorem run_mapRenderer (h : AnswersAlike φ) (moves : List ViewMove) :
    ∀ s : Scene ρ α, (s.mapRenderer φ).run moves = (s.run moves).mapRenderer φ := by
  induction moves with
  | nil => exact fun s => rfl
  | cons m moves ih =>
    intro s
    show ((s.mapRenderer φ).step m).run moves = ((s.step m).run moves).mapRenderer φ
    rw [step_mapRenderer h, ih]

end Tracing

/-- A callback changes nothing of a view but its animator. -/
theorem fire_view (s : Scene ρ α) (i : Nat) : (s.fire i).view = s.view ∨
    ∃ generation, (s.fire i).view =
      { s.view with animator := (s.view.animator.frame generation).2 } := by
  unfold fire
  split
  · exact .inl rfl
  · rename_i generation _
    right
    refine ⟨generation, ?_⟩
    split <;> rename_i hf <;> rw [hf]

end Scene

/-! ## History, state and animation -/

namespace Animator

variable {ρ α : Type} [Scalar α] [Renderer ρ α] {a : Animator ρ α}

/-- An animator that a callback leaves idle has nothing left to do. -/
theorem FrameStep.rests {generation : UInt64} {outcome : Except Fault Unit × Animator ρ α}
    (h : FrameStep a generation outcome) (ha : a.phase = .idle → a.todo = [])
    (ho : outcome.2.phase = .idle) : outcome.2.todo = [] := by
  have running {active : Active} {b : Animator ρ α} (hl : a.Live generation)
      (hb : a.activate = some (active, b)) : b.phase ≠ .idle := by
    rw [activate_eq hb, hl.2]
    nofun
  cases h with
  | ignored => exact ha ho
  | drained _ hn =>
    obtain ⟨hactive, hpending⟩ := activate_eq_none.1 hn
    show a.current ++ a.pending = []
    rw [current_of_none hactive, hpending]
    rfl
  | blocked hl hb _ => exact absurd ho (running hl hb :)
  | refused hl hb _ _ => exact absurd ho (running hl hb :)
  | shown hl hb _ _ _ => exact absurd ho (running hl hb :)
  | passed hl hb _ _ _ _ => exact absurd ho (running hl hb :)
  | ended _ _ _ _ _ hp => exact hp

end Animator

namespace View

variable {ρ α : Type} [Scalar α]

/-- What every run of a view keeps. -/
structure InStep (v : View (Traced ρ α) α) : Prop where
  history : v.history.map Gate.code = v.animator.work.map Applied.code
  qubit : v.qubit = Qubit.ket0.applyAll v.history
  committed : v.animator.Committed
  rests : v.animator.phase = .idle → v.animator.todo = []

/-- The time, the callbacks, the metrics and the reports have no part in it. -/
theorem InStep.bookkeeping {v : View (Traced ρ α) α} (h : v.InStep) (now : Int)
    (callbacks : FrameQueue UInt64) (metrics : Metrics) (reports : List UnknownGate) :
    InStep { v with
      animator := { v.animator with now := now, callbacks := callbacks, metrics := metrics }
      reports := reports } :=
  ⟨h.history, h.qubit, ⟨h.committed.gates, h.committed.numbered, h.committed.tracked⟩, h.rests⟩

/-- A known name goes to the history, the state and the animator; of an unknown one they are not
told. -/
theorem InStep.apply {v : View (Traced ρ α) α} (h : v.InStep) (name : List UInt8) :
    (v.apply name).2.InStep := by
  unfold View.apply
  cases Gate.parse name with
  | error e => exact h.bookkeeping _ _ _ _
  | ok g =>
    refine ⟨?_, ?_, h.committed.queue g, fun hp => ?_⟩
    · show (v.history ++ [g]).map Gate.code = (v.animator.queue g.code).2.work.map Applied.code
      rw [Animator.queue_work, Animator.queue_fst, List.map_append, List.map_append, h.history]
      rfl
    · show v.qubit.apply g = Qubit.ket0.applyAll (v.history ++ [g])
      rw [h.qubit, Qubit.applyAll, Qubit.applyAll, List.foldl_append]
      rfl
    · rw [Animator.queue_phase] at hp
      cases hp

/-- At rest the completed requests are the whole history. -/
theorem InStep.gates_completed {v : View (Traced ρ α) α} (h : v.InStep)
    (hp : v.animator.phase = .idle) : Applied.gates v.animator.completed = v.history := by
  have hw : v.animator.work = v.animator.completed := by
    have ht : v.animator.current ++ v.animator.pending = [] := h.rests hp
    unfold Animator.work
    rw [List.append_assoc, ht, List.append_nil]
  calc Applied.gates v.animator.completed
      = (v.animator.work.map Applied.code).filterMap GateCode.gate? := by
        rw [hw, List.filterMap_map]
        rfl
    _ = v.history := by rw [← h.history, GateCode.filterMap_gate?]

variable [Renderer ρ α]

theorem InStep.reset (v : View (Traced ρ α) α) : v.reset.2.InStep := by
  refine ⟨?_, rfl, .reset v.animator, fun _ => ?_⟩
  · show [] = v.animator.reset.2.work.map Applied.code
    rw [Animator.reset_work]
    rfl
  · obtain ⟨metrics, hr⟩ := v.animator.reset_snd
    show v.animator.reset.2.todo = []
    rw [hr]
    rfl

theorem InStep.frame [LawfulUnit α] {v : View (Traced ρ α) α} (h : v.InStep) (generation : UInt64) :
    InStep { v with animator := (v.animator.frame generation).2 } := by
  have step := v.animator.frame_step generation
  refine ⟨?_, h.qubit, step.committed h.committed, step.rests h.rests⟩
  rw [step.work_eq]
  exact h.history

theorem InStep.step [LawfulUnit α] {s : Scene (Traced ρ α) α} (h : s.view.InStep) (m : ViewMove) :
    (s.step m).view.InStep := by
  cases m with
  | apply name => exact h.apply name
  | reset => exact .reset s.view
  | clock now => exact h.bookkeeping now _ _ _
  | take => exact h.bookkeeping _ _ _ _
  | fire i =>
    show (s.fire i).view.InStep
    rcases s.fire_view i with hv | ⟨generation, hv⟩
    · rw [hv]
      exact h
    · rw [hv]
      exact h.frame generation

theorem InStep.run [LawfulUnit α] (moves : List ViewMove) :
    ∀ {s : Scene (Traced ρ α) α}, s.view.InStep → (s.run moves).view.InStep := by
  induction moves with
  | nil => exact fun h => h
  | cons m moves ih => exact fun h => ih (h.step m)

/-- History, state and animation stay in step: the history is what the animator has completed, is
showing and has pending; the state follows the history; and the committed orientation follows the
completed gates, together with one whose completing frame the renderer refused. The run is traced,
which changes nothing of it. -/
theorem never_drifts [LawfulUnit α] (config : Config) (renderer : ρ) (now : Int)
    (moves : List ViewMove) :
    let s : Scene (Traced ρ α) α := (Scene.new config ⟨renderer, []⟩ now).run moves
    let v := s.view
    let a := v.animator
    s.mapRenderer Traced.renderer = (Scene.new config renderer now).run moves ∧
    v.history.map Gate.code = (a.completed ++ a.current ++ a.pending).map Applied.code ∧
    v.qubit = Qubit.ket0.applyAll v.history ∧
    (a.orientation = Quat.identity.turnAll (Applied.gates (a.completed ++ a.spoiled)) ∧
      (a.spoiled = [] ∨ a.spoiled = a.current)) ∧
    ((∀ f, Call.refused f ∈ a.renderer.calls → f.complete = false) →
      a.orientation = Quat.identity.turnAll (Applied.gates a.completed)) ∧
    (a.phase = .idle → a.orientation = Quat.identity.turnAll v.history) := by
  intro s v a
  have new : (Scene.new config ⟨renderer, []⟩ now : Scene (Traced ρ α) α).view.InStep :=
    ⟨rfl, rfl, ⟨nofun, ⟨.nil, nofun⟩, .rested rfl nofun⟩, fun _ => rfl⟩
  have h : v.InStep := new.run moves
  have hc : a.orientation = Quat.identity.turnAll (Applied.gates (a.completed ++ a.spoiled)) :=
    h.committed.tracked.current_eq
  have clean (hs : a.spoiled = []) : a.orientation = Quat.identity.turnAll (Applied.gates a.completed) := by
    rw [hc, hs, List.append_nil]
  have traced := Scene.run_mapRenderer Traced.answersAlike moves
    (Scene.new config ⟨renderer, []⟩ now : Scene (Traced ρ α) α)
  refine ⟨traced.symm, h.history, h.qubit, ⟨hc, h.committed.tracked.spoiled_cases⟩,
    fun hr => clean (Call.spoiled_eq_nil hr), fun hp => ?_⟩
  -- an idle animator shows no request, so none is spoiled
  have hcurrent : a.current = [] := (List.append_eq_nil_iff.1 (h.rests hp)).1
  have hs : a.spoiled = [] := by
    rcases h.committed.tracked.spoiled_cases with hs | hs
    · exact hs
    · exact hs.trans hcurrent
  rw [clean hs, h.gates_completed hp]

/-- A reset in the middle of a gate, an unknown name and a callback from before the reset leave a
view that comes to rest at its last gate. -/
theorem never_drifts_after_reset :
    let config : Config := { Config.default with pathResolution := 2 }
    let moves : List ViewMove := [.apply [120], .take, .fire 0, .take, .reset, .apply [104],
      .apply [63], .fire 0, .take, .fire 0, .clock 1000000000, .take, .fire 0]
    let v : View (Traced (Discard Float) Float) Float :=
      ((Scene.new config ⟨Discard.new, []⟩ 0).run moves).view
    v.animator.phase = .idle ∧ v.history = [.h] ∧ v.qubit = Qubit.ket0.applyAll [.h] ∧
      v.animator.orientation = Quat.identity.turnAll [.h] := by
  intro config moves v
  have hh : v.history = [.h] := by decide +kernel
  obtain ⟨_, _, hq, _, _, hi⟩ := never_drifts config (Discard.new : Discard Float) 0 moves
  have hq : v.qubit = Qubit.ket0.applyAll v.history := hq
  have hi : v.animator.orientation = Quat.identity.turnAll v.history := hi (by decide +kernel)
  rw [hh] at hq hi
  exact ⟨by decide +kernel, hh, hq, hi⟩

/-- A broadcaster whose only channel was closed by a subscription that failed refuses the completing
frame. The gate is then committed, although it is still being shown. -/
theorem refused_completion_commits :
    let channel : Broadcaster Float := (Broadcaster.new.subscribe "a" 4 (some completedOnly)).2
    let closed : Broadcaster Float := (channel.subscribe "a" (-1) none).2
    let config : Config := { Config.default with pathResolution := 2 }
    let moves : List ViewMove := [.apply [88], .take, .fire 0, .clock 1000000000, .take, .fire 0]
    let v : View (Traced (Broadcaster Float) Float) Float :=
      ((Scene.new config ⟨closed, []⟩ 0).run moves).view
    v.animator.completed = [] ∧
      v.animator.orientation ≠ Quat.identity.turnAll (Applied.gates v.animator.completed) := by
  intro channel closed config moves v
  have hi : ¬ v.animator.orientation.i =
      (Quat.identity.turnAll (Applied.gates v.animator.completed)).i := by decide +kernel
  exact ⟨by decide +kernel, fun h => hi (congrArg Quat.i h)⟩

end View

end BlochSphere
