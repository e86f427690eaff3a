/-
Runs of an animator. Requests, resets and readings of the clock may come between any two callbacks,
and callbacks run in any order; a stage keeps the animator together with the callbacks that were
taken from its queue and have not run yet, and with the requests it was given. A run is the same
whether its renderer is traced or not.
-/
import BlochSphere.Proofs.Animation.Trace

namespace BlochSphere

/-- What can happen to an animator. `take` starts a batch with all callbacks that wait, and `fire i`
runs the `i`-th of the callbacks that were taken and have not run. -/
inductive Move where
  | queue (g : Gate)
  | reset
  | clock (now : Int)
  | take
  | fire (i : Nat)
  deriving DecidableEq

/-- `batch` holds the callbacks that were taken and have not run, `requests` the requests since the
last reset and `earlier` those before it; `faulted` says whether a callback faulted since the last
reset. -/
structure Stage (ρ α : Type) where
  animator : Animator ρ α
  batch : List UInt64
  earlier : List Applied
  requests : List Applied
  faulted : Bool

namespace Stage

variable {ρ α : Type} [Scalar α]

def new (duration : Duration) (resolution : Int) (renderer : ρ) (now : Int) : Stage ρ α :=
  ⟨Animator.new duration resolution renderer now, [], [], [], false⟩

/-- The callbacks that were requested and have not run. -/
def outstanding (s : Stage ρ α) : List UInt64 := s.batch ++ s.animator.callbacks.pending

/-- Every number handed out, in the order of the requests. -/
def numbers (s : Stage ρ α) : List UInt64 := (s.earlier ++ s.requests).map Applied.seq

/-- Starts a batch. -/
def take (s : Stage ρ α) : Stage ρ α :=
  let (batch, callbacks) := s.animator.callbacks.take
  { s with animator := { s.animator with callbacks := callbacks }, batch := s.batch ++ batch }

def queue (s : Stage ρ α) (g : Gate) : Stage ρ α :=
  let (applied, a) := s.animator.queue g.code
  { s with animator := a, requests := s.requests ++ [applied] }

variable [Renderer ρ α]

def reset (s : Stage ρ α) : Stage ρ α :=
  { s with
    animator := s.animator.reset.2
    earlier := s.earlier ++ s.requests
    requests := []
    faulted := false }

/-- Runs one callback of the batch. A fault loses the rest of it. -/
def fire (s : Stage ρ α) (i : Nat) : Stage ρ α :=
  match s.batch[i]? with
  | none => s
  | some generation =>
    match s.animator.frame generation with
    | (.ok (), a) => { s with animator := a, batch := s.batch.eraseIdx i }
    | (.error _, a) => { s with animator := a, batch := [], faulted := true }

def step (s : Stage ρ α) : Move → Stage ρ α
  | .queue g => s.queue g
  | .reset => s.reset
  | .clock now => { s with animator := s.animator.setClock now }
  | .take => s.take
  | .fire i => s.fire i

def run (s : Stage ρ α) (moves : List Move) : Stage ρ α := moves.foldl step s

/-- What holds at first and is kept by every move holds after every run. -/
theorem run_induction {P : Stage ρ α → Prop} (h : ∀ s m, P s → P (s.step m)) :
    ∀ (moves : List Move) (s : Stage ρ α), P s → P (s.run moves)
  | [], _, hs => hs
  | m :: moves, s, hs => run_induction h moves (s.step m) (h s m hs)

section Fire

variable {s : Stage ρ α} {i : Nat} {generation : UInt64} {a : Animator ρ α}

theorem fire_none (hg : s.batch[i]? = none) : s.fire i = s := by
  unfold fire
  rw [hg]

theorem fire_ok (hg : s.batch[i]? = some generation)
    (hf : s.animator.frame generation = (.ok (), a)) :
    s.fire i = { s with animator := a, batch := s.batch.eraseIdx i } := by
  unfold fire
  simp only [hg, hf]

theorem fire_error {fault : Fault} (hg : s.batch[i]? = some generation)
    (hf : s.animator.frame generation = (.error fault, a)) :
    s.fire i = { s with animator := a, batch := [], faulted := true } := by
  unfold fire
  simp only [hg, hf]

theorem fire_some (hg : s.batch[i]? = some generation) :
    (s.fire i).animator = (s.animator.frame generation).2 := by
  rcases hf : s.animator.frame generation with ⟨_ | _, a⟩
  · rw [fire_error hg hf]
  · rw [fire_ok hg hf]

/-- A callback changes nothing of a stage's animator but what its frame does. -/
theorem fire_animator (s : Stage ρ α) (i : Nat) : (s.fire i).animator = s.animator ∨
    ∃ generation, (s.fire i).animator = (s.animator.frame generation).2 := by
  unfold fire
  split
  · exact .inl rfl
  · rename_i generation _
    right
    refine ⟨generation, ?_⟩
    split <;> rename_i hf <;> rw [hf]

end Fire

end Stage

/-! ## Tracing changes nothing -/

section Tracing

variable {ρ σ α : Type}

/-- The animator with its renderer shown as another one. -/
def Animator.mapRenderer (φ : ρ → σ) (a : Animator ρ α) : Animator σ α :=
  { a with renderer := φ a.renderer }

theorem Animator.activate_mapRenderer (φ : ρ → σ) (a : Animator ρ α) :
    (a.mapRenderer φ).activate = a.activate.map (Prod.map id (mapRenderer φ)) := by
  obtain ⟨_, _, _, _, _, _, _, pending, active, _, _, _⟩ := a
  cases active with
  | some active => rfl
  | none => cases pending <;> rfl

theorem Animator.queue_mapRenderer (φ : ρ → σ) (a : Animator ρ α) (code : GateCode) :
    (a.mapRenderer φ).queue code = Prod.map id (mapRenderer φ) (a.queue code) := by
  obtain ⟨_, _, _, _, _, _, phase, _, _, _, _, _⟩ := a
  cases phase <;> rfl

variable [Renderer ρ α] [Renderer σ α]

/-- `φ` shows one renderer as another that answers every call alike. -/
structure AnswersAlike (φ : ρ → σ) : Prop where
  addMarker : ∀ (r : ρ) (p : Vec3 α),
    Renderer.addMarker (φ r) p = Prod.map id φ (Renderer.addMarker r p)
  render : ∀ (r : ρ) (f : Frame α), Renderer.render (φ r) f = Prod.map id φ (Renderer.render r f)
  clear : ∀ r : ρ, (Renderer.clear (φ r) : Except Fault Unit × σ) = Prod.map id φ (Renderer.clear r)

theorem Traced.answersAlike : AnswersAlike (Traced.renderer : Traced ρ α → ρ) where
  addMarker _ _ := rfl
  render t f := by
    show _ = Prod.map id Traced.renderer (t.render f)
    unfold Traced.render
    rcases Renderer.render t.renderer f with ⟨_ | _, r⟩ <;> rfl
  clear _ := rfl

namespace Animator

variable {φ : ρ → σ}

theorem place_mapRenderer (h : AnswersAlike φ) (g : Applied) (keyframes : List (Nat × Keyframe α)) :
    ∀ (e : Engine α) (r : ρ), place g keyframes e (φ r) =
      Prod.map id (Prod.map id φ) (place g keyframes e r) := by
  induction keyframes with
  | nil => exact fun e r => rfl
  | cons k rest ih =>
    intro e r
    obtain ⟨i, k⟩ := k
    simp only [place, h.addMarker, Prod.map_fst, Prod.map_snd, ih]
    rfl

variable [Scalar α]

theorem shot_mapRenderer (h : AnswersAlike φ) (a : Animator ρ α) (active : Active) :
    (a.mapRenderer φ).shot active =
      (a.shot active).map fun s => { s with renderer := φ s.renderer } := by
  have hp : (a.mapRenderer φ).progress active = a.progress active := rfl
  have he : (a.mapRenderer φ).engine = a.engine := rfl
  have hr : (a.mapRenderer φ).renderer = φ a.renderer := rfl
  simp only [shot, hp, he, hr]
  cases a.engine.rotationAt active.gate (a.progress active) with
  | error fault => rfl
  | ok r =>
    simp only [place_mapRenderer h]
    rfl

theorem FrameStep.mapRenderer (h : AnswersAlike φ) {a : Animator ρ α} {generation : UInt64}
    {outcome : Except Fault Unit × Animator ρ α} (hf : FrameStep a generation outcome) :
    FrameStep (a.mapRenderer φ) generation (Prod.map id (Animator.mapRenderer φ) outcome) := by
  have alive (hl : a.Live generation) : (a.mapRenderer φ).Live generation := hl
  have activated {active : Active} {b : Animator ρ α} (hb : a.activate = some (active, b)) :
      (a.mapRenderer φ).activate = some (active, b.mapRenderer φ) := by
    rw [activate_mapRenderer, hb]
    rfl
  have taken {active : Active} {b : Animator ρ α} {s : Shot ρ α} (hs : b.shot active = .ok s) :
      (b.mapRenderer φ).shot active = .ok { s with renderer := φ s.renderer } := by
    rw [shot_mapRenderer h, hs]
    rfl
  have rendered {s : Shot ρ α} {result : Except Fault Unit} {r : ρ}
      (hr : Renderer.render s.renderer s.frame = (result, r)) :
      Renderer.render (φ s.renderer) s.frame = (result, φ r) := by
    rw [h.render, hr]
    rfl
  cases hf with
  | ignored hl => exact .ignored hl
  | drained hl hn => exact .drained (alive hl) (by rw [activate_mapRenderer, hn]; rfl)
  | blocked hl hb hs => exact .blocked (alive hl) (activated hb) (by rw [shot_mapRenderer h, hs]; rfl)
  | refused hl hb hs hr => exact .refused (alive hl) (activated hb) (taken hs) (rendered hr)
  | shown hl hb hs hr hc => exact .shown (alive hl) (activated hb) (taken hs) (rendered hr) hc
  | passed hl hb hs hr hc hp => exact .passed (alive hl) (activated hb) (taken hs) (rendered hr) hc hp
  | ended hl hb hs hr hc hp => exact .ended (alive hl) (activated hb) (taken hs) (rendered hr) hc hp

theorem frame_mapRenderer (h : AnswersAlike φ) (a : Animator ρ α) (generation : UInt64) :
    (a.mapRenderer φ).frame generation = Prod.map id (Animator.mapRenderer φ) (a.frame generation) :=
  ((a.frame_step generation).mapRenderer h).frame_eq

theorem reset_mapRenderer (h : AnswersAlike φ) (a : Animator ρ α) :
    (a.mapRenderer φ).reset = Prod.map id (mapRenderer φ) a.reset := by
  have hc : (Renderer.clear (a.mapRenderer φ).renderer : Except Fault Unit × σ) =
      Prod.map id φ (Renderer.clear a.renderer) := h.clear a.renderer
  unfold reset
  rw [hc]
  rcases (Renderer.clear a.renderer : Except Fault Unit × ρ) with ⟨_ | _, r⟩ <;> rfl

end Animator

namespace Stage

variable [Scalar α]

/-- The stage with the renderer of its animator shown as another one. -/
def mapRenderer (φ : ρ → σ) (s : Stage ρ α) : Stage σ α :=
  { s with animator := s.animator.mapRenderer φ }

theorem step_mapRenderer {φ : ρ → σ} (h : AnswersAlike φ) (s : Stage ρ α) (m : Move) :
    (s.mapRenderer φ).step m = (s.step m).mapRenderer φ := by
  cases m with
  | queue g =>
    show (s.mapRenderer φ).queue g = (s.queue g).mapRenderer φ
    have hq := s.animator.queue_mapRenderer φ g.code
    simp only [queue, mapRenderer, hq, Prod.map_fst, Prod.map_snd, id]
  | reset =>
    show (s.mapRenderer φ).reset = (s.reset).mapRenderer φ
    simp only [reset, mapRenderer, Animator.reset_mapRenderer h, Prod.map_snd]
  | clock now => rfl
  | take => rfl
  | fire i =>
    show (s.mapRenderer φ).fire i = (s.fire i).mapRenderer φ
    cases hg : s.batch[i]? with
    | none =>
      rw [fire_none hg]
      exact fire_none hg
    | some generation =>
      have hm := s.animator.frame_mapRenderer h generation
      rcases hf : s.animator.frame generation with ⟨fault | _, a⟩
      · rw [fire_error hg hf]
        rw [hf] at hm
        exact fire_error hg hm
      · rw [fire_ok hg hf]
        rw [hf] at hm
        exact fire_ok hg hm

/-- A run does the same whichever of the two renderers is there; in particular tracing the renderer
changes nothing. -/
theorem run_mapRenderer {φ : ρ → σ} (h : AnswersAlike φ) (moves : List Move) :
    ∀ s : Stage ρ α, (s.mapRenderer φ).run moves = (s.run moves).mapRenderer φ := by
  induction moves with
  | nil => exact fun s => rfl
  | cons m moves ih =>
    intro s
    show ((s.mapRenderer φ).step m).run moves = ((s.step m).run moves).mapRenderer φ
    rw [step_mapRenderer h, ih]

end Stage

end Tracing

end BlochSphere
