/-
Two animators in step. Requests are told apart by their numbers only, so nothing changes if all numbers
are larger by the same amount; callbacks of old generations do nothing, so only those of the present
generation count; and renderers that number their markers alike and refuse the same frames lead to the
same calls. An animator that agrees with another one in all that matters keeps agreeing with it.
-/
import BlochSphere.Proofs.Animation.Callback
import BlochSphere.Proofs.Animation.Trail

namespace BlochSphere

variable {ρ α : Type}

/-! ## Larger numbers -/

section Shift

variable (k : UInt64)

/-- The request with a number that is larger by `k`. -/
def Applied.shift (g : Applied) : Applied := { g with seq := g.seq + k }

def Active.shift (active : Active) : Active := { active with gate := active.gate.shift k }

def RotationPath.shift (p : RotationPath α) : RotationPath α := { p with gate := p.gate.shift k }

def Rotation.shift (r : Rotation α) : Rotation α := { r with gate := r.gate.shift k }

def Engine.shift (e : Engine α) : Engine α := { e with active := e.active.map (RotationPath.shift k) }

/-- The frame with the request that it shows shifted. A clearing shows none. -/
def Frame.shift (f : Frame α) : Frame α := if f.cleared then f else { f with gate := f.gate.shift k }

def Call.shift : Call α → Call α
  | marker m => marker m
  | shown f => shown (f.shift k)
  | refused f => refused (f.shift k)
  | clear => clear

theorem Frame.shift_of_shown {f : Frame α} (h : f.cleared = false) :
    f.shift k = { f with gate := f.gate.shift k } := if_neg (by rw [h]; nofun)

@[simp] theorem Frame.shift_trail (f : Frame α) : (f.shift k).trail = f.trail := by
  unfold shift
  split <;> rfl

@[simp] theorem Frame.shift_complete (f : Frame α) : (f.shift k).complete = f.complete := by
  unfold shift
  split <;> rfl

end Shift

namespace Engine

variable [Scalar α] (k : UInt64) (e : Engine α) (g : Applied)

theorem newPath_shift :
    (e.shift k).newPath (g.shift k) = (e.newPath g).map (RotationPath.shift k) := by
  have hcode : (g.shift k).code = g.code := rfl
  have hresolution : (e.shift k).resolution = e.resolution := rfl
  have hcurrent : (e.shift k).current = e.current := rfl
  simp only [newPath, hcode, hresolution, hcurrent]
  cases (g.code.turn : Except Fault (Quat α)) with
  | error fault => rfl
  | ok turn =>
    simp only
    split <;> rfl

theorem pathFor_shift :
    (e.shift k).pathFor (g.shift k) = (e.pathFor g).map (RotationPath.shift k) := by
  have hn := newPath_shift k e g
  unfold pathFor
  cases he : e.active with
  | none =>
    have hs : (e.shift k).active = none := by simp [shift, he]
    rw [hs]
    exact hn
  | some p =>
    have hs : (e.shift k).active = some (p.shift k) := by simp [shift, he]
    have hseq : (p.shift k).gate.seq = (g.shift k).seq ↔ p.gate.seq = g.seq := UInt64.add_left_inj k
    simp only [hs, hseq]
    split
    · rfl
    · exact hn

theorem rotationAt_shift (t : α) : (e.shift k).rotationAt (g.shift k) t =
    (e.rotationAt g t).map (Prod.map (Rotation.shift k) (Engine.shift k)) := by
  unfold rotationAt
  rw [pathFor_shift]
  cases e.pathFor g <;> rfl

omit [Scalar α] in
theorem markRendered_shift (index : Int) (handle : Handle) :
    (e.shift k).markRendered (g.shift k) index handle =
      Prod.map id (Engine.shift k) (e.markRendered g index handle) := by
  unfold markRendered
  cases he : e.active with
  | none =>
    have hs : (e.shift k).active = none := by simp [shift, he]
    rw [hs]
    rfl
  | some p =>
    have hs : (e.shift k).active = some (p.shift k) := by simp [shift, he]
    have hseq : (p.shift k).gate.seq = (g.shift k).seq ↔ p.gate.seq = g.seq := UInt64.add_left_inj k
    have hsize : (p.shift k).keyframes.size = p.keyframes.size := rfl
    simp only [hs, hseq, hsize]
    split <;> rfl

end Engine

/-! ## Batches and generations -/

namespace Animator

section Generations

variable [Scalar α] [Renderer ρ α]

/-- What every callback keeps is kept by a batch. -/
theorem runBatch_induction {P : Animator ρ α → Prop} (hf : ∀ a g, P a → P (a.frame g).2)
    (batch : List UInt64) : ∀ a, P a → P (runBatch batch a).2 := by
  induction batch with
  | nil => exact fun _ h => h
  | cons generation rest ih =>
    intro a h
    have hp := hf a generation h
    unfold runBatch
    generalize a.frame generation = outcome at hp
    obtain ⟨_ | _, b⟩ := outcome
    · exact hp
    · exact ih b hp

theorem step_snd (a : Animator ρ α) :
    a.step.2 = (runBatch a.callbacks.pending { a with callbacks := FrameQueue.empty }).2 := by
  simp only [step, FrameQueue.take]
  split <;> rename_i hr <;> rw [hr]

/-- The animator was reset `resets` times, and its callbacks are not from the future. -/
structure Dated (resets : Nat) (a : Animator ρ α) : Prop where
  generation : a.generation = UInt64.ofNat resets
  callbacks : ∀ g ∈ a.callbacks.pending, g.toNat ≤ resets

variable {resets : Nat} {a : Animator ρ α}

/-- A callback requests at most one callback, of the present generation. -/
theorem FrameStep.requests {generation : UInt64} {outcome : Except Fault Unit × Animator ρ α}
    (h : FrameStep a generation outcome) : outcome.2.callbacks = a.callbacks ∨
      outcome.2.callbacks = a.callbacks.request a.generation := by
  have kept {active : Active} {b : Animator ρ α} (hb : a.activate = some (active, b)) :
      b.callbacks = a.callbacks ∧ b.generation = a.generation := by
    rw [activate_eq hb]
    exact ⟨rfl, rfl⟩
  cases h with
  | ignored => exact .inl rfl
  | drained => exact .inl rfl
  | blocked _ hb _ => exact .inl (kept hb).1
  | refused _ hb _ _ => exact .inl (kept hb).1
  | @shown _ b _ _ _ hb _ _ _ =>
    right
    show b.callbacks.request b.generation = _
    rw [(kept hb).1, (kept hb).2]
  | @passed _ b _ _ _ hb _ _ _ _ =>
    right
    show b.callbacks.request b.generation = _
    rw [(kept hb).1, (kept hb).2]
  | ended _ hb _ _ _ _ => exact .inl (kept hb).1

omit [Scalar α] [Renderer ρ α] in
theorem Dated.request (h : a.Dated resets) : ∀ g ∈ (a.callbacks.request a.generation).pending,
    g.toNat ≤ resets := by
  intro g hg
  rcases List.mem_append.1 hg with hg | hg
  · exact h.callbacks g hg
  · rw [List.mem_singleton.1 hg, h.generation, UInt64.toNat_ofNat']
    exact Nat.mod_le _ _

theorem Dated.frame (generation : UInt64) (h : a.Dated resets) : (a.frame generation).2.Dated resets := by
  have hf := a.frame_step generation
  refine ⟨hf.kept.2.trans h.generation, ?_⟩
  rcases hf.requests with hc | hc
  · rw [hc]
    exact h.callbacks
  · rw [hc]
    exact h.request

theorem Dated.step (h : a.Dated resets) : a.step.2.Dated resets := by
  rw [step_snd]
  exact runBatch_induction (fun _ g hb => hb.frame g) _ _ ⟨h.generation, nofun⟩

omit [Scalar α] [Renderer ρ α] in
theorem Dated.queue (h : a.Dated resets) (code : GateCode) : (a.queue code).2.Dated resets := by
  rw [queue_eq]
  refine ⟨h.generation, ?_⟩
  cases a.phase with
  | idle => exact h.request
  | running => exact h.callbacks

theorem Dated.reset (h : a.Dated resets) : a.reset.2.Dated (resets + 1) := by
  obtain ⟨_, hr⟩ := reset_snd a
  rw [hr]
  refine ⟨?_, fun g hg => Nat.le_succ_of_le (h.callbacks g hg)⟩
  show a.generation + 1 = _
  rw [h.generation, UInt64.ofNat_add]
  rfl

/-- No callback of the next generation was requested. -/
def Fresh (a : Animator ρ α) : Prop := ∀ g ∈ a.callbacks.pending, g ≠ a.generation + 1

omit [Scalar α] [Renderer ρ α] in
/-- With numbers left for another generation, no callback of it was requested yet. -/
theorem Dated.fresh (h : a.Dated resets) (hr : resets + 1 < 2 ^ 64) : a.Fresh := by
  intro g hg he
  have hle := h.callbacks g hg
  -- the next generation is not wrapped around, so it is larger than any that was requested
  have hn : (a.generation + 1).toNat = resets + 1 := by
    rw [h.generation, UInt64.toNat_add, UInt64.toNat_ofNat']
    show (resets % 2 ^ 64 + 1) % 2 ^ 64 = resets + 1
    omega
  rw [he, hn] at hle
  omega

end Generations

end Animator

/-! ## Renderers -/

/-- A renderer that counts its markers, from zero after a clearing. Which frames it refuses does not
change while it is used. -/
class Restarting (ρ : Type) (α : outParam Type) [Scalar α] [Renderer ρ α] where
  next : ρ → Handle
  shows : ρ → Frame α → Except Fault Unit
  addMarker_handle : ∀ (r : ρ) (p : Vec3 α), (Renderer.addMarker r p).1 = next r
  addMarker_next : ∀ (r : ρ) (p : Vec3 α), next (Renderer.addMarker r p).2 = next r + 1
  addMarker_shows : ∀ (r : ρ) (p : Vec3 α), shows (Renderer.addMarker r p).2 = shows r
  render_result : ∀ (r : ρ) (f : Frame α), (Renderer.render r f).1 = shows r f
  render_next : ∀ (r : ρ) (f : Frame α), next (Renderer.render r f).2 = next r
  render_shows : ∀ (r : ρ) (f : Frame α), shows (Renderer.render r f).2 = shows r
  clear_result : ∀ r : ρ, (Renderer.clear r : Except Fault Unit × ρ).1 = shows r Frame.clearing
  clear_next : ∀ r : ρ, next (Renderer.clear r : Except Fault Unit × ρ).2 = 0
  clear_shows : ∀ r : ρ, shows (Renderer.clear r : Except Fault Unit × ρ).2 = shows r

variable [Scalar α] [Renderer ρ α] [Restarting ρ α]

/-- The renderers go on alike, if the requests shown to the first have numbers that are larger by `k`.
Before that the first one got the calls of `earlier`. -/
structure Alike (k : UInt64) (earlier : List (Call α)) (t t' : Traced ρ α) : Prop where
  next : Restarting.next t.renderer = Restarting.next t'.renderer
  shows : ∀ f, Restarting.shows t.renderer (f.shift k) = Restarting.shows t'.renderer f
  calls : t.calls = earlier ++ t'.calls.map (Call.shift k)

namespace Alike

variable {k : UInt64} {earlier : List (Call α)} {t t' : Traced ρ α}

theorem concat (h : Alike k earlier t t') {r r' : ρ} (call : Call α)
    (hn : Restarting.next r = Restarting.next r')
    (hs : Restarting.shows r = Restarting.shows t.renderer)
    (hs' : Restarting.shows r' = Restarting.shows t'.renderer) :
    Alike k earlier ⟨r, t.calls ++ [call.shift k]⟩ ⟨r', t'.calls ++ [call]⟩ := by
  refine ⟨hn, fun f => ?_, ?_⟩
  · rw [hs, hs']
    exact h.shows f
  · show t.calls ++ [call.shift k] = earlier ++ (t'.calls ++ [call]).map (Call.shift k)
    rw [h.calls, List.map_append, List.append_assoc]
    rfl

theorem addMarker (h : Alike k earlier t t') (p : Vec3 α) :
    (Renderer.addMarker t p).1 = (Renderer.addMarker t' p).1 ∧
      Alike k earlier (Renderer.addMarker t p).2 (Renderer.addMarker t' p).2 := by
  have hh : (Renderer.addMarker t.renderer p).1 = (Renderer.addMarker t'.renderer p).1 := by
    rw [Restarting.addMarker_handle, Restarting.addMarker_handle, h.next]
  have hn : Restarting.next (Renderer.addMarker t.renderer p).2 =
      Restarting.next (Renderer.addMarker t'.renderer p).2 := by
    rw [Restarting.addMarker_next, Restarting.addMarker_next, h.next]
  refine ⟨hh, ?_⟩
  have hc := h.concat (.marker ⟨(Renderer.addMarker t'.renderer p).1, p⟩) hn
    (Restarting.addMarker_shows _ _) (Restarting.addMarker_shows _ _)
  show Alike k earlier ⟨_, t.calls ++ [.marker ⟨(Renderer.addMarker t.renderer p).1, p⟩]⟩ ⟨_, _⟩
  rw [hh]
  exact hc

theorem render (h : Alike k earlier t t') (f : Frame α) :
    (Renderer.render t (f.shift k)).1 = (Renderer.render t' f).1 ∧
      Alike k earlier (Renderer.render t (f.shift k)).2 (Renderer.render t' f).2 := by
  have hn : Restarting.next (Renderer.render t.renderer (f.shift k)).2 =
      Restarting.next (Renderer.render t'.renderer f).2 := by
    rw [Restarting.render_next, Restarting.render_next, h.next]
  have hs := Restarting.render_shows t.renderer (f.shift k)
  have hs' := Restarting.render_shows t'.renderer f
  have hr : (Renderer.render t.renderer (f.shift k)).1 = (Renderer.render t'.renderer f).1 := by
    rw [Restarting.render_result, Restarting.render_result, h.shows]
  show (t.render (f.shift k)).1 = (t'.render f).1 ∧ Alike k earlier (t.render (f.shift k)).2 (t'.render f).2
  unfold Traced.render
  generalize (Renderer.render t.renderer (f.shift k)) = shown at hn hs hr
  generalize (Renderer.render t'.renderer f) = shown' at hn hs' hr
  obtain ⟨result, r⟩ := shown
  obtain ⟨result', r'⟩ := shown'
  obtain rfl : result = result' := hr
  cases result with
  | ok => exact ⟨rfl, h.concat (.shown f) hn hs hs'⟩
  | error fault => exact ⟨rfl, h.concat (.refused f) hn hs hs'⟩

theorem clear (h : Alike k earlier t t') :
    Alike k earlier (Renderer.clear t : Except Fault Unit × Traced ρ α).2
      (Renderer.clear t' : Except Fault Unit × Traced ρ α).2 := by
  have hn := (Restarting.clear_next t.renderer).trans (Restarting.clear_next t'.renderer).symm
  exact h.concat .clear hn (Restarting.clear_shows _) (Restarting.clear_shows _)

end Alike

/-! ## Animators -/

namespace Animator

variable {k : UInt64} {earlier : List (Call α)}

theorem place_shift (g : Applied) (keyframes : List (Nat × Keyframe α)) :
    ∀ (e : Engine α) (t t' : Traced ρ α), Alike k earlier t t' →
      (place (g.shift k) keyframes (e.shift k) t).1 = (place g keyframes e t').1 ∧
      (place (g.shift k) keyframes (e.shift k) t).2.1 = (place g keyframes e t').2.1.shift k ∧
      Alike k earlier (place (g.shift k) keyframes (e.shift k) t).2.2 (place g keyframes e t').2.2 := by
  induction keyframes with
  | nil => exact fun e t t' h => ⟨rfl, rfl, h⟩
  | cons d rest ih =>
    intro e t t' h
    obtain ⟨i, x⟩ := d
    obtain ⟨hh, ha⟩ := h.addMarker x.point
    obtain ⟨h1, h2, h3⟩ := ih (e.markRendered g i (Renderer.addMarker t' x.point).1).2 _ _ ha
    simp only [place, hh, Engine.markRendered_shift, Prod.map_snd]
    exact ⟨congrArg _ h1, h2, h3⟩

/-! ## What use does not change -/

theorem place_shows (g : Applied) (keyframes : List (Nat × Keyframe α)) :
    ∀ (e : Engine α) (t : Traced ρ α), Restarting.shows (place g keyframes e t).2.2.renderer =
      Restarting.shows t.renderer := by
  induction keyframes with
  | nil => exact fun _ _ => rfl
  | cons d rest ih =>
    intro e t
    obtain ⟨i, x⟩ := d
    simp only [place]
    rw [ih]
    exact Restarting.addMarker_shows _ _

/-- Since the time of `start` the animator was given `queued` requests, and neither its settings nor the
frames that its renderer refuses have changed. -/
structure Kept (a start : Animator (Traced ρ α) α) (queued : Nat) : Prop where
  seq : a.seq = start.seq + UInt64.ofNat queued
  duration : a.duration = start.duration
  resolution : a.engine.resolution = start.engine.resolution
  shows : Restarting.shows a.renderer.renderer = Restarting.shows start.renderer.renderer

section Kept

variable {start a : Animator (Traced ρ α) α} {queued : Nat}

omit [Restarting ρ α] in
theorem FrameStep.duration_eq {generation : UInt64} {outcome : Except Fault Unit × Animator (Traced ρ α) α}
    (h : FrameStep a generation outcome) : outcome.2.duration = a.duration := by
  have same {active : Active} {b : Animator (Traced ρ α) α} (hb : a.activate = some (active, b)) :
      b.duration = a.duration := by
    rw [activate_eq hb]
  cases h with
  | ignored => rfl
  | drained => rfl
  | blocked _ hb _ => exact same hb
  | refused _ hb _ _ => exact (same hb :)
  | shown _ hb _ _ _ => exact (same hb :)
  | passed _ hb _ _ _ _ => exact (same hb :)
  | ended _ hb _ _ _ _ => exact (same hb :)

theorem Kept.frame (generation : UInt64) (h : a.Kept start queued) :
    (a.frame generation).2.Kept start queued := by
  have hf := a.frame_step generation
  refine ⟨hf.kept.1.trans h.seq, hf.duration_eq.trans h.duration, hf.resolution_eq.trans h.resolution, ?_⟩
  rw [← h.shows]
  rcases hf.hands with ⟨_, hr⟩ | ⟨active, b, s, result, r, hb, hs, hrender, _, hr⟩
  · rw [hr]
  · obtain ⟨turned, hshot⟩ := shot_spec hs
    have hplace := place_shows active.gate (due s.rotation) turned b.renderer
    have hafter : r.renderer = (Renderer.render s.renderer.renderer s.frame).2 := by
      have hm := Traced.answersAlike.render s.renderer s.frame
      rw [hrender] at hm
      rw [hm]
      rfl
    have hba : b.renderer = a.renderer := by rw [activate_eq hb]
    rw [hshot.placed, hba] at hplace
    rw [hr, hafter, Restarting.render_shows]
    exact hplace

theorem Kept.step (h : a.Kept start queued) : a.step.2.Kept start queued := by
  rw [step_snd]
  exact runBatch_induction (P := fun b => b.Kept start queued) (fun _ g hb => hb.frame g) _ _
    ⟨h.seq, h.duration, h.resolution, h.shows⟩

theorem Kept.queue (h : a.Kept start queued) (code : GateCode) :
    (a.queue code).2.Kept start (queued + 1) := by
  rw [queue_eq]
  refine ⟨?_, h.duration, h.resolution, h.shows⟩
  show a.seq + 1 = _
  rw [h.seq, UInt64.ofNat_add, UInt64.add_assoc]
  rfl

theorem Kept.reset (h : a.Kept start queued) : a.reset.2.Kept start queued := by
  obtain ⟨_, hr⟩ := reset_snd a
  rw [hr]
  refine ⟨h.seq, h.duration, h.resolution, ?_⟩
  rw [← h.shows]
  exact Restarting.clear_shows _

end Kept

/-! ## Agreement -/

/-- The first animator agrees with the second but for numbers that are larger by `k`, callbacks that
do nothing, metrics, and what its renderer was told `earlier`. -/
structure Renews (k : UInt64) (earlier : List (Call α)) (a b : Animator (Traced ρ α) α) : Prop where
  duration : a.duration = b.duration
  now : a.now = b.now
  phase : a.phase = b.phase
  trail : a.trail = b.trail
  seq : a.seq = b.seq + k
  pending : a.pending = b.pending.map (Applied.shift k)
  active : a.active = b.active.map (Active.shift k)
  engine : a.engine = b.engine.shift k
  renderer : Alike k earlier a.renderer b.renderer
  live : a.callbacks.pending.count a.generation = b.callbacks.pending.count b.generation

variable {a b b' : Animator (Traced ρ α) α} {active : Active}

theorem Renews.activate_none (h : a.Renews k earlier b) (hb : b.activate = none) : a.activate = none := by
  obtain ⟨h1, h2⟩ := activate_eq_none.1 hb
  refine activate_eq_none.2 ⟨?_, ?_⟩
  · rw [h.active, h1]
    rfl
  · rw [h.pending, h2]
    rfl

theorem Renews.activate (h : a.Renews k earlier b) (hb : b.activate = some (active, b')) :
    ∃ a', a.activate = some (active.shift k, a') ∧ a'.Renews k earlier b' ∧
      a'.generation = a.generation ∧ a'.pending = b'.pending.map (Applied.shift k) := by
  rcases activate_cases hb with ⟨hactive, rfl⟩ | ⟨hnone, hpending, hstart, heq⟩
  · refine ⟨a, activate_of_active ?_, h, rfl, h.pending⟩
    rw [h.active, hactive]
    rfl
  · have ha : a.active = none := by
      rw [h.active, hnone]
      rfl
    have hp : a.pending = active.gate.shift k :: b'.pending.map (Applied.shift k) := by
      rw [h.pending, hpending]
      rfl
    have hnow : (⟨active.gate.shift k, a.now⟩ : Active) = active.shift k := by
      rw [h.now, ← hstart]
      rfl
    have hactivate := activate_of_pending ha hp
    rw [hnow] at hactivate
    refine ⟨_, hactivate, ?_, rfl, rfl⟩
    rw [heq]
    exact ⟨h.duration, h.now, h.phase, h.trail, h.seq, rfl, rfl, h.engine, h.renderer, h.live⟩

theorem Renews.progress (h : a.Renews k earlier b) (active : Active) :
    a.progress (active.shift k) = b.progress active := by
  unfold Animator.progress
  rw [h.now, h.duration]
  rfl

theorem Renews.rotationAt (h : a.Renews k earlier b) (active : Active) :
    a.engine.rotationAt (active.shift k).gate (b.progress active) =
      (b.engine.rotationAt active.gate (b.progress active)).map
        (Prod.map (Rotation.shift k) (Engine.shift k)) := by
  rw [h.engine]
  exact Engine.rotationAt_shift _ _ _ _

theorem Renews.shot_error (h : a.Renews k earlier b) {fault : Fault} (hs : b.shot active = .error fault) :
    a.shot (active.shift k) = .error fault := by
  rw [Animator.shot_error] at hs ⊢
  rw [h.progress, h.rotationAt, hs]
  rfl

/-- The shots of the two are the same but for the number of the request. -/
theorem Renews.shot (h : a.Renews k earlier b) {s : Shot (Traced ρ α) α} (hs : b.shot active = .ok s) :
    ∃ s', a.shot (active.shift k) = .ok s' ∧ s'.elapsed = s.elapsed ∧ s'.frame = s.frame.shift k ∧
      s'.engine = s.engine.shift k ∧ Alike k earlier s'.renderer s.renderer := by
  have hqueued : a.pending.length = b.pending.length := by
    rw [h.pending, List.length_map]
  have hr' := h.rotationAt active
  unfold Animator.shot at hs
  split at hs
  · cases hs
  · rename_i rotation engine hr
    cases hs
    rw [hr] at hr'
    -- the same keyframes are due, and the renderers give them the same handles
    obtain ⟨h1, h2, h3⟩ := place_shift active.gate (due rotation) engine _ _ h.renderer
    change (place (active.shift k).gate (due (rotation.shift k)) (engine.shift k) a.renderer).1 = _ at h1
    simp only [Animator.shot, h.progress, hr', Except.map, Prod.map, h1, hqueued, h.trail]
    refine ⟨_, rfl, ?_, ?_, h2, h3⟩
    · rw [h.now]
      rfl
    · rw [Frame.shift_of_shown k rfl]
      rfl

theorem Renews.requestFrame (h : a.Renews k earlier b) :
    a.requestFrame.Renews k earlier b.requestFrame := by
  refine ⟨h.duration, h.now, h.phase, h.trail, h.seq, h.pending, h.active, h.engine, h.renderer, ?_⟩
  show (a.callbacks.pending ++ [a.generation]).count a.generation =
    (b.callbacks.pending ++ [b.generation]).count b.generation
  rw [List.count_append, List.count_append, h.live, List.count_singleton_self, List.count_singleton_self]

/-- A shot of the one is exposed as that of the other is. -/
theorem Renews.expose (h : a.Renews k earlier b) {s : Shot (Traced ρ α) α} {result : Except Fault Unit}
    {r : Traced ρ α} (hb : b.activate = some (active, b')) (hs : b'.shot active = .ok s)
    (hr : Renderer.render s.renderer s.frame = (result, r)) :
    ∃ a' s' r', a.activate = some (active.shift k, a') ∧ a'.shot (active.shift k) = .ok s' ∧
      Renderer.render s'.renderer s'.frame = (result, r') ∧ s'.frame.complete = s.frame.complete ∧
      a'.pending = b'.pending.map (Applied.shift k) ∧ (a'.expose s' r').Renews k earlier (b'.expose s r) := by
  obtain ⟨a', ha, hrenews, _, hpending⟩ := h.activate hb
  obtain ⟨s', hs', _, hframe, hengine, halike⟩ := hrenews.shot hs
  obtain ⟨hresult, hafter⟩ := halike.render s.frame
  rw [hr] at hresult hafter
  rw [← hframe] at hresult hafter
  refine ⟨a', s', (Renderer.render s'.renderer s'.frame).2, ha, hs', Prod.ext hresult rfl, ?_, hpending, ?_⟩
  · rw [hframe, Frame.shift_complete]
  · refine ⟨hrenews.duration, hrenews.now, hrenews.phase, ?_, hrenews.seq, hpending, hrenews.active,
      hengine, hafter, hrenews.live⟩
    show s'.frame.trail = s.frame.trail
    rw [hframe, Frame.shift_trail]

/-- A callback of the present generation does the same to both. -/
theorem FrameStep.renews (h : a.Renews k earlier b)
    {outcome : Except Fault Unit × Animator (Traced ρ α) α} (hf : FrameStep b b.generation outcome) :
    ∃ outcome', FrameStep a a.generation outcome' ∧ outcome'.1 = outcome.1 ∧
      outcome'.2.Renews k earlier outcome.2 := by
  have alive (hl : b.Live b.generation) : a.Live a.generation := ⟨rfl, h.phase.trans hl.2⟩
  cases hf with
  | ignored hn =>
    exact ⟨_, .ignored fun hl => hn ⟨rfl, h.phase.symm.trans hl.2⟩, rfl, h⟩
  | drained hl hn =>
    refine ⟨_, .drained (alive hl) (h.activate_none hn), rfl, ?_⟩
    exact ⟨h.duration, h.now, rfl, h.trail, h.seq, h.pending, h.active, h.engine, h.renderer, h.live⟩
  | blocked hl hb hs =>
    obtain ⟨a', ha, hrenews, _, _⟩ := h.activate hb
    exact ⟨_, .blocked (alive hl) ha (hrenews.shot_error hs), rfl, hrenews⟩
  | refused hl hb hs hr =>
    obtain ⟨a', s', r', ha, hs', hr', _, _, hrenews⟩ := h.expose hb hs hr
    exact ⟨_, .refused (alive hl) ha hs' hr', rfl, hrenews⟩
  | shown hl hb hs hr hc =>
    obtain ⟨a', s', r', ha, hs', hr', hcomplete, _, hrenews⟩ := h.expose hb hs hr
    refine ⟨_, .shown (alive hl) ha hs' hr' (hcomplete.trans hc), rfl, Renews.requestFrame ?_⟩
    exact ⟨hrenews.duration, hrenews.now, hrenews.phase, hrenews.trail, hrenews.seq, hrenews.pending,
      hrenews.active, hrenews.engine, hrenews.renderer, hrenews.live⟩
  | passed hl hb hs hr hc hp =>
    obtain ⟨a', s', r', ha, hs', hr', hcomplete, hpending, hrenews⟩ := h.expose hb hs hr
    have hp' : a'.pending ≠ [] := by
      rw [hpending]
      exact fun hnil => hp (List.map_eq_nil_iff.1 hnil)
    refine ⟨_, .passed (alive hl) ha hs' hr' (hcomplete.trans hc) hp', rfl, Renews.requestFrame ?_⟩
    exact ⟨hrenews.duration, hrenews.now, hrenews.phase, hrenews.trail, hrenews.seq, hrenews.pending,
      rfl, hrenews.engine, hrenews.renderer, hrenews.live⟩
  | ended hl hb hs hr hc hp =>
    obtain ⟨a', s', r', ha, hs', hr', hcomplete, hpending, hrenews⟩ := h.expose hb hs hr
    have hp' : a'.pending = [] := by
      rw [hpending, hp]
      rfl
    refine ⟨_, .ended (alive hl) ha hs' hr' (hcomplete.trans hc) hp', rfl, ?_⟩
    exact ⟨hrenews.duration, hrenews.now, rfl, hrenews.trail, hrenews.seq, hrenews.pending,
      rfl, hrenews.engine, hrenews.renderer, hrenews.live⟩

theorem Renews.frame (h : a.Renews k earlier b) :
    (a.frame a.generation).1 = (b.frame b.generation).1 ∧
      (a.frame a.generation).2.Renews k earlier (b.frame b.generation).2 := by
  obtain ⟨outcome, hf, hresult, hrenews⟩ := (b.frame_step b.generation).renews h
  rw [hf.frame_eq]
  exact ⟨hresult, hrenews⟩

/-- Runs `n` callbacks of the present generation. A fault ends the batch. -/
def runLive : Nat → Animator (Traced ρ α) α → Except Fault Unit × Animator (Traced ρ α) α
  | 0, a => (.ok (), a)
  | n + 1, a =>
    match a.frame a.generation with
    | (.error fault, a) => (.error fault, a)
    | (.ok (), a) => runLive n a

omit [Restarting ρ α] in
/-- Of a batch only the callbacks of the present generation count. -/
theorem runBatch_eq (batch : List UInt64) :
    ∀ a : Animator (Traced ρ α) α, runBatch batch a = runLive (batch.count a.generation) a := by
  induction batch with
  | nil => exact fun _ => rfl
  | cons generation rest ih =>
    intro a
    by_cases hg : generation = a.generation
    · subst hg
      have hkept := (a.frame_step a.generation).kept.2
      rw [List.count_cons_self]
      -- a callback does not change the generation, so the rest is counted by the same one
      unfold runBatch runLive
      generalize a.frame a.generation = outcome at hkept
      obtain ⟨_ | _, c⟩ := outcome
      · rfl
      · simp only
        rw [ih, hkept]
    · have hi : a.frame generation = (.ok (), a) := frame_of_not_live fun hl => hg hl.1
      rw [List.count_cons_of_ne hg, ← ih]
      simp only [runBatch, hi]

theorem Renews.runLive (n : Nat) : ∀ {a b : Animator (Traced ρ α) α}, a.Renews k earlier b →
    (a.runLive n).2.Renews k earlier (b.runLive n).2 := by
  induction n with
  | zero => exact fun h => h
  | succ n ih =>
    intro a b h
    obtain ⟨hresult, hrenews⟩ := h.frame
    unfold Animator.runLive
    generalize a.frame a.generation = outcome at hresult hrenews
    generalize b.frame b.generation = outcome' at hresult hrenews
    obtain ⟨result, c⟩ := outcome
    obtain ⟨result', c'⟩ := outcome'
    obtain rfl : result = result' := hresult
    cases result with
    | error fault => exact hrenews
    | ok => exact ih hrenews

theorem Renews.step (h : a.Renews k earlier b) : a.step.2.Renews k earlier b.step.2 := by
  rw [step_snd, step_snd, runBatch_eq, runBatch_eq]
  show (Animator.runLive (a.callbacks.pending.count a.generation) _).2.Renews k earlier
    (Animator.runLive (b.callbacks.pending.count b.generation) _).2
  rw [h.live]
  apply Renews.runLive
  exact ⟨h.duration, h.now, h.phase, h.trail, h.seq, h.pending, h.active, h.engine, h.renderer, rfl⟩

/-! ## Requests and resets -/

theorem Renews.queue (h : a.Renews k earlier b) (code : GateCode) :
    (a.queue code).2.Renews k earlier (b.queue code).2 := by
  have hs : a.seq + 1 = b.seq + 1 + k := by
    rw [h.seq, UInt64.add_assoc, UInt64.add_comm k 1, ← UInt64.add_assoc]
  have hp : a.pending ++ [(⟨a.seq + 1, code⟩ : Applied)] =
      (b.pending ++ [(⟨b.seq + 1, code⟩ : Applied)]).map (Applied.shift k) := by
    rw [hs, h.pending, List.map_append]
    rfl
  rw [queue_eq, queue_eq, h.phase]
  refine ⟨h.duration, h.now, rfl, h.trail, hs, hp, h.active, h.engine, h.renderer, ?_⟩
  cases b.phase with
  | idle => exact h.requestFrame.live
  | running => exact h.live

theorem Renews.reset (h : a.Renews k earlier b) (ha : a.Fresh) (hb : b.Fresh) :
    a.reset.2.Renews k earlier b.reset.2 := by
  obtain ⟨_, hra⟩ := reset_snd a
  obtain ⟨_, hrb⟩ := reset_snd b
  have none (c : Animator (Traced ρ α) α) (hc : c.Fresh) :
      c.callbacks.pending.count (c.generation + 1) = 0 :=
    List.count_eq_zero.2 fun hm => hc _ hm rfl
  rw [hra, hrb]
  refine ⟨h.duration, h.now, rfl, rfl, h.seq, rfl, rfl, ?_, h.renderer.clear, ?_⟩
  · show a.engine.reset = b.engine.reset.shift k
    rw [h.engine]
    rfl
  · exact (none a ha).trans (none b hb).symm

end Animator

end BlochSphere
