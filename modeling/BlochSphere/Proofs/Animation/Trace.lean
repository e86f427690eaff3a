/-
What a renderer is told. A traced renderer passes everything on to another one and keeps the list
of calls; tracing changes nothing else. From the calls we read the frames published and those refused
since the last clearing, and the requests that the published ones completed: with the active and the
pending requests these are all the work an animator was given.
-/
import BlochSphere.Proofs.Animation.Step

namespace BlochSphere

/-- A call that a renderer got, with its outcome: a frame is either shown or refused. -/
inductive Call (α : Type) where
  | marker (m : Marker α)
  | shown (frame : Frame α)
  | refused (frame : Frame α)
  | clear

/-- A renderer together with the calls that it got, in their order. -/
structure Traced (ρ α : Type) where
  renderer : ρ
  calls : List (Call α)

namespace Traced

variable {ρ α : Type} [Renderer ρ α]

def addMarker (t : Traced ρ α) (p : Vec3 α) : Handle × Traced ρ α :=
  let (handle, r) := Renderer.addMarker t.renderer p
  (handle, ⟨r, t.calls ++ [.marker ⟨handle, p⟩]⟩)

def render (t : Traced ρ α) (frame : Frame α) : Except Fault Unit × Traced ρ α :=
  match Renderer.render t.renderer frame with
  | (.ok (), r) => (.ok (), ⟨r, t.calls ++ [.shown frame]⟩)
  | (.error fault, r) => (.error fault, ⟨r, t.calls ++ [.refused frame]⟩)

def clear (t : Traced ρ α) : Except Fault Unit × Traced ρ α :=
  let (result, r) := Renderer.clear t.renderer
  (result, ⟨r, t.calls ++ [.clear]⟩)

instance : Renderer (Traced ρ α) α := ⟨addMarker, render, clear⟩

theorem render_ok {t t' : Traced ρ α} {frame : Frame α}
    (h : Renderer.render t frame = (.ok (), t')) : t'.calls = t.calls ++ [.shown frame] := by
  change render t frame = _ at h
  unfold render at h
  split at h
  · cases h
    rfl
  · cases h

theorem render_error {t t' : Traced ρ α} {frame : Frame α} {fault : Fault}
    (h : Renderer.render t frame = (.error fault, t')) : t'.calls = t.calls ++ [.refused frame] := by
  change render t frame = _ at h
  unfold render at h
  split at h
  · cases h
  · cases h
    rfl

theorem clear_calls (t : Traced ρ α) :
    (Renderer.clear t : Except Fault Unit × Traced ρ α).2.calls = t.calls ++ [.clear] := rfl

end Traced

/-! ## Published frames -/

namespace Call

variable {α : Type}

/-- The frames that one more call leaves published since the last clearing. -/
def publish (frames : List (Frame α)) : Call α → List (Frame α)
  | marker _ => frames
  | shown frame => frames ++ [frame]
  | refused _ => frames
  | clear => []

/-- The frames published since the last clearing, in their order. -/
def published (calls : List (Call α)) : List (Frame α) := calls.foldl publish []

theorem published_concat (calls : List (Call α)) (call : Call α) :
    published (calls ++ [call]) = publish (published calls) call := by
  unfold published
  rw [List.foldl_append, List.foldl_cons, List.foldl_nil]

/-- One more call's part in `spoiled`. -/
def spoil (requests : List Applied) : Call α → List Applied
  | marker _ => requests
  | shown frame => if frame.complete then [] else requests
  | refused frame => if frame.complete then [frame.gate] else requests
  | clear => []

/-- The request, if any, whose completing frame was refused and which was not completed after that,
since the last clearing. -/
def spoiled (calls : List (Call α)) : List Applied := calls.foldl spoil []

theorem spoiled_concat (calls : List (Call α)) (call : Call α) :
    spoiled (calls ++ [call]) = spoil (spoiled calls) call := by
  unfold spoiled
  rw [List.foldl_append, List.foldl_cons, List.foldl_nil]

/-- Without a refused completing frame no request is spoiled. -/
theorem spoiled_eq_nil {calls : List (Call α)}
    (h : ∀ frame, refused frame ∈ calls → frame.complete = false) : spoiled calls = [] := by
  induction calls with
  | nil => rfl
  | cons call calls ih =>
    have hc : spoil [] call = [] := by
      cases call with
      | marker => rfl
      | shown frame => exact ite_self _
      | refused frame =>
        show (if frame.complete then [frame.gate] else []) = []
        rw [h frame List.mem_cons_self]
        rfl
      | clear => rfl
    unfold spoiled
    rw [List.foldl_cons, hc]
    exact ih fun frame hm => h frame (List.mem_cons_of_mem _ hm)

/-- The frames that one more call leaves refused since the last clearing. -/
def refuse (frames : List (Frame α)) : Call α → List (Frame α)
  | marker _ => frames
  | shown _ => frames
  | refused frame => frames ++ [frame]
  | clear => []

/-- The frames refused since the last clearing, in their order. -/
def refusals (calls : List (Call α)) : List (Frame α) := calls.foldl refuse []

theorem refusals_concat (calls : List (Call α)) (call : Call α) :
    refusals (calls ++ [call]) = refuse (refusals calls) call := by
  unfold refusals
  rw [List.foldl_append, List.foldl_cons, List.foldl_nil]

/-- Markers count for nothing in a reading of the calls that skips each of them. -/
theorem foldl_markers {σ : Type} {f : σ → Call α → σ} (hf : ∀ s m, f s (marker m) = s)
    (calls : List (Call α)) (markers : List (Marker α)) (init : σ) :
    (calls ++ markers.map marker).foldl f init = calls.foldl f init := by
  rw [List.foldl_append, List.foldl_map]
  induction markers with
  | nil => rfl
  | cons m markers ih =>
    rw [List.foldl_cons, hf]
    exact ih

end Call

/-- The requests that a list of frames completes. -/
def completions {α : Type} (frames : List (Frame α)) : List Applied :=
  (frames.filter Frame.complete).map Frame.gate

theorem completions_concat {α : Type} (frames : List (Frame α)) (frame : Frame α) :
    completions (frames ++ [frame]) =
      if frame.complete then completions frames ++ [frame.gate] else completions frames := by
  unfold completions
  rw [List.filter_append]
  cases h : frame.complete <;> simp [h]

namespace Animator

variable {ρ α : Type}

/-- The frames published since the last reset. -/
def frames (a : Animator (Traced ρ α) α) : List (Frame α) := Call.published a.renderer.calls

/-- The requests completed since the last reset. -/
def completed (a : Animator (Traced ρ α) α) : List Applied := completions a.frames

/-- The request, if any, whose completing frame was refused since the last reset and which was not
completed after that. -/
def spoiled (a : Animator (Traced ρ α) α) : List Applied := Call.spoiled a.renderer.calls

/-- The frames refused since the last reset. -/
def refusals (a : Animator (Traced ρ α) α) : List (Frame α) := Call.refusals a.renderer.calls

/-- All requests since the last reset, as far as the animator knows: the completed ones, the active
one and the pending ones. -/
def work (a : Animator (Traced ρ α) α) : List Applied := a.completed ++ a.current ++ a.pending

variable [Renderer ρ α]

/-- The markers of a frame are placed one by one, and nothing else is told to the renderer. -/
theorem place_calls (g : Applied) (keyframes : List (Nat × Keyframe α)) :
    ∀ (e : Engine α) (t : Traced ρ α), (place g keyframes e t).2.2.calls =
      t.calls ++ (place g keyframes e t).1.map Call.marker := by
  induction keyframes with
  | nil =>
    intro e t
    exact (List.append_nil _).symm
  | cons k rest ih =>
    intro e t
    obtain ⟨i, k⟩ := k
    simp only [place]
    rw [ih, List.map_cons, List.append_cons]
    rfl

variable [Scalar α]

/-- A shot places markers and tells the renderer nothing else. -/
theorem shot_calls {a : Animator (Traced ρ α) α} {active : Active} {s : Shot (Traced ρ α) α}
    (h : a.shot active = .ok s) :
    s.renderer.calls = a.renderer.calls ++ s.frame.newMarkers.map Call.marker := by
  obtain ⟨turned, hs⟩ := shot_spec h
  have hc := place_calls active.gate (due s.rotation) turned a.renderer
  rw [hs.placed] at hc
  exact hc

/-- A reading of the calls that skips markers is the same after a shot. -/
theorem shot_foldl {σ : Type} {f : σ → Call α → σ} (hf : ∀ x m, f x (.marker m) = x)
    {a : Animator (Traced ρ α) α} {active : Active} {s : Shot (Traced ρ α) α} (h : a.shot active = .ok s) (init : σ) :
    s.renderer.calls.foldl f init = a.renderer.calls.foldl f init := by
  rw [shot_calls h]
  exact Call.foldl_markers hf _ _ init

theorem shot_published {a : Animator (Traced ρ α) α} {active : Active} {s : Shot (Traced ρ α) α}
    (h : a.shot active = .ok s) : Call.published s.renderer.calls = a.frames :=
  shot_foldl (fun _ _ => rfl) h []

theorem shot_spoiled {a : Animator (Traced ρ α) α} {active : Active} {s : Shot (Traced ρ α) α}
    (h : a.shot active = .ok s) : Call.spoiled s.renderer.calls = a.spoiled :=
  shot_foldl (fun _ _ => rfl) h []

theorem shot_refusals {a : Animator (Traced ρ α) α} {active : Active} {s : Shot (Traced ρ α) α}
    (h : a.shot active = .ok s) : Call.refusals s.renderer.calls = a.refusals :=
  shot_foldl (fun _ _ => rfl) h []

/-- A frame that the renderer takes is published. -/
theorem expose_shown {a : Animator (Traced ρ α) α} {active : Active} {s : Shot (Traced ρ α) α}
    {t : Traced ρ α} (hs : a.shot active = .ok s)
    (hr : Renderer.render s.renderer s.frame = (.ok (), t)) :
    (a.expose s t).frames = a.frames ++ [s.frame] := by
  show Call.published t.calls = _
  rw [Traced.render_ok hr, Call.published_concat, shot_published hs]
  rfl

/-- A frame that the renderer refuses is not. -/
theorem expose_refused {a : Animator (Traced ρ α) α} {active : Active} {s : Shot (Traced ρ α) α}
    {t : Traced ρ α} {fault : Fault} (hs : a.shot active = .ok s)
    (hr : Renderer.render s.renderer s.frame = (.error fault, t)) :
    (a.expose s t).frames = a.frames := by
  show Call.published t.calls = _
  rw [Traced.render_error hr, Call.published_concat, shot_published hs]
  rfl

end Animator

end BlochSphere
