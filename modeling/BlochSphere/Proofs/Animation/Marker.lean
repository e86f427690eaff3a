/-
One marker for every keyframe. After every run the trail consists of all keyframes of the completed
requests and of those keyframes of the request being shown that any of its frames has reached, each
of them once and in order, without the keyframes where the paths start; the renderer was asked for
exactly these markers. It does not matter how the clock moves between the frames.
-/
import BlochSphere.Proofs.Animation.Commit
import BlochSphere.Proofs.Animation.Keyframe
import BlochSphere.Proofs.Animation.Trail
import BlochSphere.Proofs.Scalar.WholeNumbers

namespace BlochSphere

variable {ρ α : Type}

/-! ## Markers and frames among the calls -/

namespace Call

/-- One more call's part in `placed`. -/
def stick (markers : List (Marker α)) : Call α → List (Marker α)
  | marker m => markers ++ [m]
  | shown _ => markers
  | refused _ => markers
  | clear => []

/-- The markers placed since the last clearing, in their order. -/
def placed (calls : List (Call α)) : List (Marker α) := calls.foldl stick []

theorem placed_concat (calls : List (Call α)) (call : Call α) :
    placed (calls ++ [call]) = stick (placed calls) call := by
  unfold placed
  rw [List.foldl_append, List.foldl_cons, List.foldl_nil]

theorem placed_markers (markers : List (Marker α)) :
    ∀ calls : List (Call α), placed (calls ++ markers.map marker) = placed calls ++ markers := by
  induction markers with
  | nil =>
    intro calls
    rw [List.map_nil, List.append_nil, List.append_nil]
  | cons m markers ih =>
    intro calls
    rw [List.map_cons, List.append_cons, ih, placed_concat, List.append_cons]
    rfl

/-- One more call's part in `attempts`. -/
def attempt (frames : List (Frame α)) : Call α → List (Frame α)
  | marker _ => frames
  | shown frame => if frame.complete then [] else frames ++ [frame]
  | refused frame => frames ++ [frame]
  | clear => []

/-- The frames handed to the renderer since a request was completed or the picture was cleared. -/
def attempts (calls : List (Call α)) : List (Frame α) := calls.foldl attempt []

theorem attempts_concat (calls : List (Call α)) (call : Call α) :
    attempts (calls ++ [call]) = attempt (attempts calls) call := by
  unfold attempts
  rw [List.foldl_append, List.foldl_cons, List.foldl_nil]

end Call

/-! ## How far frames got -/

section Reach

variable [Scalar α]

/-- How many keyframes of a path of `n` steps are reached at the progress of a frame. -/
def Frame.reached (n : Nat) (f : Frame α) : Nat :=
  Engine.reachedAt n (n + 1) (Scalar.clamp 0 1 f.progress)

/-- How many steps of a path of `n` steps the furthest of the frames took. -/
def furthest (n : Nat) (frames : List (Frame α)) : Nat :=
  frames.foldl (fun k f => max k (f.reached n - 1)) 0

theorem furthest_concat (n : Nat) (frames : List (Frame α)) (f : Frame α) :
    furthest n (frames ++ [f]) = max (furthest n frames) (f.reached n - 1) := by
  unfold furthest
  rw [List.foldl_append, List.foldl_cons, List.foldl_nil]

theorem Frame.reached_le (n : Nat) (f : Frame α) : f.reached n ≤ n + 1 := by
  unfold reached Engine.reachedAt
  simp only
  split <;> omega

/-- At the end every keyframe is reached. -/
theorem Frame.reached_of_complete [LawfulUnit α] [ExactSteps α] {n : Nat} (hn : n ≤ 2 ^ 53)
    {f : Frame α} (h : 1 ≤ f.progress) : f.reached n = n + 1 := by
  have hc : Scalar.clamp 0 1 f.progress = 1 := by
    unfold Scalar.clamp
    rw [if_neg (LawfulUnit.not_le_zero _ h), if_pos h]
  have hr : (Scalar.floor ((1 : α) * Scalar.ofInt n) + 1).toNat = n + 1 := by
    rw [ExactSteps.floor_one_mul n hn]
    omega
  unfold reached Engine.reachedAt
  rw [hc]
  simp only [hr]
  exact if_neg (Nat.lt_irrefl _)

/-- Where the trail leads: through all keyframes of the completed requests, and `k` steps along the
path of the current one. -/
def Applied.visited (n : Nat) (completed current : List Applied) (k : Nat) : List (Vec3 α) :=
  tour n Quat.identity (Applied.gates completed) ++
    (Applied.gates current).flatMap fun g => g.stops (Applied.turned completed) n k

theorem Applied.gates_singleton {g : Applied} {gate : Gate} (h : g.code = gate.code) :
    Applied.gates [g] = [gate] := by
  unfold Applied.gates
  rw [List.filterMap_cons, h, GateCode.gate?_code, List.filterMap_nil]

theorem Applied.visited_current {g : Applied} {gate : Gate} (h : g.code = gate.code) (n : Nat)
    (completed : List Applied) (k : Nat) : (Applied.visited n completed [g] k : List (Vec3 α)) =
      tour n Quat.identity (Applied.gates completed) ++ gate.stops (Applied.turned completed) n k := by
  unfold visited
  rw [gates_singleton h, List.flatMap_singleton]

/-- A request that went all its steps is completed. -/
theorem Applied.visited_complete {g : Applied} {gate : Gate} (h : g.code = gate.code) (n : Nat)
    (completed : List Applied) (k : Nat) : (Applied.visited n (completed ++ [g]) [] k : List (Vec3 α)) =
      Applied.visited n completed [g] n := by
  have hg : Applied.gates (completed ++ [g]) = Applied.gates completed ++ [gate] := by
    rw [← gates_singleton h, Applied.gates, List.filterMap_append]
    rfl
  rw [visited_current h]
  unfold visited
  rw [hg, tour_concat]
  exact List.append_nil _

end Reach

/-! ## The path of the request being shown -/

/-- What an engine knows of the markers of the request being shown, given the frames of it that were
handed to the renderer. -/
inductive Drawn [Scalar α] (n : Nat) (e : Engine α) (completed : List Applied) :
    Option Active → List (Frame α) → Prop where
  -- it has no path yet, or there is no such request
  | untouched {active : Option Active}
    (h : ∀ p x, e.active = some p → active = some x → p.gate.seq ≠ x.gate.seq) :
    Drawn n e completed active []
  -- its path is in flight, and inked as far as its frames got
  | begun {active : Active} {p : RotationPath α} {frames : List (Frame α)} (hp : e.active = some p)
    (hg : p.gate = active.gate) (hs : p.start = Applied.turned completed)
    (hi : p.Inked n (furthest n frames)) (hf : ∀ f ∈ frames, f.gate = active.gate) :
    Drawn n e completed (some active) frames

variable [Scalar α]

theorem Drawn.gate {n : Nat} {e : Engine α} {completed : List Applied} {active : Option Active}
    {frames : List (Frame α)} (h : Drawn n e completed active frames) :
    ∀ f ∈ frames, f.gate ∈ active.toList.map Active.gate := by
  intro f hf
  cases h with
  | untouched => exact absurd hf List.not_mem_nil
  | begun _ _ _ _ hg => exact List.mem_singleton.2 (hg f hf)

theorem Drawn.furthest_le {n : Nat} {e : Engine α} {completed : List Applied} {active : Option Active}
    {frames : List (Frame α)} (h : Drawn n e completed active frames) : furthest n frames ≤ n := by
  cases h with
  | untouched => exact Nat.zero_le n
  | begun _ _ _ hi _ => exact hi.le

/-- The path of the request being shown starts where the completed ones lead, and is inked as far as
its frames got. -/
theorem Drawn.pathFor {n : Nat} {e : Engine α} {completed spoiled : List Applied} {active : Active}
    {frames : List (Frame α)} {gate : Gate} {p : RotationPath α}
    (h : Drawn n e completed (some active) frames) (ht : Tracked e completed (some active) spoiled)
    (hr : e.resolution = n) (hg : active.gate.code = gate.code) (hp : e.pathFor active.gate = .ok p) :
    p.start = Applied.turned completed ∧ p.Inked n (furthest n frames) := by
  cases h with
  | untouched hseq =>
    rw [Engine.pathFor_new fun q hq => hseq q active hq rfl] at hp
    obtain rfl := Engine.newPath_ok hg hp
    have hc : e.current = Applied.turned completed := by
      cases ht with
      | rested hc _ => exact hc
      | underway hq hgate _ _ => exact absurd (congrArg Applied.seq hgate) (hseq _ _ hq rfl)
      | spoiled hq hgate _ _ => exact absurd (congrArg Applied.seq hgate) (hseq _ _ hq rfl)
    refine ⟨hc, ?_⟩
    rw [hr]
    exact RotationPath.inked_new _ _ _ _
  | begun hq hgate hs hi _ =>
    rw [Engine.pathFor_in_flight hq (congrArg Applied.seq hgate)] at hp
    cases hp
    exact ⟨hs, hi⟩

/-! ## Callbacks -/

namespace Animator

/-- The frames of the request being shown, shown or not. -/
def attempts (a : Animator (Traced ρ α) α) : List (Frame α) := Call.attempts a.renderer.calls

/-- Engine, trail and renderer agree on the markers of paths with `n` steps. -/
structure Marked (n : Nat) (a : Animator (Traced ρ α) α) : Prop where
  resolution : a.engine.resolution = n
  inked : ∀ p, a.engine.active = some p → ∃ k, p.Inked n k
  drawn : Drawn n a.engine a.completed a.active a.attempts
  placed : Call.placed a.renderer.calls = a.markers
  points : a.markers.map Marker.point =
    Applied.visited n a.completed a.current (furthest n a.attempts)

variable {a b : Animator (Traced ρ α) α} {active : Active} {n : Nat}

/-- A request that becomes active has no path, since its number is new. -/
theorem Marked.activate (h : a.Marked n) (hc : a.Committed) (hb : a.activate = some (active, b)) :
    b.Marked n := by
  rcases activate_cases hb with ⟨_, rfl⟩ | ⟨ha, _, _, heq⟩
  · exact h
  · have hbc : b.completed = a.completed := congrArg completions (activate_frames hb)
    have hba : b.attempts = a.attempts := by
      rw [heq]
      rfl
    have hat : a.attempts = [] := by
      have hd := h.drawn
      rw [ha] at hd
      generalize a.attempts = frames at hd
      cases hd
      rfl
    obtain ⟨⟨gate, hg⟩, hnew⟩ := (hc.activate hb).active_gate (activate_active hb)
    rw [hbc] at hnew
    refine ⟨?_, ?_, ?_, ?_, ?_⟩
    · rw [heq]
      exact h.resolution
    · rw [heq]
      exact h.inked
    · -- a path in flight is that of the last completed request
      have ht := hc.tracked
      rw [ha] at ht
      have he : b.engine = a.engine := by rw [heq]
      rw [he, hbc, hba, hat, activate_active hb]
      refine .untouched fun p x hp hx => ?_
      cases hx
      exact hnew p.gate (ht.rested_gate hp)
    · rw [heq]
      exact h.placed
    · have hm : b.markers = a.markers := by
        rw [heq]
        rfl
      have hp := h.points
      rw [current_of_none ha, hat] at hp
      rw [hm, hbc, hba, hat, current_of_active (activate_active hb), hp, Applied.visited_current hg]
      rfl

variable [Renderer ρ α] {s : Shot (Traced ρ α) α} {t : Traced ρ α}

/-- A shot inks the path of its request from where it was inked to where the frame gets. -/
theorem shot_inked (hs : a.shot active = .ok s) (hr : a.engine.resolution = n)
    {p : RotationPath α} {k : Nat} (hp : a.engine.pathFor active.gate = .ok p) (hi : p.Inked n k)
    (hm : ∀ m ∈ s.frame.newMarkers, m.handle ≠ noMarker) :
    (∃ q, s.engine.active = some q ∧ q.bare = p.bare ∧ q.Inked n (k + (s.frame.reached n - 1 - k))) ∧
    s.frame.newMarkers.map Marker.point = (List.range' (k + 1) (s.frame.reached n - 1 - k)).map
      fun i => (Engine.keyframe p.start p.target n i).point := by
  obtain ⟨turned, hshot⟩ := shot_spec hs
  obtain ⟨hpath, hreached⟩ := Engine.rotationAt_path hshot.rotation hp
  have hactive : turned.active = some p := by
    obtain ⟨p', hp', rfl⟩ := Engine.rotationAt_ok hshot.rotation
    rw [hp] at hp'
    cases hp'
    rfl
  have hr : s.rotation.reached = s.frame.reached n := by
    rw [hreached, hi.size, hr, ← hshot.progress]
    rfl
  have hle := s.frame.reached_le n
  have hk := hi.le
  have hfst := due_fst hi hpath (hr.trans_le hle)
  have hpoints := due_points hi hpath (hr.trans_le hle)
  rw [hr] at hfst hpoints
  have hlen : (due s.rotation).length = s.frame.reached n - 1 - k := by
    rw [← List.length_map Prod.fst, hfst, List.length_range']
  have hplace := place_inked active.gate (due s.rotation) turned a.renderer p k hactive
    (Engine.pathFor_seq hp) hi (by rw [hfst, hlen]) (by omega) (by rw [hshot.placed]; exact hm)
  have hnew := place_points active.gate (due s.rotation) turned a.renderer
  rw [hshot.placed, hlen] at hplace
  rw [hshot.placed, hpoints] at hnew
  exact ⟨hplace, hnew⟩

/-- After a shot the trail leads as far along the path of its request as any of its frames got. -/
theorem Marked.shot (h : a.Marked n) (hc : a.Committed) (ha : a.active = some active)
    (hs : a.shot active = .ok s) (hm : ∀ m ∈ s.frame.newMarkers, m.handle ≠ noMarker) :
    s.engine.resolution = n ∧ (∀ q, s.engine.active = some q → ∃ k, q.Inked n k) ∧
    Drawn n s.engine a.completed (some active) (a.attempts ++ [s.frame]) ∧
    s.frame.markers.map Marker.point =
      Applied.visited n a.completed [active.gate] (furthest n (a.attempts ++ [s.frame])) := by
  obtain ⟨p, _, hp, _, he⟩ := shot_engine hs
  obtain ⟨turned, hshot⟩ := shot_spec hs
  obtain ⟨⟨gate, hg⟩, hn⟩ := hc.active_gate ha
  have ht := hc.tracked
  have hd := h.drawn
  have hpoints := h.points
  rw [ha] at ht hd
  rw [current_of_active ha, Applied.visited_current hg] at hpoints
  obtain ⟨hgate, htarget⟩ := ht.pathFor hn hg hp
  obtain ⟨hstart, hinked⟩ := hd.pathFor ht h.resolution hg hp
  obtain ⟨⟨q, hq, hbare, hqi⟩, hnew⟩ := shot_inked hs h.resolution hp hinked hm
  -- the new markers begin where the earlier frames stopped; a frame that got less far has none
  have hmax : furthest n (a.attempts ++ [s.frame]) =
      furthest n a.attempts + (s.frame.reached n - 1 - furthest n a.attempts) := by
    rw [furthest_concat]
    omega
  rw [htarget, hstart, Applied.turned_concat a.completed hg] at hnew
  refine ⟨?_, fun q' hq' => ?_, .begun hq ?_ ?_ (by rw [hmax]; exact hqi) fun f hf => ?_, ?_⟩
  · rw [he]
    exact h.resolution
  · rw [hq] at hq'
    cases hq'
    exact ⟨_, hqi⟩
  · exact (congrArg RotationPath.gate hbare :).trans hgate
  · exact (congrArg RotationPath.start hbare :).trans hstart
  · rcases List.mem_append.1 hf with hf | hf
    · exact List.mem_singleton.1 (hd.gate f hf)
    · rw [List.mem_singleton.1 hf, hshot.gate]
  · rw [shot_markers hs, List.map_append, hpoints, hnew, Applied.visited_current hg, hmax,
      Gate.stops_add, List.append_assoc]

theorem shot_placed (hs : a.shot active = .ok s) :
    Call.placed s.renderer.calls = Call.placed a.renderer.calls ++ s.frame.newMarkers := by
  rw [shot_calls hs]
  exact Call.placed_markers _ _

theorem shot_attempts (hs : a.shot active = .ok s) : Call.attempts s.renderer.calls = a.attempts :=
  shot_foldl (fun _ _ => rfl) hs []

/-- The trail after a shot is what the renderer was asked for, whether or not it takes the frame. -/
theorem expose_placed (hs : a.shot active = .ok s) {result : Except Fault Unit}
    (hr : Renderer.render s.renderer s.frame = (result, t))
    (hp : Call.placed a.renderer.calls = a.markers) : Call.placed t.calls = s.frame.markers := by
  have hk : Call.placed t.calls = Call.placed s.renderer.calls := by
    rcases result with fault | _
    · rw [Traced.render_error hr, Call.placed_concat]
      rfl
    · rw [Traced.render_ok hr, Call.placed_concat]
      rfl
  rw [hk, shot_placed hs, hp, shot_markers hs]

/-- A frame that does not complete its request, or is refused, is one more attempt at it. -/
theorem Marked.unfinished (h : a.Marked n) (hc : a.Committed) (ha : a.active = some active)
    (hs : a.shot active = .ok s) (hm : ∀ m ∈ s.frame.newMarkers, m.handle ≠ noMarker)
    {result : Except Fault Unit} (hr : Renderer.render s.renderer s.frame = (result, t))
    (hcompleted : (a.expose s t).completed = a.completed)
    (hattempts : (a.expose s t).attempts = a.attempts ++ [s.frame]) : (a.expose s t).Marked n := by
  obtain ⟨hn, hi, hd, hp⟩ := h.shot hc ha hs hm
  refine ⟨hn, hi, ?_, expose_placed hs hr h.placed, ?_⟩
  · rw [hcompleted, hattempts]
    show Drawn n s.engine a.completed a.active _
    rw [ha]
    exact hd
  · rw [hcompleted, hattempts]
    show s.frame.markers.map Marker.point = Applied.visited n _ a.current _
    rw [current_of_active ha]
    exact hp

/-- The frame that completes a request has markers for all keyframes that had none. -/
theorem Marked.finished [LawfulUnit α] [ExactSteps α] (hn : n ≤ 2 ^ 53) (h : a.Marked n)
    (hc : a.Committed) (ha : a.active = some active) (hs : a.shot active = .ok s)
    (hm : ∀ m ∈ s.frame.newMarkers, m.handle ≠ noMarker)
    (hr : Renderer.render s.renderer s.frame = (.ok (), t)) (hf : s.frame.complete = true) :
    { a.expose s t with active := none }.Marked n := by
  obtain ⟨hres, hi, hd, hp⟩ := h.shot hc ha hs hm
  obtain ⟨turned, hshot⟩ := shot_spec hs
  obtain ⟨⟨gate, hg⟩, _⟩ := hc.active_gate ha
  have hcompleted : (a.expose s t).completed = a.completed ++ [active.gate] := by
    rw [expose_completed hs hr, hf, if_pos rfl]
  have hattempts : (a.expose s t).attempts = [] := by
    show Call.attempts t.calls = []
    rw [Traced.render_ok hr, Call.attempts_concat]
    exact if_pos hf
  -- at the end of the path no keyframe is left
  have hall : furthest n (a.attempts ++ [s.frame]) = n := by
    have hprogress : 1 ≤ s.frame.progress := by
      rw [hshot.complete] at hf
      rw [hshot.progress]
      exact of_decide_eq_true hf
    have hle := hd.furthest_le
    rw [furthest_concat, Frame.reached_of_complete hn hprogress] at hle ⊢
    omega
  refine ⟨hres, hi, ?_, expose_placed hs hr h.placed, ?_⟩
  · show Drawn n s.engine (a.expose s t).completed none (a.expose s t).attempts
    rw [hattempts]
    exact .untouched nofun
  · show s.frame.markers.map Marker.point =
      Applied.visited n (a.expose s t).completed [] (furthest n (a.expose s t).attempts)
    rw [hcompleted, hp, hall, Applied.visited_complete hg]

theorem FrameStep.marked [LawfulUnit α] [ExactSteps α] {generation : UInt64}
    {outcome : Except Fault Unit × Animator (Traced ρ α) α} (hn : n ≤ 2 ^ 53)
    (h : FrameStep a generation outcome) (hc : a.Committed) (hk : a.Marked n)
    (hm : ∀ m, Call.marker m ∈ outcome.2.renderer.calls → m.handle ≠ noMarker) :
    outcome.2.Marked n := by
  -- new markers are among the calls, so their handles are good
  have asked {active : Active} {b : Animator (Traced ρ α) α} {s : Shot (Traced ρ α) α}
      {calls : List (Call α)} (hs : b.shot active = .ok s)
      (hm : ∀ m, Call.marker m ∈ s.renderer.calls ++ calls → m.handle ≠ noMarker) :
      ∀ m ∈ s.frame.newMarkers, m.handle ≠ noMarker := by
    intro m hnew
    apply hm
    rw [shot_calls hs]
    exact List.mem_append_left _ (List.mem_append_right _ (List.mem_map_of_mem hnew))
  cases h with
  | ignored => exact hk
  | drained => exact ⟨hk.resolution, hk.inked, hk.drawn, hk.placed, hk.points⟩
  | blocked _ hb _ => exact hk.activate hc hb
  | @refused active b s fault r _ hb hs hr =>
    change ∀ m, Call.marker m ∈ r.calls → m.handle ≠ noMarker at hm
    rw [Traced.render_error hr] at hm
    refine (hk.activate hc hb).unfinished (hc.activate hb) (activate_active hb) hs (asked hs hm) hr
      (congrArg completions (expose_refused hs hr)) ?_
    show Call.attempts r.calls = _
    rw [Traced.render_error hr, Call.attempts_concat, shot_attempts hs]
    rfl
  | @shown active b s r _ hb hs hr hf =>
    change ∀ m, Call.marker m ∈ r.calls → m.handle ≠ noMarker at hm
    rw [Traced.render_ok hr] at hm
    have hu := (hk.activate hc hb).unfinished (hc.activate hb) (activate_active hb) hs (asked hs hm) hr
      (by rw [expose_completed hs hr, hf]; rfl)
      (by
        show Call.attempts r.calls = _
        rw [Traced.render_ok hr, Call.attempts_concat, shot_attempts hs]
        exact if_neg (by rw [hf]; nofun))
    exact ⟨hu.resolution, hu.inked, hu.drawn, hu.placed, hu.points⟩
  | @passed active b s r _ hb hs hr hf _ =>
    change ∀ m, Call.marker m ∈ r.calls → m.handle ≠ noMarker at hm
    rw [Traced.render_ok hr] at hm
    have hd := (hk.activate hc hb).finished hn (hc.activate hb) (activate_active hb) hs (asked hs hm)
      hr hf
    exact ⟨hd.resolution, hd.inked, hd.drawn, hd.placed, hd.points⟩
  | @ended active b s r _ hb hs hr hf _ =>
    change ∀ m, Call.marker m ∈ r.calls → m.handle ≠ noMarker at hm
    rw [Traced.render_ok hr] at hm
    have hd := (hk.activate hc hb).finished hn (hc.activate hb) (activate_active hb) hs (asked hs hm)
      hr hf
    exact ⟨hd.resolution, hd.inked, hd.drawn, hd.placed, hd.points⟩

theorem Marked.reset (h : a.Marked n) : a.reset.2.Marked n := by
  obtain ⟨metrics, hr⟩ := reset_snd a
  have hcalls : a.reset.2.renderer.calls = a.renderer.calls ++ [.clear] := by
    rw [hr, Traced.clear_calls]
  have hcompleted : a.reset.2.completed = [] := congrArg completions a.reset_frames
  have hattempts : a.reset.2.attempts = [] := by
    unfold attempts
    rw [hcalls, Call.attempts_concat]
    rfl
  have hplaced : Call.placed a.reset.2.renderer.calls = [] := by
    rw [hcalls, Call.placed_concat]
    rfl
  have hactive : a.reset.2.active = none := by rw [hr]
  have hmarkers : a.reset.2.markers = [] := by rw [hr]; rfl
  refine ⟨?_, ?_, ?_, ?_, ?_⟩
  · rw [hr]
    exact h.resolution
  · rw [hr]
    exact nofun
  · rw [hattempts, hactive]
    exact .untouched nofun
  · rw [hplaced, hmarkers]
  · rw [hmarkers, hcompleted, hattempts, current_of_none hactive]
    rfl

/-- Every mark of a callback is made on the path that it has just put in flight. -/
theorem rotationAt_marks {engine : Engine α} {rotation : Rotation α} {front back : List (Nat × Keyframe α)}
    {next : Nat × Keyframe α} {ρ : Type} [Renderer ρ α] {b : Animator ρ α}
    (hr : b.engine.rotationAt active.gate (b.progress active) = .ok (rotation, engine))
    (hd : due rotation = front ++ next :: back) :
    marks active.gate front engine b.renderer next = true := by
  obtain ⟨p, hp, rfl⟩ := Engine.rotationAt_ok hr
  obtain ⟨hpath, _⟩ := Engine.rotationAt_path hr hp
  refine marks_true _ _ _ _ p _ rfl (Engine.pathFor_seq hp) fun d hmem => ?_
  have hdue : d ∈ due rotation := by
    rw [hd, List.append_cons]
    exact List.mem_append_left _ hmem
  have hx := mem_due hdue
  rw [hpath] at hx
  exact (Array.getElem?_eq_some_iff.1 hx).1

theorem FrameStep.calls {generation : UInt64} {outcome : Except Fault Unit × Animator (Traced ρ α) α}
    (h : FrameStep a generation outcome) : a.renderer.calls <+: outcome.2.renderer.calls := by
  rcases h.hands with ⟨_, hr⟩ | ⟨active, b, s, result, r, hb, hs, hrender, _, hr⟩
  · rw [hr]
  · have hba : b.renderer = a.renderer := by rw [activate_eq hb]
    have hshot := shot_calls hs
    have hcalls : s.renderer.calls <+: r.calls := by
      rcases result with fault | _
      · rw [Traced.render_error hrender]
        exact List.prefix_append _ _
      · rw [Traced.render_ok hrender]
        exact List.prefix_append _ _
    rw [hba] at hshot
    rw [hr]
    exact (hshot ▸ List.prefix_append _ _).trans hcalls

end Animator

/-! ## Runs -/

namespace Stage

variable [Renderer ρ α]

theorem step_calls (s : Stage (Traced ρ α) α) (m : Move) :
    s.animator.renderer.calls <+: (s.step m).animator.renderer.calls := by
  cases m with
  | queue g =>
    show _ <+: (s.animator.queue g.code).2.renderer.calls
    rw [Animator.queue_renderer]
  | reset =>
    obtain ⟨_, hr⟩ := s.animator.reset_snd
    show _ <+: s.animator.reset.2.renderer.calls
    rw [hr]
    exact List.prefix_append _ _
  | clock now => exact List.prefix_rfl
  | take => exact List.prefix_rfl
  | fire i =>
    show _ <+: (s.fire i).animator.renderer.calls
    rcases s.fire_animator i with ha | ⟨generation, ha⟩
    · rw [ha]
    · rw [ha]
      exact (s.animator.frame_step generation).calls

variable [LawfulUnit α]

theorem Committed.step (s : Stage (Traced ρ α) α) (m : Move) (h : s.animator.Committed) :
    (s.step m).animator.Committed := by
  cases m with
  | queue g => exact h.queue g
  | reset => exact .reset s.animator
  | clock now => exact ⟨h.gates, h.numbered, h.tracked⟩
  | take => exact ⟨h.gates, h.numbered, h.tracked⟩
  | fire i =>
    show (s.fire i).animator.Committed
    rcases s.fire_animator i with ha | ⟨generation, ha⟩
    · rw [ha]
      exact h
    · rw [ha]
      exact (s.animator.frame_step generation).committed h

variable [ExactSteps α]

theorem Marked.step {n : Nat} (hn : n ≤ 2 ^ 53) (s : Stage (Traced ρ α) α) (m : Move)
    (hc : s.animator.Committed) (h : s.animator.Marked n)
    (hm : ∀ x, Call.marker x ∈ (s.step m).animator.renderer.calls → x.handle ≠ noMarker) :
    (s.step m).animator.Marked n := by
  cases m with
  | queue g =>
    show (s.animator.queue g.code).2.Marked n
    rw [Animator.queue_eq]
    exact ⟨h.resolution, h.inked, h.drawn, h.placed, h.points⟩
  | reset => exact h.reset
  | clock now => exact ⟨h.resolution, h.inked, h.drawn, h.placed, h.points⟩
  | take => exact ⟨h.resolution, h.inked, h.drawn, h.placed, h.points⟩
  | fire i =>
    change ∀ x, Call.marker x ∈ (s.fire i).animator.renderer.calls → _ at hm
    show (s.fire i).animator.Marked n
    rcases s.fire_animator i with ha | ⟨generation, ha⟩
    · rw [ha]
      exact h
    · rw [ha] at hm ⊢
      exact (s.animator.frame_step generation).marked hn hc h hm

/-- As long as every marker had a handle, engine, trail and renderer agree on the markers. -/
theorem Marked.run {n : Nat} (hn : n ≤ 2 ^ 53) (moves : List Move) (s : Stage (Traced ρ α) α)
    (hc : s.animator.Committed) (h : s.animator.Marked n)
    (hm : ∀ x, Call.marker x ∈ (s.run moves).animator.renderer.calls → x.handle ≠ noMarker) :
    (s.run moves).animator.Marked n := by
  refine (run_induction (P := fun s : Stage (Traced ρ α) α => s.animator.Committed ∧
    ((∀ x, Call.marker x ∈ s.animator.renderer.calls → x.handle ≠ noMarker) → s.animator.Marked n))
    (fun s m hs => ⟨Committed.step s m hs.1, fun hx => ?_⟩) moves s ⟨hc, fun _ => h⟩).2 hm
  have hx' := fun x hmem => hx x ((step_calls s m).subset hmem)
  exact Marked.step hn s m hs.1 (hs.2 hx') hx

/-- Every keyframe gets one marker, in order. The trail has all keyframes of the completed requests
and then those of the request being shown up to the furthest that its frames got, except those where
the paths start; the renderer was asked for exactly these, and no mark is ever refused. From frame to
frame the trail grows by the new markers. The run is traced, which changes nothing of it. -/
theorem one_marker_per_keyframe (duration : Duration) (resolution : Int) (renderer : ρ) (now : Int)
    (moves : List Move) (hn : (Engine.new resolution : Engine α).resolution ≤ 2 ^ 53)
    (hm : ∀ m, Call.marker m ∈ ((Stage.new duration resolution ⟨renderer, []⟩ now :
      Stage (Traced ρ α) α).run moves).animator.renderer.calls → m.handle ≠ noMarker) :
    let n := (Engine.new resolution : Engine α).resolution
    let s : Stage (Traced ρ α) α := (Stage.new duration resolution ⟨renderer, []⟩ now).run moves
    let a := s.animator
    s.mapRenderer Traced.renderer = (Stage.new duration resolution renderer now).run moves ∧
    (a.markers.map Marker.point =
        Applied.visited n a.completed a.current (furthest n a.attempts) ∧
      ∀ f ∈ a.attempts, f.gate ∈ a.current) ∧
    Call.placed a.renderer.calls = a.markers ∧
    (∀ p first, a.engine.active = some p → p.keyframes[0]? = some first → first.marker = noMarker) ∧
    (∀ active b rotation engine front next back, a.activate = some (active, b) →
      b.engine.rotationAt active.gate (b.progress active) = .ok (rotation, engine) →
      Animator.due rotation = front ++ next :: back →
      Animator.marks active.gate front engine b.renderer next = true) ∧
    ∀ front f g, front ++ [f, g] <+: a.handed → f.cleared = false → g.cleared = false →
      g.markers = f.markers ++ g.newMarkers := by
  intro n s a
  have hc : (Stage.new duration resolution ⟨renderer, []⟩ now : Stage (Traced ρ α) α).animator.Committed :=
    ⟨nofun, ⟨.nil, nofun⟩, .rested rfl nofun⟩
  have h : a.Marked n := Marked.run hn moves _ hc ⟨rfl, nofun, .untouched nofun, rfl, rfl⟩ hm
  have hf : a.Followed [] a.handed := run_induction Followed.step moves _ ⟨rfl, .nil []⟩
  have traced := run_mapRenderer Traced.answersAlike moves
    (Stage.new duration resolution ⟨renderer, []⟩ now : Stage (Traced ρ α) α)
  refine ⟨traced.symm, ⟨h.points, h.drawn.gate⟩, h.placed, ?_, ?_, ?_⟩
  · intro p first hp hfirst
    obtain ⟨k, hk⟩ := h.inked p hp
    exact hk.first hfirst
  · intro active b rotation engine front next back _ hr hd
    exact Animator.rotationAt_marks hr hd
  · intro front f g hp hfc hgc
    exact hf.coherent.grows hp hfc hgc

/-- The clock goes back and the picture is cleared; then one request is completed at once, and the
next one gets half of its way. -/
theorem one_marker_per_keyframe_back_and_forth :
    let moves : List Move := [.queue .x, .take, .fire 0, .clock 600000000, .take, .fire 0,
      .clock 100000000, .take, .fire 0, .reset, .queue .y, .queue .h, .take, .fire 0, .fire 0,
      .clock 1500000000, .take, .fire 0, .take, .fire 0, .clock 2000000000, .take, .fire 0,
      .clock 1600000000, .take, .fire 0]
    let s : Stage (Traced (Discard Float) Float) Float :=
      (Stage.new 1000000000 2 ⟨Discard.new, []⟩ 0).run moves
    (Engine.new 2 : Engine Float).resolution ≤ 2 ^ 53 ∧
    (∀ m, Call.marker m ∈ s.animator.renderer.calls → m.handle ≠ noMarker) ∧
    s.animator.markers.map Marker.handle = [0, 1, 2] ∧
    s.animator.attempts.map (Frame.reached 2) = [1, 2, 1] ∧
    s.animator.markers.map Marker.point =
      Applied.visited 2 s.animator.completed s.animator.current 1 := by
  intro moves s
  have hn : (Engine.new 2 : Engine Float).resolution ≤ 2 ^ 53 := by decide
  have hall : (s.animator.renderer.calls.all fun | .marker m => m.handle != noMarker | _ => true) =
      true := by
    decide +kernel
  have hm : ∀ m, Call.marker m ∈ s.animator.renderer.calls → m.handle ≠ noMarker :=
    fun m hmem => bne_iff_ne.1 (List.all_eq_true.1 hall _ hmem)
  have hh : s.animator.markers.map Marker.handle = [0, 1, 2] := by decide +kernel
  have hr : s.animator.attempts.map (Frame.reached 2) = [1, 2, 1] := by decide +kernel
  have hf : furthest 2 s.animator.attempts = 1 := by decide +kernel
  have hs : s = (Stage.new 1000000000 2 ⟨Discard.new, []⟩ 0).run moves := rfl
  -- the run itself is no longer needed, and unifying with it would run it again
  clear_value s
  have key := one_marker_per_keyframe 1000000000 2 (Discard.new : Discard Float) 0 moves hn
  rw [← hs] at key
  obtain ⟨_, ⟨hp, _⟩, _⟩ := key hm
  refine ⟨hn, hm, hh, hr, ?_⟩
  rw [← hf]
  exact hp

end Stage

end BlochSphere
