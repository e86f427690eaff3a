/-
Paths and the rotations that are read off them. Every path that an engine holds or answers with is, but for
its markers, cut into equal steps from its start to its target. Where the progress of a rotation is that of
a keyframe, the rotation is where the keyframe is, at both ends exactly. The paths of a visit differ in
their markers only, and a keyframe's marker is the one that was last taken for it since the visit began.
-/
import BlochSphere.Proofs.Engine.Visits
import BlochSphere.Proofs.Scalar.Steps

namespace BlochSphere

variable {α : Type} [Scalar α]

/-! ## Paths in equal steps -/

/-- But for its markers, the path is cut into `n` equal steps from its start to its target. -/
def RotationPath.Even (n : Nat) (p : RotationPath α) : Prop :=
  p.unmarked = Engine.path p.gate p.start p.target n

namespace RotationPath.Even

variable {n : Nat} {p q : RotationPath α}

theorem new (g : Applied) (start target : Quat α) (n : Nat) : (Engine.path g start target n).Even n :=
  Engine.path_unmarked g start target n

theorem of_unmarked (h : p.Even n) (hq : q.unmarked = p.unmarked) : q.Even n := by
  show q.unmarked = Engine.path q.unmarked.gate q.unmarked.start q.unmarked.target n
  rw [hq]
  exact h

theorem size (h : p.Even n) : p.keyframes.size = n + 1 := by
  have hs := congrArg (·.keyframes.size) h
  simpa [RotationPath.unmarked, Engine.path] using hs

/-- A keyframe of the path, but for its marker. -/
theorem getElem? (h : p.Even n) (i : Nat) :
    p.keyframes[i]?.map Keyframe.unmarked =
      if i ≤ n then some (Engine.keyframe p.start p.target n i) else none := by
  have hi := congrArg (·.keyframes[i]?) h
  simp only [RotationPath.unmarked, Engine.path, Array.getElem?_map, Array.getElem?_ofFn] at hi
  rw [hi]
  simp only [Nat.lt_succ_iff]
  rfl

theorem keyframe (h : p.Even n) {i : Nat} {k : Keyframe α} (hk : p.keyframes[i]? = some k) :
    i ≤ n ∧ k.unmarked = Engine.keyframe p.start p.target n i := by
  have hi := h.getElem? i
  rw [hk, Option.map_some] at hi
  split at hi
  · rename_i hin
    exact ⟨hin, Option.some.inj hi⟩
  · cases hi

end RotationPath.Even

namespace Engine

/-- The path in flight is in steps of the engine's own number. -/
def Even (e : Engine α) : Prop := ∀ p ∈ e.active, p.Even e.resolution

theorem new_resolution {n : Nat} (h0 : 0 < n) : (Engine.new n : Engine α).resolution = n := by
  unfold new
  dsimp only
  rw [if_neg (by omega), Int.toNat_natCast]

/-- A rotation is read off the path of its request. -/
theorem rotationAt_rotation {e turned : Engine α} {g : Applied} {t : α} {rotation : Rotation α}
    (h : e.rotationAt g t = .ok (rotation, turned)) : ∃ p, e.pathFor g = .ok p ∧
      let t := Scalar.clamp 0 1 t
      rotation = ⟨g, t, orientationAt p t, (orientationAt p t).point, p.keyframes,
        reachedAt e.resolution p.keyframes.size t⟩ := by
  unfold rotationAt at h
  cases hp : e.pathFor g with
  | error fault =>
    rw [hp] at h
    cases h
  | ok p =>
    rw [hp] at h
    cases h
    exact ⟨p, rfl, rfl⟩

namespace Even

variable {e : Engine α} {p : RotationPath α} {g : Applied} {gate : Gate}

theorem pathFor (h : e.Even) (hg : g.code = gate.code) (hp : e.pathFor g = .ok p) : p.Even e.resolution := by
  rcases pathFor_cases hg hp with ⟨hp, -⟩ | ⟨-, rfl⟩
  · exact h p hp
  · exact .new ..

theorem mark (h : e.Even) (g : Applied) (index : Int) (handle : Handle) :
    (e.markRendered g index handle).2.Even := by
  cases hp : e.active with
  | none =>
    unfold markRendered
    rw [hp]
    exact h
  | some p =>
    obtain ⟨q, hq, he⟩ := markRendered_unmarked hp g index handle
    rw [he]
    rintro _ ⟨rfl⟩
    exact (h p hp).of_unmarked hq

end Even

end Engine

namespace Tour

theorem step_even {s : Tour α} (h : s.engine.Even) (call : EngineCall α) : (s.step call).engine.Even := by
  cases call with
  | rotate q =>
    rcases s.step_rotate q with ⟨fault, _, hs⟩ | ⟨rotation, turned, hok, hs⟩
    · rw [hs]
      exact h
    · obtain ⟨p, hp, rfl⟩ := Engine.rotationAt_ok hok
      rw [hs]
      rintro _ ⟨rfl⟩
      exact h.pathFor q.request_code hp
  | mark g index handle => exact h.mark g index handle
  | reset => exact nofun

theorem run_even (calls : List (EngineCall α)) :
    ∀ {s : Tour α}, s.engine.Even → (s.run calls).engine.Even := by
  induction calls with
  | nil => exact fun h => h
  | cons call calls ih => exact fun h => ih (step_even h call)

/-- An engine keeps the resolution it was made with. -/
theorem resolution_of_pos {n : Nat} (h0 : 0 < n) (calls : List (EngineCall α)) :
    ((new n : Tour α).run calls).engine.resolution = n := by
  rw [run_resolution]
  exact Engine.new_resolution h0

/-- After any calls, a query is answered by a rotation that is read off a path in equal steps, unless a path
of so many keyframes cannot be made. -/
theorem rotationAt_even {n : Nat} (h0 : 0 < n) (calls : List (EngineCall α)) (q : Query α) :
    let e := ((new n : Tour α).run calls).engine
    let t := Scalar.clamp 0 1 q.t
    (n < Engine.maxKeyframes ∧ ∃ p turned, e.pathFor q.request = .ok p ∧ p.Even n ∧
      e.rotationAt q.request q.t = .ok (⟨q.request, t, Engine.orientationAt p t,
        (Engine.orientationAt p t).point, p.keyframes, Engine.reachedAt n (n + 1) t⟩, turned)) ∨
    (∃ fault, e.rotationAt q.request q.t = .error fault) ∧ Engine.maxKeyframes < n + 1 := by
  intro e t
  have hresolution : e.resolution = n := resolution_of_pos h0 calls
  by_cases hlong : n < Engine.maxKeyframes
  · left
    cases hq : e.rotationAt q.request q.t with
    | error fault =>
      have hfault := Engine.rotationAt_error q.request_code hq
      omega
    | ok answer =>
      obtain ⟨p, hp, hr⟩ := Engine.rotationAt_rotation hq
      have he : e.Even := run_even calls nofun
      have heven : p.Even n := hresolution ▸ he.pathFor q.request_code hp
      rw [hresolution, heven.size] at hr
      exact ⟨hlong, p, answer.2, hp, heven, by rw [← hr]⟩
  · right
    have hnever : ¬ (Engine.new n : Engine α).resolution < Engine.maxKeyframes := by
      rwa [Engine.new_resolution h0]
    have hrest : e.active = none := (run_at_rest calls (new n) hnever rfl rfl).1
    rw [← hresolution] at hlong
    exact ⟨⟨_, rotationAt_of_long hlong hrest q⟩, by omega⟩

end Tour

/-! ## Rotations at keyframes -/

/-- What the path of a rotation says, and the rotation where the path says something of it: there are `n + 1`
keyframes, at progresses that increase from zero to one, and a rotation at the progress of a keyframe is
where the keyframe is. -/
structure Rotation.Agrees (n : Nat) (r : Rotation α) : Prop where
  size : r.path.size = n + 1
  first : r.path[0]?.map Keyframe.progress = some 0
  last : r.path[n]?.map Keyframe.progress = some 1
  increasing : ∀ (i j : Nat) (k l : Keyframe α), i < j → r.path[i]? = some k → r.path[j]? = some l →
    k.progress < l.progress
  there : ∀ (i : Nat) (k : Keyframe α), r.path[i]? = some k → (r.progress == k.progress) = true →
    r.orientation = k.orientation ∧ r.point = k.point

section Agreement

variable [LawfulUnit α] [LawfulSteps α] {n i : Nat}

/-- The orientation at the progress of a keyframe is the keyframe's: the ends are told by value here and by
number there. -/
theorem Engine.orientationAt_step {p : RotationPath α} (h0 : 0 < n) (hi : i ≤ n) (hn : n < 2 ^ 53) {t : α}
    (ht : (t == Scalar.step i n) = true) :
    orientationAt p t = (keyframe p.start p.target n i).orientation := by
  unfold orientationAt keyframe
  rcases Nat.eq_zero_or_pos i with rfl | hpos
  · rw [LawfulSteps.step_zero n h0 hn] at ht
    simp [ht]
  · obtain rfl := LawfulSteps.eq_of_beq_step t i n hpos hi hn ht
    rcases Nat.lt_or_eq_of_le hi with hlt | rfl
    · obtain ⟨hzero, hone⟩ := LawfulSteps.inner_beq (α := α) i n hpos hlt hn
      simp only [hzero, hone, Bool.false_eq_true, if_false, hpos.ne', hlt.ne]
      rfl
    · rw [LawfulSteps.step_self i h0 hn]
      simp [LawfulSteps.one_beq_zero, LawfulUnit.one_beq_one, hpos.ne']

theorem RotationPath.Even.agrees {p : RotationPath α} {r : Rotation α} (h : p.Even n) (h0 : 0 < n)
    (hn : n < 2 ^ 53) (hpath : r.path = p.keyframes)
    (horientation : r.orientation = Engine.orientationAt p r.progress)
    (hpoint : r.point = r.orientation.point) : r.Agrees n := by
  have hprogress {i : Nat} {k : Keyframe α} (hk : r.path[i]? = some k) :
      i ≤ n ∧ k.progress = Scalar.step i n := by
    rw [hpath] at hk
    obtain ⟨hi, hk⟩ := h.keyframe hk
    exact ⟨hi, congrArg Keyframe.progress hk⟩
  have hend {i : Nat} (hi : i ≤ n) : r.path[i]?.map Keyframe.progress = some (Scalar.step i n) := by
    have hk := h.getElem? i
    rw [if_pos hi, ← hpath] at hk
    obtain ⟨k, hk', -⟩ := Option.map_eq_some_iff.1 hk
    rw [hk', Option.map_some, (hprogress hk').2]
  constructor
  · rw [hpath]
    exact h.size
  · rw [hend (Nat.zero_le n), LawfulSteps.step_zero n h0 hn]
  · rw [hend le_rfl, LawfulSteps.step_self n h0 hn]
  · intro i j k l hij hk hl
    rw [(hprogress hk).2, (hprogress hl).2]
    exact LawfulSteps.step_lt i j n hij (hprogress hl).1 hn
  · intro i k hk ht
    rw [(hprogress hk).2] at ht
    rw [hpath] at hk
    obtain ⟨hi, hk⟩ := h.keyframe hk
    have ho : r.orientation = k.orientation := by
      rw [horientation, Engine.orientationAt_step h0 hi hn ht]
      exact (congrArg Keyframe.orientation hk).symm
    refine ⟨ho, ?_⟩
    have hp : k.point = k.orientation.point := by
      show k.unmarked.point = k.unmarked.orientation.point
      rw [hk]
      rfl
    rw [hpoint, hp, ho]

end Agreement

/-! ## Markers of a visit -/

/-- A mark that was taken: the number of a keyframe, and the marker placed for it. -/
structure Mark where
  index : Int
  handle : Handle

/-- The marker that was last taken for keyframe `i`. -/
def Mark.latest (marks : List Mark) (i : Nat) : Handle :=
  ((marks.filter fun m : Mark => m.index == (i : Int)).getLast?.map Mark.handle).getD noMarker

theorem Mark.latest_concat (marks : List Mark) (m : Mark) (i : Nat) :
    latest (marks ++ [m]) i = if m.index = i then m.handle else latest marks i := by
  unfold latest
  by_cases h : m.index = i <;> simp [h]

/-- A tour with the marks that were taken since the visit underway began. -/
structure Logbook (α : Type) where
  tour : Tour α
  marks : List Mark

namespace Logbook

def new (resolution : Int) : Logbook α := ⟨.new resolution, []⟩

/-- The marks of the visit that a query belongs to: none yet if it is not the visit underway. -/
def marksFor (l : Logbook α) (q : Query α) : List Mark :=
  if l.tour.answers.getLast?.map (·.seq) = some q.seq then l.marks else []

def step (l : Logbook α) (call : EngineCall α) : Logbook α where
  tour := l.tour.step call
  marks :=
    match call with
    | .rotate q =>
      match l.tour.engine.rotationAt q.request q.t with
      | .error _ => l.marks
      | .ok _ => l.marksFor q
    | .mark g index handle =>
      if (l.tour.engine.markRendered g index handle).1 then l.marks ++ [⟨index, handle⟩] else l.marks
    | .reset => []

def run (l : Logbook α) (calls : List (EngineCall α)) : Logbook α := calls.foldl step l

theorem run_tour (calls : List (EngineCall α)) : ∀ l : Logbook α, (l.run calls).tour = l.tour.run calls := by
  induction calls with
  | nil => exact fun l => rfl
  | cons call calls ih => exact fun l => ih (l.step call)

end Logbook

omit [Scalar α] in
/-- A mark is refused and changes nothing, or it is put on a keyframe of the path in flight. -/
theorem Engine.markRendered_cases (e : Engine α) (g : Applied) (index : Int) (handle : Handle) :
    e.markRendered g index handle = (false, e) ∨
    ∃ p, e.active = some p ∧ 0 ≤ index ∧
      e.markRendered g index handle = (true, { e with active := some { p with
        keyframes := p.keyframes.modify index.toNat ({ · with marker := handle }) } }) := by
  unfold markRendered
  split
  · exact .inl rfl
  · rename_i p hp
    split
    · rename_i h
      simp only [Bool.and_eq_true, decide_eq_true_eq] at h
      exact .inr ⟨p, hp, h.1.2, rfl⟩
    · exact .inl rfl

/-- The last answer was given along the path in flight. -/
theorem Tour.Toured.last_seq {s : Tour α} (h : s.Toured) (seq : UInt64) :
    s.answers.getLast?.map (·.seq) = some seq ↔ ∃ p, s.engine.active = some p ∧ p.gate.seq = seq := by
  constructor
  · intro hl
    obtain ⟨b, hb, rfl⟩ := Option.map_eq_some_iff.1 hl
    exact h.charted.last_seq hb
  · rintro ⟨p, hp, rfl⟩
    obtain ⟨front, first, rest, hv, -, hseq, -⟩ := h.charted.in_flight hp
    have hflat : (Answer.visits s.answers).flatten = s.answers := List.flatten_splitBy _ s.answers
    rw [hv, List.flatten_concat] at hflat
    rw [← hflat, List.getLast?_append_of_ne_nil _ (List.cons_ne_nil _ _),
      List.getLast?_eq_some_getLast (List.cons_ne_nil _ _), Option.map_some, hseq _ (List.getLast_mem _)]

namespace Logbook

/-- The markers of the path in flight are those last taken since the visit underway began. -/
structure Kept (l : Logbook α) : Prop where
  toured : l.tour.Toured
  markers : ∀ p ∈ l.tour.engine.active, ∀ (i : Nat) (k : Keyframe α), p.keyframes[i]? = some k →
    k.marker = Mark.latest l.marks i

variable {l : Logbook α} {q : Query α} {p : RotationPath α}

/-- The path of a query has the markers of its visit. -/
theorem Kept.pathFor (h : l.Kept) (hp : l.tour.engine.pathFor q.request = .ok p) (i : Nat) (k : Keyframe α)
    (hk : p.keyframes[i]? = some k) : k.marker = Mark.latest (l.marksFor q) i := by
  unfold marksFor
  rcases Engine.pathFor_cases q.request_code hp with ⟨hp, hs⟩ | ⟨hnew, rfl⟩
  · rw [if_pos ((h.toured.last_seq q.seq).2 ⟨p, hp, hs⟩)]
    exact h.markers p hp i k hk
  · have hother : ¬ l.tour.answers.getLast?.map (·.seq) = some q.seq := by
      rw [h.toured.last_seq]
      rintro ⟨p, hp, hs⟩
      exact hnew p hp hs
    rw [if_neg hother]
    rw [← Engine.path_unmarked] at hk
    obtain ⟨k, -, rfl⟩ := Option.map_eq_some_iff.1 (Array.getElem?_map.symm.trans hk)
    rfl

theorem Kept.mark (h : l.Kept) (g : Applied) (index : Int) (handle : Handle) :
    (l.step (.mark g index handle)).Kept := by
  refine ⟨h.toured.mark g index handle, ?_⟩
  rcases l.tour.engine.markRendered_cases g index handle with he | ⟨p, hp, h0, he⟩
  · simp only [step, Tour.step, he]
    exact h.markers
  · simp only [step, Tour.step, he, if_true]
    rintro _ ⟨rfl⟩ i k hk
    rw [Array.getElem?_modify] at hk
    rw [Mark.latest_concat]
    by_cases hi : index = i
    · rw [if_pos (by omega)] at hk
      obtain ⟨k', -, rfl⟩ := Option.map_eq_some_iff.1 hk
      rw [if_pos hi]
    · rw [if_neg (by omega)] at hk
      rw [if_neg hi]
      exact h.markers p hp i k hk

variable [LawfulUnit α]

theorem Kept.rotate (h : l.Kept) (q : Query α) : (l.step (.rotate q)).Kept := by
  refine ⟨h.toured.step (.rotate q), ?_⟩
  rcases l.tour.step_rotate q with ⟨fault, hfault, hs⟩ | ⟨rotation, turned, hok, hs⟩
  · simp only [step, hs, hfault]
    exact h.markers
  · obtain ⟨p, hp, rfl⟩ := Engine.rotationAt_ok hok
    simp only [step, hs, hok]
    rintro _ ⟨rfl⟩ i k hk
    exact h.pathFor hp i k hk

theorem Kept.step (h : l.Kept) (call : EngineCall α) : (l.step call).Kept := by
  cases call with
  | rotate q => exact h.rotate q
  | mark g index handle => exact h.mark g index handle
  | reset => exact ⟨h.toured.step .reset, nofun⟩

theorem Kept.run (h : l.Kept) (calls : List (EngineCall α)) : (l.run calls).Kept := by
  induction calls generalizing l with
  | nil => exact h
  | cons call calls ih => exact ih (h.step call)

end Logbook

/-! ## Runs -/

/-- The last keyframe of a path is at its target. -/
theorem Engine.path_destination {g : Applied} {start target : Quat α} {n : Nat} (h0 : 0 < n)
    {keyframes : Array (Keyframe α)}
    (h : keyframes.map Keyframe.unmarked = (path g start target n).keyframes) :
    keyframes[n]?.map Keyframe.orientation = some target := by
  rw [path_orientation h]
  simp [path, keyframe, h0.ne']

namespace Logbook

variable [LawfulUnit α] [LawfulSteps α]

/-- The path that was made and the rotations along it agree. After any calls, every query is answered by a
rotation that agrees with its path in all keyframes and shows the markers of its visit, unless a path of so
many keyframes cannot be made. The paths of one visit are the same but for their markers, and lead from the
orientation that was committed when the visit began to the target of its gate. -/
theorem paths_agree_with_rotations (n : Nat) (h0 : 0 < n) (calls : List (EngineCall α)) :
    let l := (Logbook.new n : Logbook α).run calls
    (∀ q : Query α,
      (∃ rotation turned, l.tour.engine.rotationAt q.request q.t = .ok (rotation, turned) ∧
        rotation.Agrees n ∧
        ∀ (i : Nat) (k : Keyframe α), rotation.path[i]? = some k →
          k.marker = Mark.latest (l.marksFor q) i) ∨
      (∃ fault, l.tour.engine.rotationAt q.request q.t = .error fault) ∧ Engine.maxKeyframes < n + 1) ∧
    ∀ visit ∈ Answer.visits l.tour.answers, ∀ first ∈ visit.head?, ∀ a ∈ visit,
      a.rotation.path.map Keyframe.unmarked = first.rotation.path.map Keyframe.unmarked ∧
      a.rotation.path[0]?.map Keyframe.orientation = some first.before ∧
      a.rotation.path[n]?.map Keyframe.orientation = some first.target := by
  intro l
  have hnew : (Logbook.new n : Logbook α).Kept := ⟨⟨.rested rfl rfl, nofun⟩, nofun⟩
  have h : l.Kept := hnew.run calls
  have htour : l.tour = (Tour.new n : Tour α).run calls := run_tour calls _
  constructor
  · intro q
    rcases Tour.rotationAt_even h0 calls q with ⟨hlong, p, turned, hp, heven, hok⟩ | hfault
    · rw [← htour] at hp hok
      exact .inl ⟨_, _, hok, heven.agrees h0 (hlong.trans (by decide)) rfl rfl rfl, h.pathFor hp⟩
    · rw [← htour] at hfault
      exact .inr hfault
  · intro visit hv first hf a ha
    have hpath := h.toured.onePath visit hv first hf
    rw [htour, Tour.resolution_of_pos h0] at hpath
    have hfirst := (hpath first (List.mem_of_mem_head? hf)).2
    have ha := (hpath a ha).2
    exact ⟨ha.trans hfirst.symm, Engine.path_origin ha, Engine.path_destination h0 ha⟩

/-- A keyframe half-way is marked twice, and a mark beyond the path is refused. Back half-way, the rotation is
where that keyframe is, and the keyframe has the second marker. -/
theorem paths_agree_with_rotations_halfway :
    let calls : List (EngineCall Float) := [.rotate ⟨7, .h, 1⟩, .mark ⟨7, ⟨0⟩⟩ 1 3, .rotate ⟨1, .x, 0.5⟩,
      .mark ⟨1, ⟨0⟩⟩ 1 5, .rotate ⟨1, .x, 1⟩, .mark ⟨1, ⟨0⟩⟩ 1 6, .mark ⟨1, ⟨0⟩⟩ 3 8]
    let l := (Logbook.new 2 : Logbook Float).run calls
    0 < 2 ∧ ∃ rotation turned, l.tour.engine.rotationAt ⟨1, Gate.x.code⟩ 0.5 = .ok (rotation, turned) ∧
      rotation.path.size = 3 ∧ ∀ k, rotation.path[1]? = some k →
        rotation.orientation = k.orientation ∧ rotation.point = k.point ∧ k.marker = 6 := by
  intro calls l
  have hmarks : Mark.latest (l.marksFor ⟨1, .x, 0.5⟩) 1 = 6 := by decide +kernel
  have hprogress : ((l.tour.engine.rotationAt ⟨1, Gate.x.code⟩ 0.5).toOption.bind fun answer =>
      answer.1.path[1]?.map (answer.1.progress == ·.progress)) = some true := by decide +kernel
  obtain ⟨hqueries, -⟩ := paths_agree_with_rotations 2 (by decide) calls
  rcases hqueries ⟨1, .x, 0.5⟩ with ⟨rotation, turned, hok, hagrees, hmarkers⟩ | ⟨-, hlong⟩
  · refine ⟨by decide, rotation, turned, hok, hagrees.size, fun k hk => ?_⟩
    have hthere : (rotation.progress == k.progress) = true := by
      rw [show l.tour.engine.rotationAt ⟨1, Gate.x.code⟩ 0.5 = .ok (rotation, turned) from hok] at hprogress
      simpa [Except.toOption, hk] using hprogress
    obtain ⟨horientation, hpoint⟩ := hagrees.there 1 k hk hthere
    exact ⟨horientation, hpoint, (hmarkers 1 k hk).trans hmarks⟩
  · exact absurd hlong (by decide)

end Logbook

end BlochSphere
