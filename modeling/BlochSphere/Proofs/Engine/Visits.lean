/-
Runs of the rotation engine. The queries since the last reset fall into visits, a visit being a longest run
of queries for one sequence number. A visit keeps to one path, which starts at the orientation that was
committed when the visit began, and commits the end of that path once if any of its queries reaches it,
whatever comes before, between and after.
-/
import BlochSphere.Proofs.Engine
import BlochSphere.Proofs.Quat
import BlochSphere.Proofs.Scalar.UnitInterval
import Mathlib.Data.List.SplitBy

namespace BlochSphere

/-! ## Paths but for their markers -/

section Unmarked

variable {α : Type}

/-- A keyframe without its marker. -/
def Keyframe.unmarked (k : Keyframe α) : Keyframe α := { k with marker := noMarker }

/-- A path without its markers. -/
def RotationPath.unmarked (p : RotationPath α) : RotationPath α :=
  { p with keyframes := p.keyframes.map Keyframe.unmarked }

namespace Engine

/-- Marking a keyframe changes nothing but markers. -/
theorem markRendered_unmarked {e : Engine α} {p : RotationPath α} (h : e.active = some p) (g : Applied)
    (index : Int) (handle : Handle) :
    ∃ q, q.unmarked = p.unmarked ∧ (e.markRendered g index handle).2 = { e with active := some q } := by
  unfold markRendered
  rw [h]
  dsimp only
  split
  · refine ⟨_, ?_, rfl⟩
    have hmarks : (p.keyframes.modify index.toNat ({ · with marker := handle })).map Keyframe.unmarked =
        p.keyframes.map Keyframe.unmarked := by
      apply Array.ext_getElem?
      intro i
      rw [Array.getElem?_map, Array.getElem?_map, Array.getElem?_modify]
      split
      · rw [Option.map_map]
        rfl
      · rfl
    unfold RotationPath.unmarked
    rw [hmarks]
  · refine ⟨p, rfl, ?_⟩
    rw [← h]

/-- Markers have no part in where keyframes are. -/
theorem path_orientation {p : RotationPath α} {keyframes : Array (Keyframe α)}
    (h : keyframes.map Keyframe.unmarked = p.keyframes) (i : Nat) :
    keyframes[i]?.map Keyframe.orientation = p.keyframes[i]?.map Keyframe.orientation := by
  rw [← h, Array.getElem?_map, Option.map_map]
  rfl

variable [Scalar α]

/-- A new path has no markers. -/
theorem path_unmarked (g : Applied) (start target : Quat α) (resolution : Nat) :
    (path g start target resolution).unmarked = path g start target resolution := by
  unfold RotationPath.unmarked
  have hkeyframes : (path g start target resolution).keyframes.map Keyframe.unmarked =
      (path g start target resolution).keyframes := by
    unfold path
    rw [Array.map_ofFn]
    rfl
  rw [hkeyframes]

/-- The first keyframe of a path is at its start. -/
theorem path_origin {g : Applied} {start target : Quat α} {resolution : Nat} {keyframes : Array (Keyframe α)}
    (h : keyframes.map Keyframe.unmarked = (path g start target resolution).keyframes) :
    keyframes[0]?.map Keyframe.orientation = some start := by
  rw [path_orientation h]
  simp [path, keyframe]

end Engine

end Unmarked

/-! ## Queries and answers -/

/-- What is asked of an engine: how far a request stands at some progress. -/
structure Query (α : Type) where
  seq : UInt64
  gate : Gate
  t : α

/-- The request that a query is about. -/
def Query.request {α : Type} (q : Query α) : Applied := ⟨q.seq, q.gate.code⟩

theorem Query.request_code {α : Type} (q : Query α) : q.request.code = q.gate.code := rfl

inductive EngineCall (α : Type) where
  | rotate (query : Query α)
  | mark (g : Applied) (index : Int) (handle : Handle)
  | reset

/-- A query with the orientation that was committed before it and the rotation it got. -/
structure Answer (α : Type) extends Query α where
  before : Quat α
  rotation : Rotation α

/-- An engine with its answers since the last reset. -/
structure Tour (α : Type) where
  engine : Engine α
  answers : List (Answer α)

/-- The queries since the last reset, with one call more. -/
def EngineCall.heard {α : Type} (queries : List (Query α)) : EngineCall α → List (Query α)
  | .rotate query => queries ++ [query]
  | .mark _ _ _ => queries
  | .reset => []

/-- The queries since the last reset. -/
def EngineCall.asked {α : Type} (calls : List (EngineCall α)) : List (Query α) := calls.foldl heard []

namespace Answer

variable {α : Type}

/-- The longest runs of answers for one sequence number. -/
def visits (answers : List (Answer α)) : List (List (Answer α)) := answers.splitBy fun a b => a.seq == b.seq

variable [Scalar α]

/-- The gates of the visits that reached the end, one for each. -/
def committed (visits : List (List (Answer α))) : List Gate :=
  visits.filterMap fun visit => if visit.any (1 ≤ ·.t) then visit.head?.map (·.gate) else none

/-- The orientation that the path of an answer's visit leads to if the visit begins with it. -/
def target (a : Answer α) : Quat α := a.gate.turn * a.before

end Answer

namespace Tour

variable {α : Type} [Scalar α]

def new (resolution : Int) : Tour α := ⟨Engine.new resolution, []⟩

/-- A query that faults leaves everything as it was. -/
def step (s : Tour α) : EngineCall α → Tour α
  | .rotate query =>
    match s.engine.rotationAt query.request query.t with
    | .error _ => s
    | .ok (rotation, engine) => ⟨engine, s.answers ++ [⟨query, s.engine.current, rotation⟩]⟩
  | .mark g index handle => { s with engine := (s.engine.markRendered g index handle).2 }
  | .reset => ⟨s.engine.reset, []⟩

def run (s : Tour α) (calls : List (EngineCall α)) : Tour α := calls.foldl step s

end Tour

/-! ## Visits -/

namespace Answer

variable {α : Type} {answers : List (Answer α)} {a : Answer α}

/-- An answer for the number of the visit underway belongs to that visit. -/
theorem visits_extend {front : List (List (Answer α))} {visit : List (Answer α)}
    (h : visits answers = front ++ [visit]) (ha : ∀ b ∈ visit, b.seq = a.seq) :
    visits (answers ++ [a]) = front ++ [visit ++ [a]] := by
  unfold visits at h ⊢
  rw [List.splitBy_eq_iff] at h ⊢
  obtain ⟨hflat, hnil, hchain, hbreaks⟩ := h
  have hne : visit ≠ [] := by
    rintro rfl
    exact hnil (by simp)
  refine ⟨by rw [hflat]; simp, by simpa using fun h => hnil (List.mem_append_left _ h), ?_, ?_⟩
  · intro m hm
    rcases List.mem_append.1 hm with hm | hm
    · exact hchain m (List.mem_append_left _ hm)
    · rw [List.mem_singleton.1 hm]
      refine List.isChain_append.2 ⟨hchain visit (by simp), .singleton _, fun x hx y hy => ?_⟩
      cases hy
      simpa using ha x (List.mem_of_mem_getLast? hx)
  · rw [List.isChain_append] at hbreaks ⊢
    refine ⟨hbreaks.1, .singleton _, fun x hx y hy => ?_⟩
    cases hy
    obtain ⟨hx', hv, hb⟩ := hbreaks.2.2 x hx visit rfl
    refine ⟨hx', by simp, ?_⟩
    rwa [List.head_append_of_ne_nil hv]

/-- An answer for another number begins a visit. -/
theorem visits_begin (h : ∀ b ∈ answers.getLast?, b.seq ≠ a.seq) :
    visits (answers ++ [a]) = visits answers ++ [[a]] := by
  unfold visits
  rw [List.splitBy_append_cons]
  · rfl
  · intro b hb
    simpa using h b hb

variable [Scalar α]

theorem committed_concat (front : List (List (Answer α))) (first : Answer α) (rest : List (Answer α)) :
    committed (front ++ [first :: rest]) =
      committed front ++ if (first :: rest).any (1 ≤ ·.t) then [first.gate] else [] := by
  unfold committed
  rw [List.filterMap_append, List.filterMap_cons, List.filterMap_nil]
  cases (first :: rest).any (1 ≤ ·.t) <;> rfl

/-- The path of a visit that begins with an answer. -/
def path (a : Answer α) (resolution : Nat) : RotationPath α :=
  Engine.path a.request a.before a.target resolution

/-- All answers of a visit are for one number and show, but for markers, the path of the first. -/
def OnePath (resolution : Nat) (visit : List (Answer α)) : Prop :=
  ∀ first ∈ visit.head?, ∀ a ∈ visit, a.seq = first.seq ∧
    a.rotation.path.map Keyframe.unmarked = (first.path resolution).keyframes

end Answer

/-! ## The path in flight -/

open Answer

variable {α : Type} [Scalar α]

/-- What an engine holds after some visits. -/
inductive Charted (e : Engine α) : List (List (Answer α)) → Prop where
  -- nothing was asked since the last reset
  | rested (hc : e.current = Quat.identity) (hp : e.active = none) : Charted e []
  -- the path of the last visit is in flight, and committed if the visit reached its end
  | underway {front : List (List (Answer α))} {first : Answer α} {rest : List (Answer α)}
    {p : RotationPath α} (hp : e.active = some p) (hpath : p.unmarked = first.path e.resolution)
    (hseq : ∀ a ∈ first :: rest, a.seq = first.seq)
    (hbefore : first.before = Quat.identity.turnAll (committed front))
    (hc : e.current = if (first :: rest).any (1 ≤ ·.t) then first.target else first.before) :
    Charted e (front ++ [first :: rest])

namespace Charted

variable {e : Engine α} {visits : List (List (Answer α))}

theorem current_eq (h : Charted e visits) : e.current = Quat.identity.turnAll (committed visits) := by
  cases h with
  | rested hc _ => exact hc
  | underway hp hpath hseq hbefore hc =>
    rw [committed_concat, Quat.turnAll_append, ← hbefore, hc]
    split <;> rfl

/-- A path in flight is that of the last visit. -/
theorem in_flight (h : Charted e visits) {p : RotationPath α} (hp : e.active = some p) :
    ∃ front first rest, visits = front ++ [first :: rest] ∧ p.unmarked = first.path e.resolution ∧
      (∀ a ∈ first :: rest, a.seq = p.gate.seq) ∧
      first.before = Quat.identity.turnAll (committed front) ∧
      e.current = if (first :: rest).any (1 ≤ ·.t) then first.target else first.before := by
  cases h with
  | rested _ hn =>
    rw [hn] at hp
    cases hp
  | underway hp' hpath hseq hbefore hc =>
    rw [hp'] at hp
    cases hp
    have hfirst : p.gate.seq = _ := congrArg (·.gate.seq) hpath
    exact ⟨_, _, _, rfl, hpath, fun a ha => (hseq a ha).trans hfirst.symm, hbefore, hc⟩

/-- The last answer was for the path in flight. -/
theorem last_seq {answers : List (Answer α)} (h : Charted e (Answer.visits answers)) {b : Answer α}
    (hb : answers.getLast? = some b) : ∃ p, e.active = some p ∧ p.gate.seq = b.seq := by
  have hflat : (Answer.visits answers).flatten = answers := List.flatten_splitBy _ answers
  cases hp : e.active with
  | some p =>
    obtain ⟨front, first, rest, hv, _, hseq, _⟩ := h.in_flight hp
    rw [hv, List.flatten_concat] at hflat
    rw [← hflat, List.getLast?_append_of_ne_nil _ (List.cons_ne_nil _ _)] at hb
    exact ⟨p, rfl, (hseq b (List.mem_of_getLast? hb)).symm⟩
  | none =>
    generalize Answer.visits answers = visits at h hflat
    cases h with
    | rested _ _ =>
      rw [← hflat] at hb
      cases hb
    | underway hp' =>
      rw [hp] at hp'
      cases hp'

theorem mark (h : Charted e visits) (g : Applied) (index : Int) (handle : Handle) :
    Charted (e.markRendered g index handle).2 visits := by
  cases h with
  | rested hc hp =>
    unfold Engine.markRendered
    rw [hp]
    exact .rested hc hp
  | underway hp hpath hseq hbefore hc =>
    obtain ⟨q, hq, he⟩ := Engine.markRendered_unmarked hp g index handle
    rw [he]
    exact .underway rfl (hq.trans hpath) hseq hbefore hc

end Charted

/-! ## Which queries are answered -/

namespace Tour

/-- A query faults, or it is answered. -/
theorem step_rotate (s : Tour α) (q : Query α) :
    (∃ fault, s.engine.rotationAt q.request q.t = .error fault ∧ s.step (.rotate q) = s) ∨
    ∃ rotation turned, s.engine.rotationAt q.request q.t = .ok (rotation, turned) ∧
      s.step (.rotate q) = ⟨turned, s.answers ++ [⟨q, s.engine.current, rotation⟩]⟩ := by
  cases hq : s.engine.rotationAt q.request q.t with
  | error fault =>
    refine .inl ⟨fault, rfl, ?_⟩
    simp only [step, hq]
  | ok answer =>
    refine .inr ⟨answer.1, answer.2, rfl, ?_⟩
    simp only [step, hq]

theorem step_resolution (s : Tour α) (call : EngineCall α) :
    (s.step call).engine.resolution = s.engine.resolution := by
  cases call with
  | rotate q =>
    rcases s.step_rotate q with ⟨fault, _, hs⟩ | ⟨rotation, turned, hok, hs⟩
    · rw [hs]
    · obtain ⟨p, -, rfl⟩ := Engine.rotationAt_ok hok
      rw [hs]
  | mark g index handle =>
    show (s.engine.markRendered g index handle).2.bare.resolution = s.engine.bare.resolution
    rw [Engine.markRendered_bare]
  | reset => rfl

/-- Every query is answered if a path of so many keyframes can be made. -/
theorem answers_run (calls : List (EngineCall α)) : ∀ s : Tour α,
    s.engine.resolution < Engine.maxKeyframes → (s.run calls).answers.map Answer.toQuery =
      calls.foldl EngineCall.heard (s.answers.map Answer.toQuery) := by
  induction calls with
  | nil => exact fun s _ => rfl
  | cons call calls ih =>
    intro s hr
    have hstep : (s.step call).answers.map Answer.toQuery =
        EngineCall.heard (s.answers.map Answer.toQuery) call := by
      cases call with
      | rotate q =>
        rcases s.step_rotate q with ⟨fault, hfault, _⟩ | ⟨rotation, turned, _, hs⟩
        · have hlong := Engine.rotationAt_error q.request_code hfault
          omega
        · rw [hs]
          exact List.map_append
      | mark g index handle => rfl
      | reset => rfl
    rw [List.foldl_cons, ← hstep]
    exact ih (s.step call) (s.step_resolution call ▸ hr)

/-- Otherwise every query faults. -/
theorem rotationAt_of_long {e : Engine α} (hr : ¬ e.resolution < Engine.maxKeyframes) (hn : e.active = none)
    (q : Query α) : e.rotationAt q.request q.t = .error .pathTooLong := by
  have hp : e.pathFor q.request = .error .pathTooLong := by
    have hlong : Engine.maxKeyframes < e.resolution + 1 := by omega
    rw [Engine.pathFor_new fun p hp => by rw [hn] at hp; cases hp]
    unfold Engine.newPath
    simp only [Engine.turn_of_gate q.request_code, if_pos hlong]
  unfold Engine.rotationAt
  simp only [hp]

theorem run_at_rest (calls : List (EngineCall α)) : ∀ s : Tour α,
    ¬ s.engine.resolution < Engine.maxKeyframes → s.engine.active = none → s.answers = [] →
      (s.run calls).engine.active = none ∧ (s.run calls).answers = [] := by
  induction calls with
  | nil => exact fun s _ hn ha => ⟨hn, ha⟩
  | cons call calls ih =>
    intro s hr hn ha
    have hstep : (s.step call).engine.active = none ∧ (s.step call).answers = [] := by
      cases call with
      | rotate q =>
        simp only [step, rotationAt_of_long hr hn]
        exact ⟨hn, ha⟩
      | mark g index handle =>
        have hmark : s.step (.mark g index handle) = s := by simp only [step, Engine.markRendered, hn]
        rw [hmark]
        exact ⟨hn, ha⟩
      | reset => exact ⟨rfl, rfl⟩
    exact ih (s.step call) (s.step_resolution call ▸ hr) hstep.1 hstep.2

theorem run_resolution (calls : List (EngineCall α)) :
    ∀ s : Tour α, (s.run calls).engine.resolution = s.engine.resolution := by
  induction calls with
  | nil => exact fun s => rfl
  | cons call calls ih => exact fun s => (ih (s.step call)).trans (s.step_resolution call)

end Tour

/-! ## Runs -/

namespace Tour

/-- The engine holds what the visits lead to, and every visit kept to one path. -/
structure Toured (s : Tour α) : Prop where
  charted : Charted s.engine (Answer.visits s.answers)
  onePath : ∀ visit ∈ Answer.visits s.answers, OnePath s.engine.resolution visit

variable {s : Tour α} {q : Query α} {rotation : Rotation α} {p : RotationPath α}

/-- A query along the path in flight. -/
theorem Toured.go_on (h : s.Toured) (hp : s.engine.active = some p) (hs : p.gate.seq = q.seq)
    (hpath : rotation.path = p.keyframes) :
    Toured ⟨⟨s.engine.resolution, if 1 ≤ q.t then p.target else s.engine.current, some p⟩,
      s.answers ++ [⟨q, s.engine.current, rotation⟩]⟩ := by
  obtain ⟨front, first, rest, hv, hu, hseq, hbefore, hc⟩ := h.charted.in_flight hp
  have htarget : p.target = first.target := congrArg RotationPath.target hu
  have hfirst : p.gate.seq = first.seq := congrArg (·.gate.seq) hu
  let a : Answer α := ⟨q, s.engine.current, rotation⟩
  have hv' : Answer.visits (s.answers ++ [a]) = front ++ [first :: (rest ++ [a])] := by
    refine visits_extend hv fun b hb => ?_
    rw [hseq b hb, hs]
  have hsame : ∀ b ∈ first :: (rest ++ [a]), b ∈ first :: rest ∨ b = a := by
    intro b hb
    rw [← List.cons_append, List.mem_append, List.mem_singleton] at hb
    exact hb
  refine ⟨hv' ▸ .underway rfl hu (fun b hb => ?_) hbefore ?_, hv' ▸ fun visit hm => ?_⟩
  · rcases hsame b hb with hb | rfl
    · exact (hseq b hb).trans hfirst
    · exact hs.symm.trans hfirst
  · show (if 1 ≤ q.t then p.target else s.engine.current) = _
    rw [← List.cons_append, List.any_append, htarget, hc]
    by_cases ht : 1 ≤ q.t
    · simp [a, ht]
    · simp [a, ht]
  · rcases List.mem_append.1 hm with hm | hm
    · exact h.onePath visit (hv ▸ List.mem_append_left _ hm)
    · cases List.mem_singleton.1 hm
      have hold := h.onePath (first :: rest) (hv ▸ by simp) first rfl
      intro _ hf b hb
      cases hf
      rcases hsame b hb with hb | rfl
      · exact hold b hb
      · exact ⟨hs.symm.trans hfirst, hpath ▸ congrArg RotationPath.keyframes hu⟩

/-- A query that begins a path. -/
theorem Toured.begin (h : s.Toured) (hnew : ∀ p, s.engine.active = some p → p.gate.seq ≠ q.seq)
    (hpath : rotation.path =
      (Engine.path q.request s.engine.current (q.gate.turn * s.engine.current) s.engine.resolution).keyframes) :
    let p := Engine.path q.request s.engine.current (q.gate.turn * s.engine.current) s.engine.resolution
    Toured ⟨⟨s.engine.resolution, if 1 ≤ q.t then p.target else s.engine.current, some p⟩,
      s.answers ++ [⟨q, s.engine.current, rotation⟩]⟩ := by
  intro p
  have hv : Answer.visits (s.answers ++ [⟨q, s.engine.current, rotation⟩]) =
      Answer.visits s.answers ++ [[⟨q, s.engine.current, rotation⟩]] := by
    refine visits_begin fun b hb hs => ?_
    obtain ⟨p, hp, hb⟩ := h.charted.last_seq hb
    exact hnew p hp (hb.trans hs)
  refine ⟨hv ▸ .underway rfl (Engine.path_unmarked ..) (by simp) h.charted.current_eq ?_, hv ▸ ?_⟩
  · simp only [List.any_cons, List.any_nil, Bool.or_false, decide_eq_true_eq]
    rfl
  · intro visit hm
    rcases List.mem_append.1 hm with hm | hm
    · exact h.onePath visit hm
    · cases List.mem_singleton.1 hm
      intro first hf a ha
      cases hf
      cases List.mem_singleton.1 ha
      refine ⟨rfl, ?_⟩
      show rotation.path.map Keyframe.unmarked = _
      rw [hpath]
      exact congrArg RotationPath.keyframes (Engine.path_unmarked ..)

theorem Toured.mark (h : s.Toured) (g : Applied) (index : Int) (handle : Handle) :
    (s.step (.mark g index handle)).Toured := by
  have hr := s.step_resolution (.mark g index handle)
  exact ⟨h.charted.mark g index handle, fun visit hm => hr.symm ▸ h.onePath visit hm⟩

variable [LawfulUnit α]

theorem Toured.rotate {turned : Engine α} (h : s.Toured)
    (hok : s.engine.rotationAt q.request q.t = .ok (rotation, turned)) :
    Toured ⟨turned, s.answers ++ [⟨q, s.engine.current, rotation⟩]⟩ := by
  obtain ⟨p, hp, rfl⟩ := Engine.rotationAt_ok hok
  have hpath := (Engine.rotationAt_path hok hp).1
  simp only [LawfulUnit.clamp_beq_one, decide_eq_true_eq]
  rcases Engine.pathFor_cases q.request_code hp with ⟨hp, hs⟩ | ⟨hnew, rfl⟩
  · exact h.go_on hp hs hpath
  · exact h.begin hnew hpath

theorem Toured.step (h : s.Toured) (call : EngineCall α) : (s.step call).Toured := by
  cases call with
  | rotate q =>
    rcases s.step_rotate q with ⟨fault, _, hs⟩ | ⟨rotation, turned, hok, hs⟩
    · rw [hs]
      exact h
    · rw [hs]
      exact h.rotate hok
  | mark g index handle => exact h.mark g index handle
  | reset => exact ⟨.rested rfl rfl, nofun⟩

theorem Toured.run (h : s.Toured) (calls : List (EngineCall α)) : (s.run calls).Toured := by
  induction calls generalizing s with
  | nil => exact h
  | cons call calls ih => exact ih (h.step call)

/-- The engine commits each gate exactly once. Unless a path of so many keyframes cannot be made, and then
nothing is ever answered, all queries are answered; the visits that reach the end are committed, in their
order and each of them once; all that is answered in a visit is along a path from the orientation that was
committed when the visit began; and neither a query short of the end nor a marker commits anything. -/
theorem commits_each_gate_once (resolution : Int) (calls : List (EngineCall α)) :
    let s := (new resolution : Tour α).run calls
    (s.answers.map Answer.toQuery =
      if (Engine.new resolution : Engine α).resolution < Engine.maxKeyframes then EngineCall.asked calls
      else []) ∧
    (¬ (Engine.new resolution : Engine α).resolution < Engine.maxKeyframes →
      ∀ q : Query α, s.engine.rotationAt q.request q.t = .error .pathTooLong) ∧
    s.engine.current = Quat.identity.turnAll (committed (Answer.visits s.answers)) ∧
    (∀ visit ∈ Answer.visits s.answers, ∀ first ∈ visit.head?, ∀ a ∈ visit,
      a.rotation.path[0]?.map Keyframe.orientation = some first.before) ∧
    (∀ q : Query α, ¬ 1 ≤ q.t → (s.step (.rotate q)).engine.current = s.engine.current) ∧
    ∀ g index handle, (s.step (.mark g index handle)).engine.current = s.engine.current := by
  intro s
  have hnew : (new resolution : Tour α).Toured := ⟨.rested rfl rfl, nofun⟩
  have h : s.Toured := hnew.run calls
  refine ⟨?_, fun hr q => ?_, h.charted.current_eq, fun visit hv first hf a ha => ?_, fun q ht => ?_,
    fun g index handle => ?_⟩
  · split
    · rename_i hr
      exact answers_run calls (new resolution) hr
    · rename_i hr
      exact congrArg (List.map Answer.toQuery) (run_at_rest calls (new resolution) hr rfl rfl).2
  · have hs : s.engine.resolution = (new resolution : Tour α).engine.resolution := run_resolution calls _
    exact rotationAt_of_long (hs ▸ hr) (run_at_rest calls (new resolution) hr rfl rfl).1 q
  · exact Engine.path_origin (h.onePath visit hv first hf a ha).2
  · rcases s.step_rotate q with ⟨fault, _, hs⟩ | ⟨rotation, turned, hok, hs⟩
    · rw [hs]
    · obtain ⟨p, -, rfl⟩ := Engine.rotationAt_ok hok
      rw [hs]
      simp only [LawfulUnit.clamp_beq_one, decide_eq_true_eq, if_neg ht]
  · show (s.engine.markRendered g index handle).2.bare.current = s.engine.bare.current
    rw [Engine.markRendered_bare]

/-- The end is asked for twice and left again, another request is abandoned half-way, and the first one
comes back. -/
theorem commits_each_gate_once_going_back :
    let calls : List (EngineCall Float) := [.rotate ⟨7, .h, 1⟩, .reset, .rotate ⟨1, .x, 0.5⟩,
      .mark ⟨1, ⟨0⟩⟩ 0 5, .rotate ⟨1, .x, 1⟩, .rotate ⟨1, .x, 2⟩, .rotate ⟨1, .x, 0⟩, .rotate ⟨2, .y, 0.5⟩,
      .rotate ⟨1, .x, 1⟩, .rotate ⟨3, .t, -1⟩]
    let s := (new 2 : Tour Float).run calls
    (Answer.visits s.answers).map List.length = [4, 1, 1, 1] ∧
      s.engine.current = Quat.identity.turnAll [.x, .x] ∧
      ¬ (1 : Float) ≤ 0.5 ∧ (s.step (.rotate ⟨4, .z, 0.5⟩)).engine.current = s.engine.current := by
  intro calls s
  have hlength : (Answer.visits s.answers).map List.length = [4, 1, 1, 1] := by decide +kernel
  have hgates : committed (Answer.visits s.answers) = [.x, .x] := by decide +kernel
  have ht : ¬ (1 : Float) ≤ 0.5 := by decide +kernel
  obtain ⟨-, -, hcurrent, -, hshort, -⟩ := commits_each_gate_once 2 calls
  exact ⟨hlength, hgates ▸ hcurrent, ht, hshort ⟨4, .z, 0.5⟩ ht⟩

/-- The path of a request has too many keyframes to be made. -/
theorem long_path_commits_nothing :
    ((new 4000000000000 : Tour Float).run [.rotate ⟨1, .x, 1⟩]).engine.current ≠
      Quat.identity.turnAll [.x] := by
  intro h
  have hbits := congrArg (·.i.toBits) h
  revert hbits
  decide +kernel

end Tour

end BlochSphere
