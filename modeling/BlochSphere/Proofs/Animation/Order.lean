/-
First in, first out. After every run the completed, the active and the pending requests are the
requests since the last reset, in their order; the frames published since then are cut into one
block for each request; and the numbers of the requests go up by one, through resets as well.
-/
import BlochSphere.Proofs.Animation.Stage
import Mathlib

namespace BlochSphere

/-! ## Blocks of frames -/

section Blocks

variable {α : Type}

/-- Frames of one request, of which at most the last completes it. -/
structure Block (g : Applied) (frames : List (Frame α)) : Prop where
  ne_nil : frames ≠ []
  gate : ∀ f ∈ frames, f.gate = g
  early : ∀ f ∈ frames.dropLast, f.complete = false

/-- The last frame completes its request. -/
def Closed (frames : List (Frame α)) : Prop := ∃ f, frames.getLast? = some f ∧ f.complete = true

/-- The frames are the blocks of the first requests, and only the last block may be unfinished. -/
structure InBlocks (requests : List Applied) (frames : List (Frame α))
    (blocks : List (List (Frame α))) : Prop where
  flatten : frames = blocks.flatten
  block : List.Forall₂ Block (requests.take blocks.length) blocks
  closed : ∀ b ∈ blocks.dropLast, Closed b

/-- The frames are closed blocks, one for each completed request, and then frames that do not
complete the request being shown. -/
def Filmed (frames : List (Frame α)) (completed current : List Applied) : Prop :=
  ∃ (blocks : List (List (Frame α))) (rest : List (Frame α)), frames = blocks.flatten ++ rest ∧
    List.Forall₂ Block completed blocks ∧ (∀ b ∈ blocks, Closed b) ∧
    ∀ f ∈ rest, f.complete = false ∧ f.gate ∈ current

variable {frames : List (Frame α)} {completed current : List Applied} {f : Frame α} {g : Applied}

theorem Filmed.nil : Filmed ([] : List (Frame α)) [] current :=
  ⟨[], [], rfl, .nil, nofun, nofun⟩

/-- While no request is shown no block is unfinished, so any request can be shown next. -/
theorem Filmed.next (h : Filmed frames completed []) : Filmed frames completed current := by
  obtain ⟨blocks, rest, hf, hb, hc, hr⟩ := h
  exact ⟨blocks, rest, hf, hb, hc, fun f hm => absurd (hr f hm).2 List.not_mem_nil⟩

theorem Filmed.show (h : Filmed frames completed [g]) (hg : f.gate = g) (hf : f.complete = false) :
    Filmed (frames ++ [f]) completed [g] := by
  obtain ⟨blocks, rest, rfl, hb, hc, hr⟩ := h
  refine ⟨blocks, rest ++ [f], List.append_assoc _ _ _, hb, hc, fun f' hm => ?_⟩
  rcases List.mem_append.1 hm with hm | hm
  · exact hr f' hm
  · rw [List.mem_singleton.1 hm]
    exact ⟨hf, List.mem_singleton.2 hg⟩

/-- The completing frame closes the block of its request. -/
theorem Filmed.complete (h : Filmed frames completed [g]) (hg : f.gate = g)
    (hf : f.complete = true) : Filmed (frames ++ [f]) (completed ++ [g]) [] := by
  obtain ⟨blocks, rest, rfl, hb, hc, hr⟩ := h
  have block : Block g (rest ++ [f]) := by
    refine ⟨List.concat_ne_nil f rest, fun f' hm => ?_, fun f' hm => ?_⟩
    · rcases List.mem_append.1 hm with hm | hm
      · exact List.mem_singleton.1 (hr f' hm).2
      · rw [List.mem_singleton.1 hm, hg]
    · rw [List.dropLast_concat] at hm
      exact (hr f' hm).1
  -- the unfinished frames and the completing one make up the next closed block
  refine ⟨blocks ++ [rest ++ [f]], [], ?_, List.rel_append hb (.cons block .nil), fun b hm => ?_, nofun⟩
  · simp only [List.flatten_append, List.flatten_cons, List.flatten_nil, List.append_nil,
      List.append_assoc]
  · rcases List.mem_append.1 hm with hm | hm
    · exact hc b hm
    · rw [List.mem_singleton.1 hm]
      exact ⟨f, List.getLast?_concat, hf⟩

/-- The unfinished frames, if there are any, are the last block. -/
theorem Filmed.inBlocks (h : Filmed frames completed current) (h1 : current.length ≤ 1)
    (pending : List Applied) :
    ∃ blocks, InBlocks (completed ++ current ++ pending) frames blocks := by
  obtain ⟨blocks, rest, rfl, hb, hc, hr⟩ := h
  have hl : completed.length = blocks.length := hb.length_eq
  cases rest with
  | nil =>
    refine ⟨blocks, List.append_nil _, ?_, fun b hm => hc b (List.dropLast_subset _ hm)⟩
    rw [← hl, List.append_assoc, List.take_left]
    exact hb
  | cons f rest =>
    -- the frame `f` names the request that is shown
    have hg : current = [f.gate] := by
      obtain ⟨g, rfl⟩ := List.length_eq_one_iff.1
        (Nat.le_antisymm h1 (List.length_pos_of_mem (hr f List.mem_cons_self).2))
      rw [List.mem_singleton.1 (hr f List.mem_cons_self).2]
    subst hg
    have block : Block f.gate (f :: rest) :=
      ⟨nofun, fun f' hm => List.mem_singleton.1 (hr f' hm).2,
        fun f' hm => (hr f' (List.dropLast_subset _ hm)).1⟩
    refine ⟨blocks ++ [f :: rest], ?_, ?_, ?_⟩
    · simp only [List.flatten_append, List.flatten_cons, List.flatten_nil, List.append_nil]
    · have hn : (blocks ++ [f :: rest]).length = (completed ++ [f.gate]).length := by
        rw [List.length_append, List.length_append, hl]
        rfl
      rw [hn, List.take_left]
      exact List.rel_append hb (.cons block .nil)
    · rw [List.dropLast_concat]
      exact hc

end Blocks

/-! ## What an animator has shown -/

namespace Animator

variable {ρ α : Type} {a b : Animator (Traced ρ α) α} {active : Active}

theorem activate_frames (h : a.activate = some (active, b)) : b.frames = a.frames := by
  rw [activate_eq h]
  rfl

/-- A request that becomes active was the next one. -/
theorem activate_work (h : a.activate = some (active, b)) : b.work = a.work := by
  have hf : b.completed = a.completed := congrArg completions (activate_frames h)
  have ht : b.current ++ b.pending = a.current ++ a.pending := activate_todo h
  unfold work
  rw [List.append_assoc, List.append_assoc, hf, ht]

theorem activate_filmed (h : a.activate = some (active, b))
    (hf : Filmed a.frames a.completed a.current) :
    Filmed b.frames b.completed [active.gate] := by
  unfold completed at hf ⊢
  rw [activate_frames h]
  rcases activate_cases h with ⟨ha, _⟩ | ⟨ha, _⟩
  · rw [current_of_active ha] at hf
    exact hf
  · rw [current_of_none ha] at hf
    exact hf.next

theorem queue_work (a : Animator (Traced ρ α) α) (code : GateCode) :
    (a.queue code).2.work = a.work ++ [(a.queue code).1] := by
  simp only [work, completed, frames, current, queue_renderer, queue_active, queue_pending,
    queue_fst, List.append_assoc]

variable [Scalar α] [Renderer ρ α] {s : Shot (Traced ρ α) α} {t : Traced ρ α}

theorem expose_completed (hs : a.shot active = .ok s)
    (hr : Renderer.render s.renderer s.frame = (.ok (), t)) :
    (a.expose s t).completed =
      if s.frame.complete then a.completed ++ [active.gate] else a.completed := by
  obtain ⟨_, hshot⟩ := shot_spec hs
  unfold completed
  rw [expose_shown hs hr, completions_concat, hshot.gate]

/-- A completed request moves from the active to the completed ones. -/
theorem expose_work (ha : a.active = some active) (hs : a.shot active = .ok s)
    (hr : Renderer.render s.renderer s.frame = (.ok (), t)) (hc : s.frame.complete = true) :
    (a.expose s t).completed ++ [] ++ a.pending = a.work := by
  unfold work
  rw [expose_completed hs hr, hc, current_of_active ha, List.append_nil]
  rfl

/-- No callback loses, repeats or moves a request. -/
theorem FrameStep.work_eq {generation : UInt64} {outcome : Except Fault Unit × Animator (Traced ρ α) α}
    (h : FrameStep a generation outcome) : outcome.2.work = a.work := by
  cases h with
  | ignored => rfl
  | drained => rfl
  | blocked _ hb _ => exact activate_work hb
  | @refused active b s fault r _ hb hs hr =>
    rw [← activate_work hb]
    show completions (b.expose s r).frames ++ b.current ++ b.pending = _
    rw [expose_refused hs hr]
    rfl
  | @shown active b s r _ hb hs hr hc =>
    rw [← activate_work hb]
    show (b.expose s r).completed ++ b.current ++ b.pending = _
    rw [expose_completed hs hr, hc]
    rfl
  | passed _ hb hs hr hc _ =>
    rw [← activate_work hb]
    exact expose_work (activate_active hb) hs hr hc
  | ended _ hb hs hr hc _ =>
    rw [← activate_work hb]
    exact expose_work (activate_active hb) hs hr hc

theorem expose_complete (hs : a.shot active = .ok s)
    (hr : Renderer.render s.renderer s.frame = (.ok (), t)) (hc : s.frame.complete = true)
    (hf : Filmed a.frames a.completed [active.gate]) :
    Filmed (a.expose s t).frames (a.expose s t).completed [] := by
  obtain ⟨_, hshot⟩ := shot_spec hs
  rw [expose_completed hs hr, hc, expose_shown hs hr]
  exact hf.complete hshot.gate hc

theorem FrameStep.filmed {generation : UInt64} {outcome : Except Fault Unit × Animator (Traced ρ α) α}
    (h : FrameStep a generation outcome) (hf : Filmed a.frames a.completed a.current) :
    Filmed outcome.2.frames outcome.2.completed outcome.2.current := by
  cases h with
  | ignored => exact hf
  | drained => exact hf
  | blocked _ hb _ =>
    rw [current_of_active (activate_active hb)]
    exact activate_filmed hb hf
  | @refused active b s fault r _ hb hs hr =>
    show Filmed (b.expose s r).frames (completions (b.expose s r).frames) b.current
    rw [current_of_active (activate_active hb), expose_refused hs hr]
    exact activate_filmed hb hf
  | @shown active b s r _ hb hs hr hc =>
    obtain ⟨_, hshot⟩ := shot_spec hs
    show Filmed (b.expose s r).frames (b.expose s r).completed b.current
    rw [current_of_active (activate_active hb), expose_completed hs hr, hc, expose_shown hs hr]
    exact (activate_filmed hb hf).show hshot.gate hc
  | passed _ hb hs hr hc _ => exact expose_complete hs hr hc (activate_filmed hb hf)
  | ended _ hb hs hr hc _ => exact expose_complete hs hr hc (activate_filmed hb hf)

theorem reset_frames (a : Animator (Traced ρ α) α) : a.reset.2.frames = [] := by
  obtain ⟨metrics, hr⟩ := reset_snd a
  unfold frames
  rw [hr, Traced.clear_calls, Call.published_concat]
  rfl

theorem reset_work (a : Animator (Traced ρ α) α) : a.reset.2.work = [] := by
  obtain ⟨metrics, hr⟩ := reset_snd a
  unfold work completed
  rw [reset_frames, hr]
  rfl

end Animator

/-! ## Runs -/

/-- The gates asked for since the last reset, after one more move. -/
def Move.ask (gates : List Gate) : Move → List Gate
  | .queue g => gates ++ [g]
  | .reset => []
  | .clock _ => gates
  | .take => gates
  | .fire _ => gates

/-- The gates asked for since the last reset, in their order. -/
def Move.asked (moves : List Move) : List Gate := moves.foldl Move.ask []

namespace Stage

variable {ρ α : Type}

/-- What every run keeps: no request is lost, the film is in order and the numbers count the
requests. -/
structure InOrder (s : Stage (Traced ρ α) α) : Prop where
  work : s.animator.work = s.requests
  filmed : Filmed s.animator.frames s.animator.completed s.animator.current
  numbers : s.numbers = (List.range s.numbers.length).map fun i => UInt64.ofNat (i + 1)
  seq : s.animator.seq = UInt64.ofNat s.numbers.length

theorem InOrder.queue {s : Stage (Traced ρ α) α} (h : s.InOrder) (g : Gate) :
    (s.queue g).InOrder := by
  have hn : (s.queue g).numbers = s.numbers ++ [s.animator.seq + 1] := by
    simp only [Stage.numbers, Stage.queue, Animator.queue_fst, List.map_append, List.append_assoc]
    rfl
  have hl : (s.queue g).numbers.length = s.numbers.length + 1 := by
    rw [hn, List.length_append]
    rfl
  have hs : s.animator.seq + 1 = UInt64.ofNat (s.numbers.length + 1) := by
    rw [h.seq, UInt64.ofNat_add]
    rfl
  refine ⟨?_, ?_, ?_, ?_⟩
  · show (s.animator.queue g.code).2.work = s.requests ++ [(s.animator.queue g.code).1]
    rw [Animator.queue_work, h.work]
  · simpa only [Stage.queue, Animator.frames, Animator.completed, Animator.current,
      Animator.queue_renderer, Animator.queue_active] using h.filmed
  · -- one more number is handed out, the next one
    rw [hl, List.range_succ, List.map_append, ← h.numbers, hn, hs]
    rfl
  · rw [hl, ← hs]
    exact Animator.queue_seq _ _

variable [Scalar α]

theorem InOrder.new (duration : Duration) (resolution : Int) (renderer : ρ) (now : Int) :
    (Stage.new duration resolution ⟨renderer, []⟩ now : Stage (Traced ρ α) α).InOrder :=
  ⟨rfl, .nil, rfl, rfl⟩

variable [Renderer ρ α]

theorem InOrder.reset {s : Stage (Traced ρ α) α} (h : s.InOrder) : s.reset.InOrder := by
  have hn : s.reset.numbers = s.numbers := by
    show (s.earlier ++ s.requests ++ []).map Applied.seq = _
    rw [List.append_nil]
    rfl
  refine ⟨s.animator.reset_work, ?_, ?_, ?_⟩
  · show Filmed s.animator.reset.2.frames (completions s.animator.reset.2.frames) _
    rw [Animator.reset_frames]
    exact .nil
  · rw [hn]
    exact h.numbers
  · obtain ⟨metrics, hr⟩ := s.animator.reset_snd
    show s.animator.reset.2.seq = _
    rw [hn, ← h.seq, hr]

theorem InOrder.fire {s : Stage (Traced ρ α) α} (h : s.InOrder) (i : Nat) : (s.fire i).InOrder := by
  cases hg : s.batch[i]? with
  | none =>
    rw [fire_none hg]
    exact h
  | some generation =>
    have step := s.animator.frame_step generation
    rcases hf : s.animator.frame generation with ⟨fault | _, a⟩
    · rw [hf] at step
      rw [fire_error hg hf]
      exact ⟨step.work_eq.trans h.work, step.filmed h.filmed, h.numbers, step.kept.1.trans h.seq⟩
    · rw [hf] at step
      rw [fire_ok hg hf]
      exact ⟨step.work_eq.trans h.work, step.filmed h.filmed, h.numbers, step.kept.1.trans h.seq⟩

theorem InOrder.step (s : Stage (Traced ρ α) α) (m : Move) (h : s.InOrder) : (s.step m).InOrder := by
  cases m with
  | queue g => exact h.queue g
  | reset => exact h.reset
  | clock now => exact ⟨h.work, h.filmed, h.numbers, h.seq⟩
  | take => exact ⟨h.work, h.filmed, h.numbers, h.seq⟩
  | fire i => exact h.fire i

/-- The requests are the gates asked for. -/
theorem run_requests (moves : List Move) :
    ∀ (s : Stage ρ α) (gates : List Gate), s.requests.map Applied.code = gates.map Gate.code →
      (s.run moves).requests.map Applied.code = (moves.foldl Move.ask gates).map Gate.code := by
  induction moves with
  | nil => exact fun _ _ h => h
  | cons m moves ih =>
    intro s gates h
    refine ih (s.step m) (m.ask gates) ?_
    cases m with
    | queue g =>
      show (s.requests ++ [(s.animator.queue g.code).1]).map Applied.code = (gates ++ [g]).map Gate.code
      rw [Animator.queue_fst, List.map_append, List.map_append, h]
      rfl
    | reset => rfl
    | clock now => exact h
    | take => exact h
    | fire i =>
      have hf : (s.fire i).requests = s.requests := by
        unfold fire
        split
        · rfl
        · split <;> rfl
      show (s.fire i).requests.map Applied.code = _
      rw [hf, h]
      rfl

/-- Numbers that count from one go up until they wrap around. -/
theorem pairwise_count (n : Nat) :
    ((List.range n).map fun i => UInt64.ofNat (i + 1)).Pairwise (· < ·) ↔ n < 2 ^ 64 := by
  rw [List.pairwise_map]
  constructor
  · intro h
    by_contra hn
    -- the number after the largest one is zero
    have hw := List.pairwise_iff_getElem.1 h 0 (2 ^ 64 - 1)
      (by rw [List.length_range]; omega) (by rw [List.length_range]; omega) (by omega)
    rw [List.getElem_range, List.getElem_range] at hw
    exact absurd hw (by decide)
  · intro hn
    refine (List.pairwise_lt_range).imp_of_mem fun {i j} _ hj hlt => ?_
    have hj := List.mem_range.1 hj
    rw [UInt64.lt_iff_toNat_lt, UInt64.toNat_ofNat_of_lt' (show _ < 2 ^ 64 by omega),
      UInt64.toNat_ofNat_of_lt' (show _ < 2 ^ 64 by omega)]
    omega

/-- Requests are shown first in, first out: none is lost, repeated or shown while another is, and
their numbers go up as long as there are numbers left. The run is traced, which changes nothing of
it. -/
theorem first_in_first_out (duration : Duration) (resolution : Int) (renderer : ρ) (now : Int)
    (moves : List Move) :
    let s : Stage (Traced ρ α) α := (Stage.new duration resolution ⟨renderer, []⟩ now).run moves
    s.mapRenderer Traced.renderer = (Stage.new duration resolution renderer now).run moves ∧
    s.requests.map Applied.code = (Move.asked moves).map Gate.code ∧
    s.animator.completed ++ s.animator.current ++ s.animator.pending = s.requests ∧
    (∃ blocks, InBlocks s.requests s.animator.frames blocks) ∧
    (s.numbers.Pairwise (· < ·) ↔ s.numbers.length < 2 ^ 64) := by
  intro s
  have h : s.InOrder := run_induction InOrder.step moves _ (.new duration resolution renderer now)
  have traced := run_mapRenderer Traced.answersAlike moves
    (Stage.new duration resolution ⟨renderer, []⟩ now : Stage (Traced ρ α) α)
  refine ⟨traced.symm, run_requests moves _ [] rfl, h.work, ?_, ?_⟩
  · rw [← h.work]
    exact h.filmed.inBlocks s.animator.current_length s.animator.pending
  · rw [h.numbers, List.length_map, List.length_range]
    exact pairwise_count _

end Stage

end BlochSphere
