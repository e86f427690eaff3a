/-
Estimates on a terminal. Whether they are shown is kept twice, in the view and in the canvas; a picture has
the line of estimates exactly if both say so. Only the view starts with what is configured, so the line is
there exactly after an odd number of toggles, whatever the configuration says.
-/
import BlochSphere.Terminal
import Mathlib.Data.List.Infix

namespace BlochSphere

/-! ## The line of estimates -/

namespace Canvas

/-- The row of the line of estimates on a screen of this height. -/
def estimatesRow (height : Int) : Int := height - textRows + 4

theorem mem_text {x y : Int} {style : Style} {s : String} {stroke : Stroke} (h : stroke ∈ text x y style s) :
    stroke.y = y ∧ stroke.style = style ∧ stroke.glyph ∈ s.toList := by
  unfold text at h
  rw [List.mem_mapIdx] at h
  obtain ⟨i, hi, rfl⟩ := h
  exact ⟨rfl, rfl, List.getElem_mem hi⟩

theorem exists_mem_text (x y : Int) (style : Style) {s : String} {c : Char} (h : c ∈ s.toList) :
    ∃ stroke ∈ text x y style s, stroke.y = y ∧ stroke.style = style ∧ stroke.glyph = c := by
  obtain ⟨i, hi, rfl⟩ := List.getElem_of_mem h
  exact ⟨_, List.mem_mapIdx.2 ⟨i, hi, rfl⟩, rfl, rfl, rfl⟩

variable {ρ σ : Type} [RandomSource σ]

/-- The picture has a line of estimates. -/
def HasEstimates (picture : List Stroke) (height : Int) : Prop :=
  ∃ h : Histogram Float, text margin (estimatesRow height) .gray (outcomes h) <:+: picture

/-- Circles are made of points and dashes, and nothing else about the sphere is gray. -/
theorem glyph_of_mem_sphere {c : Canvas Float} {rest : Vec3 Float} {width height : Int} {stroke : Stroke}
    (h : stroke ∈ c.sphere rest width height) (hs : stroke.style = .gray) : stroke.glyph = '.' ∨ stroke.glyph = '-' := by
  unfold sphere at h
  simp only [List.mem_append] at h
  rcases h with ((h | h) | h) | h
  · obtain ⟨i, -, h⟩ := List.mem_flatMap.1 h
    simp only at h
    split at h
    · rcases List.mem_cons.1 h with rfl | h
      · exact .inl rfl
      · rw [List.mem_singleton.1 h]
        exact .inr rfl
    · rw [List.mem_singleton.1 h]
      exact .inl rfl
  · simp only [Layout.labels, Layout.label, List.mem_append] at h
    rcases h with ((h | h) | h) | h <;>
    · rw [(mem_text h).2.1] at hs
      cases hs
  · unfold trail at h
    split at h
    · cases h
    · obtain ⟨p, -, h⟩ := List.mem_filterMap.1 h
      obtain ⟨place, -, rfl⟩ := Option.map_eq_some_iff.1 h
      cases hs
  · rw [List.mem_singleton.1 h] at hs
    cases hs

/-- Without estimates the footer has nothing gray in their row. -/
theorem row_of_mem_footer {c : Canvas Float} {v : View ρ Float} {row : Int} {stroke : Stroke}
    (h : stroke ∈ c.footer v none row) (hs : stroke.style = .gray) : stroke.y ≠ row + 4 := by
  unfold footer at h
  simp only [List.mem_append] at h
  rcases h with ((((h | h) | h) | h) | h) | h
  · rw [(mem_text h).2.1] at hs
    cases hs
  · rw [(mem_text h).2.1] at hs
    cases hs
  · rw [(mem_text h).2.1] at hs
    cases hs
  · split at h
    · rw [(mem_text h).1]
      omega
    · cases h
  · cases h
  · rw [(mem_text h).2.1] at hs
    cases hs

theorem infix_footer (c : Canvas Float) (v : View ρ Float) (s : String) (row : Int) :
    text margin (row + 4) .gray s <:+: c.footer v (some s) row :=
  ⟨_, _, rfl⟩

theorem mem_outcomes (h : Histogram Float) : 's' ∈ (outcomes h).toList := by
  unfold outcomes
  simp [String.toList_append]

/-- A picture has a line of estimates exactly if both the canvas and the view say so. -/
theorem hasEstimates_picture_iff (c : Canvas Float) (v : View ρ Float) (source : σ) (width height : Int) :
    HasEstimates (c.picture v source width height).1 height ↔ c.showEstimates = true ∧ v.showEstimates = true := by
  have hpicture : (c.picture v source width height).1 = c.sphere v.animator.orientation.point width height ++
      c.footer v (c.estimatesLine v source).1 (height - textRows) := rfl
  rw [hpicture]
  constructor
  · rintro ⟨h, hline⟩
    by_contra hoff
    have hnone : (c.estimatesLine v source).1 = none := by
      unfold estimatesLine View.estimates
      cases hc : c.showEstimates with
      | false => rfl
      | true =>
        have hv : v.showEstimates = false := Bool.eq_false_iff.2 fun hv => hoff ⟨hc, hv⟩
        rw [hv]
        rfl
    -- a gray letter in this row is drawn by nothing but the line of estimates
    obtain ⟨stroke, hmem, hrow, hstyle, hglyph⟩ := exists_mem_text margin (estimatesRow height) .gray
      (mem_outcomes h)
    rw [hnone] at hline
    rcases List.mem_append.1 (hline.subset hmem) with hsphere | hfooter
    · rcases glyph_of_mem_sphere hsphere hstyle with hg | hg
      · rw [hglyph] at hg
        cases hg
      · rw [hglyph] at hg
        cases hg
    · exact row_of_mem_footer hfooter hstyle hrow
  · rintro ⟨hc, hv⟩
    have hsome : (c.estimatesLine v source).1 = some (outcomes (v.qubit.sample v.shots source).1) := by
      unfold estimatesLine View.estimates
      rw [hc, hv]
      rfl
    rw [hsome]
    exact ⟨(v.qubit.sample v.shots source).1, (infix_footer c v _ _).trans (List.suffix_append _ _).isInfix⟩

end Canvas

/-! ## Runs -/

/-- What can happen to a terminal. -/
inductive TerminalMove where
  | toggle
  | apply (name : List UInt8)
  | reset
  | receive (frame : Frame Float)
  | deliver
  | step
  | advance (ns : Int)
  | resize (width height : Int)
  | draw

/-- The number of toggles among some moves. -/
def TerminalMove.toggles (moves : List TerminalMove) : Nat :=
  moves.countP fun
    | .toggle => true
    | _ => false

namespace Terminal

/-- What `draw` puts on the screen. -/
def picture (t : Terminal) : List Canvas.Stroke :=
  (t.canvas.picture t.session.view t.source t.screen.width t.screen.height).1

def ShowsEstimates (t : Terminal) : Prop := Canvas.HasEstimates t.picture t.screen.height

def operate (t : Terminal) : TerminalMove → Terminal
  | .toggle => t.toggleEstimates
  | .apply name => (t.apply name).2
  | .reset => t.reset.2
  | .receive frame => t.receive frame
  | .deliver => t.deliver
  | .step => t.step.2
  | .advance ns => t.advance ns
  | .resize width height => t.resize width height
  | .draw => t.draw

def operateAll (t : Terminal) (moves : List TerminalMove) : Terminal := moves.foldl operate t

/-! ## Flags -/

/-- Two terminals agree on whether estimates are shown. -/
structure SameFlags (t t' : Terminal) : Prop where
  canvas : t'.canvas.showEstimates = t.canvas.showEstimates
  view : t'.session.view.showEstimates = t.session.view.showEstimates

theorem apply_showEstimates (v : View (Surface Float) Float) (name : List UInt8) :
    (v.apply name).2.showEstimates = v.showEstimates := by
  unfold View.apply
  split <;> rfl

theorem receive_sameFlags (t : Terminal) (frame : Frame Float) : SameFlags t (t.receive frame) := by
  refine ⟨?_, rfl⟩
  show (t.canvas.apply frame).showEstimates = _
  unfold Canvas.apply
  split <;> rfl

theorem foldl_receive_sameFlags (frames : List (Frame Float)) : ∀ t : Terminal, SameFlags t (frames.foldl receive t) := by
  induction frames with
  | nil => exact fun t => ⟨rfl, rfl⟩
  | cons frame frames ih =>
    intro t
    have hone := receive_sameFlags t frame
    have hrest := ih (t.receive frame)
    exact ⟨hrest.canvas.trans hone.canvas, hrest.view.trans hone.view⟩

theorem deliver_sameFlags (t : Terminal) : SameFlags t t.deliver := by
  have hdrain : (t.session.drain subscriber).2.view.showEstimates = t.session.view.showEstimates := by
    unfold Session.drain
    split <;> rfl
  unfold deliver
  split
  · rename_i frames closed session heq
    rw [heq] at hdrain
    have hframes := foldl_receive_sameFlags frames { t with session }
    exact ⟨hframes.canvas, hframes.view.trans hdrain⟩
  · rename_i session heq
    rw [heq] at hdrain
    exact ⟨rfl, hdrain⟩

/-- Nothing but a toggle changes whether estimates are shown. -/
theorem operate_sameFlags (t : Terminal) {m : TerminalMove} (hm : m ≠ .toggle) : SameFlags t (t.operate m) := by
  cases m with
  | toggle => exact absurd rfl hm
  | apply name => exact ⟨rfl, apply_showEstimates _ name⟩
  | reset => exact ⟨rfl, rfl⟩
  | receive frame => exact receive_sameFlags t frame
  | deliver => exact deliver_sameFlags t
  | step =>
    refine ⟨rfl, ?_⟩
    show t.session.step.2.view.showEstimates = _
    unfold Session.step
    split <;> rfl
  | advance ns =>
    refine ⟨rfl, ?_⟩
    show (t.session.setWatch _).view.showEstimates = _
    unfold Session.setWatch
    simp only
    split <;> rfl
  | resize width height => exact ⟨rfl, rfl⟩
  | draw => exact ⟨rfl, rfl⟩

/-- The flags of a terminal after `n` toggles, where the view's was `start` at first. -/
structure Toggled (start : Bool) (n : Nat) (t : Terminal) : Prop where
  canvas : t.canvas.showEstimates = decide (n % 2 = 1)
  view : t.session.view.showEstimates = if n = 0 then start else decide (n % 2 = 1)

theorem Toggled.new (config : Config) (width height : Int) :
    Toggled config.showEstimates 0 (Terminal.new config width height) := ⟨rfl, rfl⟩

theorem Toggled.operate {start : Bool} {n : Nat} {t : Terminal} (h : Toggled start n t) (m : TerminalMove) :
    Toggled start (n + TerminalMove.toggles [m]) (t.operate m) := by
  by_cases hm : m = .toggle
  · subst hm
    -- the view takes over what the canvas says
    have hflag : (!t.canvas.showEstimates) = decide ((n + 1) % 2 = 1) := by
      rw [h.canvas, ← decide_not, decide_eq_decide]
      omega
    exact ⟨hflag, hflag⟩
  · have hsame := operate_sameFlags t hm
    have hzero : TerminalMove.toggles [m] = 0 := by
      cases m <;> first | rfl | exact absurd rfl hm
    rw [hzero]
    exact ⟨hsame.canvas.trans h.canvas, hsame.view.trans h.view⟩

theorem Toggled.operateAll {start : Bool} (moves : List TerminalMove) : ∀ {n : Nat} {t : Terminal},
    Toggled start n t → Toggled start (n + TerminalMove.toggles moves) (t.operateAll moves) := by
  induction moves with
  | nil => exact fun h => h
  | cons m moves ih =>
    intro n t h
    have hrest := ih (h.operate m)
    have hcount : TerminalMove.toggles (m :: moves) = TerminalMove.toggles [m] + TerminalMove.toggles moves := by
      unfold TerminalMove.toggles
      rw [← List.countP_append]
      rfl
    rw [hcount, ← Nat.add_assoc]
    exact hrest

theorem showsEstimates_iff (t : Terminal) :
    t.ShowsEstimates ↔ t.canvas.showEstimates = true ∧ t.session.view.showEstimates = true :=
  Canvas.hasEstimates_picture_iff ..

/-- What is drawn has a line of estimates exactly after an odd number of toggles. The view has them switched on
then too, but also if they are configured and were not toggled yet. -/
theorem estimates_shown_after_odd_toggles (config : Config) (width height : Int) (moves : List TerminalMove) :
    let t := (Terminal.new config width height).operateAll moves
    let n := TerminalMove.toggles moves
    t.draw.screen = t.screen.display t.picture ∧
    (t.ShowsEstimates ↔ n % 2 = 1) ∧
    (t.canvas.showEstimates = true ↔ n % 2 = 1) ∧
    (t.session.view.showEstimates = true ↔ n % 2 = 1 ∨ n = 0 ∧ config.showEstimates = true) ∧
    ((t.ShowsEstimates ↔ t.session.view.showEstimates = true) ↔ config.showEstimates = false ∨ 0 < n) := by
  intro t n
  have h : Toggled config.showEstimates n t := by
    have hall := (Toggled.new config width height).operateAll moves
    rwa [Nat.zero_add] at hall
  have hcanvas : t.canvas.showEstimates = true ↔ n % 2 = 1 := by rw [h.canvas, decide_eq_true_iff]
  have hview : t.session.view.showEstimates = true ↔ n % 2 = 1 ∨ n = 0 ∧ config.showEstimates = true := by
    rw [h.view]
    by_cases h0 : n = 0
    · simp [h0]
    · simp [h0]
  have hshows : t.ShowsEstimates ↔ n % 2 = 1 := by
    rw [showsEstimates_iff, hcanvas, hview]
    exact and_iff_left_of_imp .inl
  refine ⟨rfl, hshows, hcanvas, hview, ?_⟩
  rw [hshows, hview]
  cases config.showEstimates
  · simp
  · simp
    omega

/-- Configured estimates are switched on in the view and not drawn. -/
theorem configured_estimates_not_drawn :
    let t := Terminal.new { Config.default with showEstimates := true } 60 20
    { Config.default with showEstimates := true }.validate = .ok () ∧
    t.session.view.showEstimates = true ∧ ¬ t.ShowsEstimates := by
  intro t
  refine ⟨rfl, rfl, ?_⟩
  rw [showsEstimates_iff]
  exact fun h => absurd h.1 (by decide)

end Terminal

end BlochSphere
