/-
The table of a canvas. It is put together from the new markers of the frames taken in, so it never
holds a marker that those frames did not tell of, even if frames are missing; and if the markers
of the frames have different handles, it holds exactly those that are known since the last clearing.
-/
import BlochSphere.Canvas
import BlochSphere.Proofs.Animation.Trail
import Mathlib.Data.List.Induction
import Mathlib.Data.List.Nodup

namespace BlochSphere

variable {α : Type}

/-! ## Missing frames -/

/-- Who misses frames but no clearing knows no marker that is not known to who misses none. -/
theorem Frame.known_sublist {taken frames : List (Frame α)} (h : taken.Sublist frames) :
    ∀ {start start' : List (Marker α)}, start.Sublist start' →
      taken.countP Frame.cleared = frames.countP Frame.cleared →
      (Frame.known start taken).Sublist (Frame.known start' frames) := by
  induction h with
  | slnil => exact fun hs _ => hs
  | @cons taken frames f h ih =>
    intro start start' hs hc
    have hle := h.countP_le (p := Frame.cleared)
    have hf : f.cleared = false := by
      by_contra hne
      rw [List.countP_cons_of_pos (by simpa using hne)] at hc
      omega
    rw [List.countP_cons_of_neg (by simp [hf])] at hc
    show (Frame.known start taken).Sublist (Frame.known (Frame.learn start' f) frames)
    rw [Frame.learn_of_shown hf]
    exact ih (hs.trans (List.sublist_append_left _ _)) hc
  | @cons_cons taken frames f h ih =>
    intro start start' hs hc
    show (Frame.known (Frame.learn start f) taken).Sublist (Frame.known (Frame.learn start' f) frames)
    cases hf : f.cleared with
    | true =>
      rw [List.countP_cons_of_pos hf, List.countP_cons_of_pos hf] at hc
      rw [Frame.learn_of_cleared hf, Frame.learn_of_cleared hf]
      exact ih (List.Sublist.refl _) (by omega)
    | false =>
      rw [List.countP_cons_of_neg (by simp [hf]), List.countP_cons_of_neg (by simp [hf])] at hc
      rw [Frame.learn_of_shown hf, Frame.learn_of_shown hf]
      exact ih (hs.append (List.Sublist.refl _)) hc

/-! ## The table -/

/-- A marker as a table has it. -/
def Marker.entry (m : Marker α) : Handle × Vec3 α := (m.handle, m.point)

namespace Canvas

/-- The canvas after it took in frames, one after the other. -/
def after (frames : List (Frame α)) : Canvas α := frames.foldl apply new

theorem after_concat (frames : List (Frame α)) (f : Frame α) :
    after (frames ++ [f]) = (after frames).apply f := by
  simp [after]

theorem apply_of_cleared {f : Frame α} (h : f.cleared = true) (c : Canvas α) :
    (c.apply f).markers = [] ∧ (c.apply f).last = none := by
  simp [apply, h]

theorem apply_of_shown {f : Frame α} (h : f.cleared = false) (c : Canvas α) :
    (c.apply f).markers = f.newMarkers.foldl place c.markers ∧ (c.apply f).last = some f := by
  simp [apply, h]

/-- A canvas draws the last frame that it took in, unless that cleared the picture. -/
theorem after_last {frames : List (Frame α)} {f : Frame α} (h : (after frames).last = some f) :
    ∃ front, frames = front ++ [f] ∧ f.cleared = false := by
  rcases List.eq_nil_or_concat frames with rfl | ⟨front, g, rfl⟩
  · cases h
  · rw [List.concat_eq_append, after_concat] at h
    cases hg : g.cleared with
    | true =>
      rw [(apply_of_cleared hg _).2] at h
      cases h
    | false =>
      rw [(apply_of_shown hg _).2] at h
      cases h
      exact ⟨front, List.concat_eq_append, hg⟩

theorem mem_place {markers : List (Handle × Vec3 α)} {new : List (Marker α)} {e : Handle × Vec3 α}
    (h : e ∈ new.foldl place markers) : e ∈ markers ∨ e ∈ new.map Marker.entry := by
  induction new generalizing markers with
  | nil => exact .inl h
  | cons m new ih =>
    rcases ih h with h | h
    · rcases List.mem_cons.1 h with rfl | h
      · exact .inr List.mem_cons_self
      · exact .inl (List.mem_of_mem_filter h)
    · exact .inr (List.mem_cons_of_mem _ h)

/-- The table holds only markers that are known from the frames. -/
theorem mem_after {frames : List (Frame α)} {e : Handle × Vec3 α} (h : e ∈ (after frames).markers) :
    e ∈ (Frame.known [] frames).map Marker.entry := by
  induction frames using List.reverseRecOn with
  | nil => cases h
  | append_singleton frames f ih =>
    rw [after_concat] at h
    rw [Frame.known_concat]
    cases hf : f.cleared with
    | true =>
      rw [(apply_of_cleared hf _).1] at h
      cases h
    | false =>
      rw [(apply_of_shown hf _).1] at h
      rw [Frame.learn_of_shown hf, List.map_append]
      rcases mem_place h with h | h
      · exact List.mem_append_left _ (ih h)
      · exact List.mem_append_right _ h

theorem lookup_mem {markers : List (Handle × Vec3 α)} {handle : Handle} {p : Vec3 α}
    (h : markers.lookup handle = some p) : (handle, p) ∈ markers := by
  obtain ⟨front, back, rfl, _⟩ := List.lookup_eq_some_iff.1 h
  exact List.mem_append_right _ List.mem_cons_self

/-! ## A table that misses nothing -/

/-- Markers with new handles are added in front. -/
theorem place_new {known new : List (Marker α)} (h : ((known ++ new).map Marker.handle).Nodup) :
    new.foldl place (known.reverse.map Marker.entry) = (known ++ new).reverse.map Marker.entry := by
  induction new generalizing known with
  | nil => rw [List.append_nil]; rfl
  | cons m new ih =>
    have hfresh : ∀ e ∈ known.reverse.map Marker.entry, (e.1 != m.handle) = true := by
      intro e he
      obtain ⟨k, hk, rfl⟩ := List.mem_map.1 he
      rw [bne_iff_ne]
      intro heq
      rw [List.map_append, List.nodup_append] at h
      exact h.2.2 _ (List.mem_map_of_mem (List.mem_reverse.1 hk)) _ List.mem_cons_self heq
    have hplace : place (known.reverse.map Marker.entry) m =
        (known ++ [m]).reverse.map Marker.entry := by
      unfold place
      rw [List.filter_eq_self.2 hfresh, List.reverse_append]
      rfl
    rw [List.append_cons] at h ⊢
    rw [List.foldl_cons, hplace]
    exact ih h

/-- The table is what is known since the last clearing, the newest first. -/
theorem after_markers {frames : List (Frame α)}
    (h : ∀ front f, front ++ [f] <+: frames → f.cleared = false →
      ((Frame.known [] (front ++ [f])).map Marker.handle).Nodup) :
    (after frames).markers = (Frame.known [] frames).reverse.map Marker.entry := by
  induction frames using List.reverseRecOn with
  | nil => rfl
  | append_singleton frames f ih =>
    have hfront := ih fun front g hg => h front g (hg.trans (List.prefix_append _ _))
    rw [after_concat, Frame.known_concat]
    cases hf : f.cleared with
    | true =>
      rw [(apply_of_cleared hf _).1, Frame.learn_of_cleared hf]
      rfl
    | false =>
      have hn := h frames f List.prefix_rfl hf
      rw [Frame.known_concat, Frame.learn_of_shown hf] at hn
      rw [(apply_of_shown hf _).1, hfront, Frame.learn_of_shown hf, place_new hn]

/-- In a table of markers with different handles, each is found by its handle. -/
theorem lookup_entries {markers : List (Marker α)} (h : (markers.map Marker.handle).Nodup)
    (handle : Handle) (p : Vec3 α) :
    (markers.map Marker.entry).lookup handle = some p ↔ ⟨handle, p⟩ ∈ markers := by
  constructor
  · intro hl
    obtain ⟨m, hm, he⟩ := List.mem_map.1 (lookup_mem hl)
    cases he
    exact hm
  · intro hm
    induction markers with
    | nil => cases hm
    | cons m markers ih =>
      rw [List.map_cons, List.nodup_cons] at h
      rw [List.map_cons, Marker.entry, List.lookup_cons]
      rcases List.mem_cons.1 hm with rfl | hm
      · simp
      · have hne : (handle == m.handle) = false :=
          beq_eq_false_iff_ne.2 fun he => h.1 (List.mem_map.2 ⟨_, hm, he⟩)
        rw [hne]
        exact ih h.2 hm

end Canvas

end BlochSphere
