/-
A broadcaster keeps its books in order: what is registered after an operation is again open, on a channel
of its own, and counted, and whatever has a filter is registered.
-/
import BlochSphere.Proofs.Broadcast.Outcome

namespace BlochSphere

namespace Broadcaster

variable {α : Type} {b : Broadcaster α}

theorem Sound.perm (h : b.Sound) {subscribers : List Subscriber} (hp : subscribers.Perm b.subscribers) :
    { b with subscribers := subscribers }.Sound where
  ids := (hp.map Subscriber.id).nodup_iff.2 h.ids
  registered := (hp.map Subscriber.channel).nodup_iff.2 h.registered
  isOpen n := (h.isOpen n).trans (hp.map Subscriber.channel).mem_iff.symm
  filters f hf := (hp.map Subscriber.id).mem_iff.2 (h.filters f hf)
  active := by
    rw [hp.length_eq]
    exact h.active
  closed hc := by
    have hn := h.closed hc
    rw [hn] at hp
    exact hp.eq_nil
  fits := h.fits

theorem Sound.renumbered (h : b.Sound) (next : Handle) : { b with nextMarker := next }.Sound :=
  ⟨h.ids, h.registered, h.isOpen, h.filters, h.active, h.closed, h.fits⟩

/-- The order of registration aside, a subscriber takes the place of the one of its name. -/
theorem register_perm {subscribers : List Subscriber} (h : (subscribers.map Subscriber.id).Nodup)
    (s : Subscriber) : (register subscribers s).Perm (s :: subscribers.filter (·.id != s.id)) := by
  unfold register
  split
  · rename_i ha
    obtain ⟨old, hold, he⟩ := List.any_eq_true.1 ha
    obtain ⟨front, back, rfl⟩ := List.append_of_mem hold
    have he : old.id = s.id := by simpa using he
    rw [List.map_append, List.map_cons, List.nodup_append, List.nodup_cons] at h
    obtain ⟨_, ⟨hback, _⟩, hfront⟩ := h
    have kept (l : List Subscriber) (hl : ∀ o ∈ l, o.id ≠ s.id) :
        l.map (fun o => if o.id == s.id then s else o) = l ∧ l.filter (·.id != s.id) = l := by
      constructor
      · conv_rhs => rw [← List.map_id l]
        refine List.map_congr_left fun o ho => ?_
        simp [hl o ho]
      · exact List.filter_eq_self.2 fun o ho => bne_iff_ne.2 (hl o ho)
    have hf := kept front fun o ho hos =>
      hfront o.id (List.mem_map_of_mem ho) old.id List.mem_cons_self (hos.trans he.symm)
    have hb := kept back fun o ho hos => hback (he ▸ hos ▸ List.mem_map_of_mem ho)
    rw [List.map_append, List.map_cons, hf.1, hb.1, List.filter_append, List.filter_cons, hf.2, hb.2]
    simp only [he, beq_self_eq_true, if_true, bne_self_eq_false, Bool.false_eq_true, if_false]
    exact List.perm_middle
  · rename_i ha
    have hn : ∀ o ∈ subscribers, (o.id != s.id) = true := by
      intro o ho
      rw [bne_iff_ne]
      intro he
      exact ha (List.any_eq_true.2 ⟨o, ho, by simpa using he⟩)
    rw [List.filter_eq_self.2 hn]
    exact List.perm_append_singleton s subscribers

/-- What was registered under another name is untouched when a name's channel is closed. -/
theorem Sound.isOpen_shutAll (h : b.Sound) (id : String) (n : Nat) :
    (∃ c, (b.shutAll (b.named id))[n]? = some c ∧ c.isOpen = true) ↔
      n ∈ (b.subscribers.filter (·.id != id)).map Subscriber.channel := by
  constructor
  · rintro ⟨c, hc, ho⟩
    rw [getElem?_shutAll, Option.map_eq_some_iff] at hc
    obtain ⟨c', hc', rfl⟩ := hc
    split at ho
    · cases ho
    · rename_i hany
      obtain ⟨s, hs, rfl⟩ := List.mem_map.1 ((h.isOpen n).1 ⟨c', hc', ho⟩)
      refine List.mem_map_of_mem (List.mem_filter.2 ⟨hs, ?_⟩)
      rw [bne_iff_ne]
      rintro rfl
      exact hany (List.any_eq_true.2 ⟨s, List.mem_filter.2 ⟨hs, beq_self_eq_true _⟩, beq_self_eq_true _⟩)
  · rintro hn
    obtain ⟨s, hs, rfl⟩ := List.mem_map.1 hn
    obtain ⟨hs, hid⟩ := List.mem_filter.1 hs
    obtain ⟨c, hc, ho⟩ := h.opened hs
    refine ⟨c, ?_, ho⟩
    rw [getElem?_shutAll, hc, Option.map_some, if_neg]
    intro hany
    obtain ⟨o, ho, hch⟩ := List.any_eq_true.1 hany
    obtain ⟨ho, hoid⟩ := List.mem_filter.1 ho
    -- two subscribers with one channel are one
    have hsame := List.inj_on_of_nodup_map h.registered ho hs (by simpa using hch)
    rw [hsame] at hoid
    exact bne_iff_ne.1 hid (by simpa using hoid)

theorem fits_shutAll (h : b.Sound) (subscribers : List Subscriber) (n : Nat) (c : Channel α)
    (hc : (b.shutAll subscribers)[n]? = some c) : c.buffer.length ≤ c.capacity := by
  rw [getElem?_shutAll, Option.map_eq_some_iff] at hc
  obtain ⟨c', hc', rfl⟩ := hc
  split
  · exact h.fits n c' hc'
  · exact h.fits n c' hc'

theorem Sound.left (h : b.Sound) (id : String) : (b.left id).Sound where
  ids := h.ids.sublist (List.filter_sublist.map Subscriber.id)
  registered := h.registered.sublist (List.filter_sublist.map Subscriber.channel)
  isOpen := h.isOpen_shutAll id
  filters f hf := by
    obtain ⟨hf, hid⟩ := List.mem_filter.1 hf
    obtain ⟨s, hs, he⟩ := List.mem_map.1 (h.filters f hf)
    refine List.mem_map.2 ⟨s, List.mem_filter.2 ⟨hs, ?_⟩, he⟩
    rwa [he]
  active := by
    have hl := List.length_eq_length_filter_add (l := b.subscribers) (·.id == id)
    show b.active - ((b.subscribers.filter (·.id == id)).length : Int) =
      ((b.subscribers.filter (·.id != id)).length : Int)
    rw [h.active]
    simp only [bne]
    omega
  closed hc := by
    show b.subscribers.filter _ = []
    rw [h.closed hc]
    rfl
  fits := fits_shutAll h _

theorem Sound.enrolled (h : b.Sound) (hc : b.closed = false) {id : String} (hid : id ∉ b.ids)
    (size : Nat) (filter : Option (Frame α → Bool)) : (b.enrolled id size filter).Sound where
  ids := List.nodup_cons.2 ⟨hid, h.ids⟩
  registered := by
    refine List.nodup_cons.2 ⟨fun hn => ?_, h.registered⟩
    obtain ⟨c, hc, _⟩ := (h.isOpen _).2 hn
    simp at hc
  isOpen n := by
    show (∃ c, (b.channels.push ⟨size, [], true⟩)[n]? = some c ∧ c.isOpen = true) ↔
      n ∈ b.channels.size :: b.registered
    rw [List.mem_cons, ← h.isOpen n, Array.getElem?_push]
    split
    · rename_i hn
      simp [hn]
    · rename_i hn
      simp [hn, IsOpen]
  filters f hf := by
    cases filter with
    | none =>
      obtain ⟨hf, _⟩ := List.mem_filter.1 hf
      exact List.mem_cons_of_mem _ (h.filters f hf)
    | some g =>
      rcases List.mem_cons.1 hf with rfl | hf
      · exact List.mem_cons_self
      · obtain ⟨hf, _⟩ := List.mem_filter.1 hf
        exact List.mem_cons_of_mem _ (h.filters f hf)
  active := by
    show b.active + 1 = ((b.subscribers.length + 1 : Nat) : Int)
    rw [h.active]
    rfl
  closed hc' := by
    have hcl : b.closed = true := hc'
    rw [hc] at hcl
    cases hcl
  fits n c hn := by
    have hn : (b.channels.push ⟨size, [], true⟩)[n]? = some c := hn
    rw [Array.getElem?_push] at hn
    split at hn
    · cases hn
      exact Nat.zero_le _
    · exact h.fits n c hn

theorem notMem_left_ids (b : Broadcaster α) (id : String) : id ∉ (b.left id).ids := by
  intro hi
  obtain ⟨s, hs, he⟩ := List.mem_map.1 hi
  obtain ⟨_, hne⟩ := List.mem_filter.1 hs
  exact bne_iff_ne.1 hne he

/-- Whoever is registered after a name left and came back. -/
theorem Sound.register_left (h : b.Sound) (id : String) :
    (register b.subscribers ⟨id, b.channels.size⟩).Perm
      (⟨id, (b.left id).channels.size⟩ :: (b.left id).subscribers) := by
  have hsize : (b.left id).channels.size = b.channels.size := shutAll_size b _
  rw [hsize]
  exact register_perm h.ids _

theorem Sound.joined (h : b.Sound) (id : String) (size : Nat) (filter : Option (Frame α → Bool)) :
    (b.joined id size filter).Sound := by
  unfold Broadcaster.joined
  split
  · rename_i hc
    refine ⟨h.ids, h.registered, fun n => ?_, h.filters, h.active, h.closed, fun n c hn => ?_⟩
    · show (∃ c, (b.channels.push ⟨0, [], false⟩)[n]? = some c ∧ c.isOpen = true) ↔ n ∈ b.registered
      rw [← h.isOpen n, Array.getElem?_push]
      split
      · rename_i hn
        simp [hn, IsOpen]
      · rfl
    · have hn : (b.channels.push ⟨0, [], false⟩)[n]? = some c := hn
      rw [Array.getElem?_push] at hn
      split at hn
      · cases hn
        exact Nat.zero_le _
      · exact h.fits n c hn
  · rename_i hc
    have hleft := (h.left id).enrolled (Bool.eq_false_iff.2 hc) (notMem_left_ids b id) size filter
    exact hleft.perm (h.register_left id)

/-- What happens only in buffers leaves the books in order. -/
theorem Sound.of_buffers (h : b.Sound) {b' : Broadcaster α} (f : Nat → Channel α → Channel α)
    (hc : ∀ n, b'.channels[n]? = b.channels[n]?.map (f n))
    (hopen : ∀ n c, (f n c).isOpen = c.isOpen)
    (hfits : ∀ n c, c.buffer.length ≤ c.capacity → (f n c).buffer.length ≤ (f n c).capacity)
    (hs : b'.subscribers = b.subscribers) (hf : b'.filters = b.filters) (ha : b'.active = b.active)
    (hcl : b'.closed = b.closed) : b'.Sound := by
  have hids : b'.ids = b.ids := congrArg (List.map Subscriber.id) hs
  have hreg : b'.registered = b.registered := congrArg (List.map Subscriber.channel) hs
  refine ⟨hids ▸ h.ids, hreg ▸ h.registered, fun n => ?_, ?_, ?_, ?_, fun n c hn => ?_⟩
  · rw [hreg, ← h.isOpen n]
    unfold IsOpen
    rw [hc n]
    simp [hopen]
  · rw [hf, hids]
    exact h.filters
  · rw [ha, hs]
    exact h.active
  · rw [hcl, hs]
    exact h.closed
  · rw [hc n, Option.map_eq_some_iff] at hn
    obtain ⟨c', hc', rfl⟩ := hn
    exact hfits n c' (h.fits n c' hc')

theorem Sound.published (h : b.Sound) (frame : Frame α) : (b.published frame).Sound := by
  unfold Broadcaster.published
  split
  · exact h
  · refine h.of_buffers _ (getElem?_spread b frame b.subscribers) (fun n c => ?_) (fun n c hc => ?_)
      rfl rfl rfl rfl
    · split
      · exact c.put_isOpen frame
      · rfl
    · split
      · exact Channel.put_fits hc frame
      · exact hc

theorem Sound.ended (h : b.Sound) : b.ended.Sound where
  ids := List.nodup_nil
  registered := List.nodup_nil
  isOpen n := by
    constructor
    · rintro ⟨c, hc, ho⟩
      have hc : (b.shutAll b.subscribers)[n]? = some c := hc
      rw [getElem?_shutAll, Option.map_eq_some_iff] at hc
      obtain ⟨c', hc', rfl⟩ := hc
      split at ho
      · cases ho
      · rename_i hany
        obtain ⟨s, hs, rfl⟩ := List.mem_map.1 ((h.isOpen n).1 ⟨c', hc', ho⟩)
        exact absurd (List.any_eq_true.2 ⟨s, hs, by simp⟩) hany
    · nofun
  filters := nofun
  active := rfl
  closed _ := rfl
  fits := fits_shutAll h _

end Broadcaster

end BlochSphere
