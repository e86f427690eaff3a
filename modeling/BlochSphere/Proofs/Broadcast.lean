/-
A broadcaster as its only subscriber sees it. What is sent is buffered on the subscriber's channel or
dropped, never changed and never out of order; what was buffered is received first in, first out. The
markers of an animator that has the broadcaster to itself are numbered from zero by their place in
the trail.
-/
import BlochSphere.Broadcast
import BlochSphere.Proofs.Animation.Trail
import Mathlib.Data.List.Nodup

namespace BlochSphere

variable {α : Type}

/-- What a subscriber asked for and was given: its name, the number of its channel, and which frames
it wants if not all of them. -/
structure Subscription (α : Type) where
  id : String
  channel : Nat
  filter : Option (Frame α → Bool)

namespace Broadcaster

/-! ## Receiving -/

/-- The frames that wait on a channel. -/
def waiting (b : Broadcaster α) (n : Nat) : List (Frame α) :=
  match b.channels[n]? with
  | some channel => channel.buffer
  | none => []

/-- Takes the next frame from a channel. -/
def receive (b : Broadcaster α) (n : Nat) : Option (Frame α) × Broadcaster α :=
  match b.waiting n with
  | frame :: rest =>
    (some frame, { b with channels := b.channels.modify n ({ · with buffer := rest }) })
  | [] => (none, b)

theorem waiting_modify (b : Broadcaster α) (n : Nat) (rest : List (Frame α)) {channel : Channel α}
    (h : b.channels[n]? = some channel) :
    { b with channels := b.channels.modify n ({ · with buffer := rest }) }.waiting n = rest := by
  simp [waiting, Array.getElem?_modify, h]

theorem channel_of_waiting {b : Broadcaster α} {n : Nat} (h : b.waiting n ≠ []) :
    ∃ channel, b.channels[n]? = some channel := by
  unfold waiting at h
  split at h
  · exact ⟨_, ‹_›⟩
  · exact absurd rfl h

theorem receive_cons {b : Broadcaster α} {n : Nat} {frame : Frame α} {rest : List (Frame α)}
    (h : b.waiting n = frame :: rest) : ∃ b', b.receive n = (some frame, b') ∧ b'.waiting n = rest ∧
      b' = { b with channels := b.channels.modify n ({ · with buffer := rest }) } := by
  obtain ⟨channel, hc⟩ := channel_of_waiting (b := b) (n := n) (by simp [h])
  refine ⟨_, ?_, b.waiting_modify n rest hc, rfl⟩
  unfold receive
  rw [h]

theorem receive_nil {b : Broadcaster α} {n : Nat} (h : b.waiting n = []) : b.receive n = (none, b) := by
  unfold receive
  rw [h]

/-! ## Filters -/

theorem lookup_unfilter (filters : List (String × (Frame α → Bool))) (id other : String) :
    (unfilter filters id).lookup other = if other = id then none else filters.lookup other := by
  induction filters with
  | nil => simp [unfilter]
  | cons f filters ih =>
    obtain ⟨name, f⟩ := f
    unfold unfilter at ih ⊢
    by_cases hn : name = id
    · subst hn
      simp only [List.filter_cons, bne_self_eq_false, Bool.false_eq_true, if_false, ih]
      split
      · rfl
      · rename_i ho
        simp [List.lookup_cons, beq_eq_false_iff_ne.2 ho]
    · simp only [List.filter_cons, bne_iff_ne.2 hn, if_true, List.lookup_cons, ih]
      by_cases ho : other = name
      · subst ho
        simp [hn]
      · simp [beq_eq_false_iff_ne.2 ho]

/-- A name has the filter that it was given last. -/
theorem lookup_refilter (filters : List (String × (Frame α → Bool))) (id : String)
    (filter : Option (Frame α → Bool)) : (refilter filters id filter).lookup id = filter := by
  cases filter with
  | none => simp [refilter, lookup_unfilter]
  | some f => simp [refilter]

theorem lookup_refilter_ne {id other : String} (h : other ≠ id)
    (filters : List (String × (Frame α → Bool))) (filter : Option (Frame α → Bool)) :
    (refilter filters id filter).lookup other = filters.lookup other := by
  cases filter with
  | none => simp [refilter, lookup_unfilter, h]
  | some f => simp [refilter, List.lookup_cons, lookup_unfilter, h, beq_eq_false_iff_ne.2 h]

/-! ## Sending -/

/-- The broadcaster has one subscriber, whose channel is open. -/
structure Tuned (b : Broadcaster α) (s : Subscription α) : Prop where
  running : b.closed = false
  subscribers : b.subscribers = [⟨s.id, s.channel⟩]
  filter : b.filters.lookup s.id = s.filter
  channel : ∃ channel, b.channels[s.channel]? = some channel ∧ channel.isOpen = true

/-- What sending a frame does for the only subscriber: the frame is the last that waits, or it is lost,
which is counted unless the subscriber did not want it. -/
theorem Tuned.send {b : Broadcaster α} {s : Subscription α} (h : b.Tuned s) (frame : Frame α) :
    ∃ b', b.send frame = (.ok (), b') ∧ b'.Tuned s ∧ b'.nextMarker = b.nextMarker ∧
      ((b'.waiting s.channel = b.waiting s.channel ++ [frame] ∧ b'.dropped = b.dropped) ∨
        (b'.waiting s.channel = b.waiting s.channel ∧ (s.filter = none → b'.dropped = b.dropped + 1))) := by
  obtain ⟨channel, hc, ho⟩ := h.channel
  simp only [Broadcaster.send, h.running, h.subscribers, offerAll, offer, accepts, h.filter]
  by_cases ha : passes s.filter frame = true
  · by_cases hl : channel.buffer.length < channel.capacity
    · simp only [ha, hc, ho, hl, Bool.not_true, Bool.false_eq_true, if_false, if_true]
      refine ⟨_, rfl, ⟨rfl, rfl, h.filter, ?_⟩, rfl, .inl ⟨?_, rfl⟩⟩
      · simp [Array.getElem?_modify, hc, ho]
      · simp [waiting, Array.getElem?_modify, hc]
    · simp only [ha, hc, ho, hl, Bool.not_true, Bool.false_eq_true, if_false]
      exact ⟨_, rfl, ⟨rfl, rfl, h.filter, ⟨channel, hc, ho⟩⟩, rfl, .inr ⟨rfl, fun _ => rfl⟩⟩
  · simp only [ha, Bool.false_eq_true, Bool.not_false, if_true, if_false]
    refine ⟨_, rfl, ⟨rfl, rfl, h.filter, ⟨channel, hc, ho⟩⟩, rfl, .inr ⟨rfl, fun hf => ?_⟩⟩
    rw [hf] at ha
    exact absurd rfl ha

theorem Tuned.receive {b : Broadcaster α} {s : Subscription α} (h : b.Tuned s) (rest : List (Frame α)) :
    { b with channels := b.channels.modify s.channel ({ · with buffer := rest }) }.Tuned s := by
  obtain ⟨channel, hc, ho⟩ := h.channel
  refine ⟨h.running, h.subscribers, h.filter, ?_⟩
  simp [Array.getElem?_modify, hc, ho]

/-- The first to subscribe is the only subscriber. -/
theorem subscribe_tuned {b b' : Broadcaster α} {id : String} {size : Int}
    {filter : Option (Frame α → Bool)} {n : Nat} (hr : b.closed = false) (hs : b.subscribers = [])
    (h : b.subscribe id size filter = (.ok n, b')) :
    b'.Tuned ⟨id, n, filter⟩ ∧ b'.waiting n = [] ∧ b'.nextMarker = b.nextMarker ∧
      b'.dropped = b.dropped := by
  have hretire : b.retire id = (.ok (), b) := by
    unfold retire find?
    rw [hs]
    rfl
  simp only [subscribe, hr, hretire, Bool.false_eq_true, if_false] at h
  split at h
  · cases h
  · simp only [makeChannel, hs, register] at h
    cases h
    refine ⟨⟨hr, rfl, lookup_refilter b.filters id filter, ?_⟩, ?_, rfl, rfl⟩
    · simp
    · simp [waiting]

/-! ## The audience -/

/-- Who listens: what decides whether sending a frame faults. -/
def audience (b : Broadcaster α) :
    Bool × List Subscriber × List (String × (Frame α → Bool)) × Array Bool :=
  (b.closed, b.subscribers, b.filters, b.channels.map Channel.isOpen)

theorem audience_renumber (b : Broadcaster α) (next : Handle) :
    { b with nextMarker := next }.audience = b.audience := rfl

theorem offer_fst (b : Broadcaster α) (frame : Frame α) (s : Subscriber) :
    (b.offer frame s).1 =
      if b.accepts s.id frame && (b.audience.2.2.2[s.channel]? == some false) then .error .sendOnClosed
      else .ok () := by
  have hopen : b.audience.2.2.2[s.channel]? = (b.channels[s.channel]?).map Channel.isOpen :=
    Array.getElem?_map
  rw [hopen]
  unfold offer
  cases b.accepts s.id frame with
  | false => rfl
  | true =>
    cases b.channels[s.channel]? with
    | none => rfl
    | some channel =>
      cases ho : channel.isOpen with
      | false => simp [ho]
      | true =>
        simp only [ho, Bool.not_true, Bool.false_eq_true, if_false, Option.map_some]
        split <;> rfl

/-- Offering a frame fills a buffer at most. -/
theorem offer_kept (b : Broadcaster α) (frame : Frame α) (s : Subscriber) :
    (b.offer frame s).2.audience = b.audience ∧ (b.offer frame s).2.nextMarker = b.nextMarker := by
  have hmodify (c : Nat) : (b.channels.modify c fun c => { c with buffer := c.buffer ++ [frame] }).map
      Channel.isOpen = b.channels.map Channel.isOpen := by
    apply Array.ext_getElem?
    intro i
    simp only [Array.getElem?_map, Array.getElem?_modify]
    split <;> simp [Option.map_map, Function.comp_def]
  unfold offer
  split
  · exact ⟨rfl, rfl⟩
  · split
    · exact ⟨rfl, rfl⟩
    · split
      · exact ⟨rfl, rfl⟩
      · split
        · refine ⟨?_, rfl⟩
          unfold audience
          rw [hmodify]
        · exact ⟨rfl, rfl⟩

theorem offerAll_kept (frame : Frame α) (subscribers : List Subscriber) :
    ∀ b : Broadcaster α, (offerAll frame subscribers b).2.audience = b.audience ∧
      (offerAll frame subscribers b).2.nextMarker = b.nextMarker := by
  induction subscribers with
  | nil => exact fun _ => ⟨rfl, rfl⟩
  | cons s rest ih =>
    intro b
    have hk := b.offer_kept frame s
    unfold offerAll
    generalize b.offer frame s = outcome at hk
    obtain ⟨_ | _, c⟩ := outcome
    · exact hk
    · exact ⟨(ih c).1.trans hk.1, (ih c).2.trans hk.2⟩

/-- Whether a round faults depends on the audience only. -/
theorem offerAll_fst (frame : Frame α) (subscribers : List Subscriber) :
    ∀ {b b' : Broadcaster α}, b.audience = b'.audience →
      (offerAll frame subscribers b).1 = (offerAll frame subscribers b').1 := by
  induction subscribers with
  | nil => exact fun _ => rfl
  | cons s rest ih =>
    intro b b' h
    have hf : b.filters = b'.filters := congrArg (fun x => x.2.2.1) h
    have hr : (b.offer frame s).1 = (b'.offer frame s).1 := by
      rw [offer_fst, offer_fst, h, accepts, accepts, hf]
    have hk := ((b.offer_kept frame s).1.trans h).trans (b'.offer_kept frame s).1.symm
    unfold offerAll
    generalize b.offer frame s = outcome at hr hk
    generalize b'.offer frame s = outcome' at hr hk
    obtain ⟨result, c⟩ := outcome
    obtain ⟨result', c'⟩ := outcome'
    obtain rfl : result = result' := hr
    cases result with
    | error fault => rfl
    | ok => exact ih hk

theorem send_kept (b : Broadcaster α) (frame : Frame α) :
    (b.send frame).2.audience = b.audience ∧ (b.send frame).2.nextMarker = b.nextMarker := by
  unfold send
  split
  · exact ⟨rfl, rfl⟩
  · exact offerAll_kept frame b.subscribers { b with everBroadcast := true }

/-- Whether sending a frame faults depends on the audience only. -/
theorem send_fst {b b' : Broadcaster α} (h : b.audience = b'.audience) (frame : Frame α) :
    (b.send frame).1 = (b'.send frame).1 := by
  have hc : b.closed = b'.closed := congrArg Prod.fst h
  have hs : b.subscribers = b'.subscribers := congrArg (fun x => x.2.1) h
  have hall : (offerAll frame b.subscribers { b with everBroadcast := true }).1 =
      (offerAll frame b.subscribers { b' with everBroadcast := true }).1 := offerAll_fst frame _ h
  unfold send
  by_cases hb : b.closed = true
  · rw [if_pos hb, if_pos (hc.symm.trans hb)]
  · rw [if_neg hb, if_neg (fun hb' => hb (hc.trans hb')), hall]
    exact congrArg (fun s => (offerAll frame s { b' with everBroadcast := true }).1) hs

theorem offerAll_open (frame : Frame α) (subscribers : List Subscriber) :
    ∀ {b : Broadcaster α}, (∀ o ∈ b.audience.2.2.2, o = true) →
      (offerAll frame subscribers b).1 = .ok () := by
  induction subscribers with
  | nil => exact fun _ => rfl
  | cons s rest ih =>
    intro b h
    have hopen : ¬ b.audience.2.2.2[s.channel]? = some false := by
      intro hc
      exact absurd (h false (Array.mem_of_getElem? hc)) (by decide)
    have hr := b.offer_fst frame s
    have hk := (b.offer_kept frame s).1
    simp only [beq_eq_false_iff_ne.2 hopen, Bool.and_false, Bool.false_eq_true, if_false] at hr
    unfold offerAll
    generalize b.offer frame s = outcome at hr hk
    obtain ⟨result, c⟩ := outcome
    obtain rfl : result = .ok () := hr
    refine ih ?_
    rw [hk]
    exact h

/-- A broadcaster all of whose channels are open refuses no frame. -/
theorem send_open {b : Broadcaster α} (h : ∀ channel ∈ b.channels, channel.isOpen = true)
    (frame : Frame α) : (b.send frame).1 = .ok () := by
  unfold send
  split
  · rfl
  · refine offerAll_open frame b.subscribers fun o ho => ?_
    obtain ⟨channel, hc, rfl⟩ := Array.mem_map.1 ho
    exact h channel hc

end Broadcaster

/-! ## Numbering markers -/

/-- The handles of the markers count them from zero. -/
def Marker.Counted (markers : List (Marker α)) : Prop :=
  markers.map Marker.handle = (List.range markers.length).map Int.ofNat

/-- No two markers have one handle. -/
theorem Marker.Counted.nodup {markers : List (Marker α)} (h : Counted markers) :
    (markers.map Marker.handle).Nodup := by
  rw [h]
  exact List.nodup_range.map fun _ _ hij => Int.ofNat.inj hij

theorem Marker.Counted.append {markers new : List (Marker α)} (h : Counted markers)
    (hn : new.map Marker.handle =
      (List.range new.length).map fun i => Int.ofNat markers.length + Int.ofNat i) :
    Counted (markers ++ new) := by
  unfold Counted
  rw [List.map_append, h, hn, List.length_append, List.range_add, List.map_append, List.map_map]
  rfl

namespace Animator

/-- A broadcaster hands out one number after the other. -/
theorem place_numbers [Scalar α] (g : Applied) (keyframes : List (Nat × Keyframe α)) :
    ∀ (e : Engine α) (b : Broadcaster α),
      (place g keyframes e b).2.2 = { b with nextMarker := b.nextMarker + keyframes.length } ∧
      (place g keyframes e b).1.map Marker.handle =
        (List.range keyframes.length).map fun i => b.nextMarker + Int.ofNat i := by
  induction keyframes with
  | nil =>
    intro e b
    simp [place]
  | cons d rest ih =>
    intro e b
    obtain ⟨i, x⟩ := d
    have hb : (Renderer.addMarker b x.point : Handle × Broadcaster α) =
        (b.nextMarker, { b with nextMarker := b.nextMarker + 1 }) := rfl
    obtain ⟨h1, h2⟩ := ih (e.markRendered g i b.nextMarker).2 { b with nextMarker := b.nextMarker + 1 }
    have after (first : Int) (k : Nat) : first + 1 + (k : Int) = first + ((k + 1 : Nat) : Int) := by
      omega
    simp only [place, hb, h1, List.map_cons, h2, List.length_cons, List.range_succ_eq_map, List.map_map]
    constructor
    · rw [after]
    · congr 1
      · exact (Int.add_zero _).symm
      · exact List.map_congr_left fun j _ => after b.nextMarker j

variable [Scalar α] {a b : Animator (Broadcaster α) α} {active : Active} {s : Shot (Broadcaster α) α}

/-- The markers of the trail are numbered, and the broadcaster goes on from there. -/
structure Counted (a : Animator (Broadcaster α) α) : Prop where
  markers : Marker.Counted a.markers
  next : a.renderer.nextMarker = a.markers.length

theorem Counted.shot (h : a.Counted) (hb : a.activate = some (active, b)) (hs : b.shot active = .ok s) :
    Marker.Counted s.frame.markers ∧
      s.renderer = { a.renderer with nextMarker := s.frame.markers.length } := by
  obtain ⟨turned, hshot⟩ := shot_spec hs
  have hba : b.renderer = a.renderer ∧ b.markers = a.markers := by
    rw [activate_eq hb]
    exact ⟨rfl, rfl⟩
  obtain ⟨hr, hn⟩ := place_numbers active.gate (due s.rotation) turned b.renderer
  have hl : (due s.rotation).length = s.frame.newMarkers.length := by
    have hlen := congrArg List.length hn
    rw [hshot.placed] at hlen
    simpa using hlen.symm
  rw [hshot.placed, hba.1, h.next, hl] at hr hn
  rw [shot_markers hs, hba.2]
  refine ⟨h.markers.append hn, ?_⟩
  rw [List.length_append]
  exact hr

end Animator

end BlochSphere
