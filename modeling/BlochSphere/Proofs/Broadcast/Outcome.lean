/-
What the operations of a broadcaster do while its books are in order: a channel is open exactly while
it is registered, no two names share one, only registered names have filters, and the count of
subscribers is right. Every operation then succeeds, and its outcome has a closed form in which the
order of the subscribers plays no part.
-/
import BlochSphere.Proofs.Broadcast
import Mathlib.Data.List.Nodup

namespace BlochSphere

attribute [ext] Broadcaster

variable {α : Type}

/-- Only the element at the place matters. -/
theorem modify_congr {β : Type} {a : Array β} {n : Nat} {f g : β → β}
    (h : ∀ x, a[n]? = some x → f x = g x) : a.modify n f = a.modify n g := by
  apply Array.ext_getElem?
  intro i
  rw [Array.getElem?_modify, Array.getElem?_modify]
  split
  · subst i
    exact Option.map_congr h
  · rfl

theorem modify_eq_self {β : Type} {a : Array β} {n : Nat} {f : β → β}
    (h : ∀ x, a[n]? = some x → f x = x) : a.modify n f = a := by
  rw [modify_congr (g := id) h]
  apply Array.ext_getElem?
  intro i
  simp [Array.getElem?_modify]

namespace Channel

/-- The channel after a frame was offered to it: the frame is the last one if there was room. -/
def put (c : Channel α) (frame : Frame α) : Channel α :=
  if c.buffer.length < c.capacity then { c with buffer := c.buffer ++ [frame] } else c

/-- The channel when nothing more goes in. -/
def shut (c : Channel α) : Channel α := { c with isOpen := false }

@[simp] theorem put_isOpen (c : Channel α) (frame : Frame α) : (c.put frame).isOpen = c.isOpen := by
  unfold put
  split <;> rfl

theorem put_fits {c : Channel α} (h : c.buffer.length ≤ c.capacity) (frame : Frame α) :
    (c.put frame).buffer.length ≤ (c.put frame).capacity := by
  unfold put
  split
  · rename_i hr
    rw [List.length_append]
    exact hr
  · exact h

end Channel

namespace Broadcaster

/-! ## The books -/

/-- A channel that takes frames. -/
def IsOpen (b : Broadcaster α) (n : Nat) : Prop :=
  ∃ c, b.channels[n]? = some c ∧ c.isOpen = true

/-- The names that are registered. -/
def ids (b : Broadcaster α) : List String := b.subscribers.map Subscriber.id

/-- The channels that are registered. -/
def registered (b : Broadcaster α) : List Nat := b.subscribers.map Subscriber.channel

/-- The books are in order. -/
structure Sound (b : Broadcaster α) : Prop where
  ids : b.ids.Nodup
  registered : b.registered.Nodup
  isOpen : ∀ n, b.IsOpen n ↔ n ∈ b.registered
  filters : ∀ f ∈ b.filters, f.1 ∈ b.ids
  active : b.active = b.subscribers.length
  closed : b.closed = true → b.subscribers = []
  fits : ∀ (n : Nat) (c : Channel α), b.channels[n]? = some c → c.buffer.length ≤ c.capacity

theorem Sound.new : (new : Broadcaster α).Sound where
  ids := List.nodup_nil
  registered := List.nodup_nil
  isOpen n := by
    constructor
    · rintro ⟨c, h, _⟩
      cases h
    · nofun
  filters := nofun
  active := rfl
  closed := nofun
  fits := by
    intro n c h
    cases h

variable {b : Broadcaster α}

theorem Sound.opened (h : b.Sound) {s : Subscriber} (hs : s ∈ b.subscribers) : b.IsOpen s.channel :=
  (h.isOpen s.channel).2 (List.mem_map_of_mem hs)

theorem find?_some {id : String} {s : Subscriber} (h : b.find? id = some s) :
    s ∈ b.subscribers ∧ s.id = id :=
  ⟨List.mem_of_find?_eq_some h, by simpa using List.find?_some h⟩

theorem find?_none {id : String} (h : b.find? id = none) : id ∉ b.ids := by
  intro hi
  obtain ⟨s, hs, rfl⟩ := List.mem_map.1 hi
  simpa using List.find?_eq_none.1 h s hs

/-! ## Sending -/

/-- Whether the next frame would be buffered on a channel. -/
def hasRoom (b : Broadcaster α) (n : Nat) : Bool :=
  match b.channels[n]? with
  | some c => c.buffer.length < c.capacity
  | none => false

/-- The broadcaster after one offer to a subscriber that wants the frame. -/
def offered (b : Broadcaster α) (frame : Frame α) (s : Subscriber) : Broadcaster α :=
  { b with
    channels := b.channels.modify s.channel (·.put frame)
    sent := b.sent + if b.hasRoom s.channel then 1 else 0
    dropped := b.dropped + if b.hasRoom s.channel then 0 else 1 }

/-- The broadcaster after a frame was offered to each subscriber of a list that wants it. -/
def spread (b : Broadcaster α) (frame : Frame α) (subscribers : List Subscriber) : Broadcaster α :=
  { b with
    channels := b.channels.mapIdx fun n c =>
      if subscribers.any (fun s => s.channel == n && b.accepts s.id frame) then c.put frame else c
    sent := b.sent + subscribers.countP fun s => b.accepts s.id frame && b.hasRoom s.channel
    dropped := b.dropped + subscribers.countP fun s => b.accepts s.id frame && !b.hasRoom s.channel }

theorem getElem?_spread (b : Broadcaster α) (frame : Frame α) (subscribers : List Subscriber) (n : Nat) :
    (b.spread frame subscribers).channels[n]? = b.channels[n]?.map fun c =>
      if subscribers.any (fun s => s.channel == n && b.accepts s.id frame) then c.put frame else c :=
  Array.getElem?_mapIdx

theorem spread_perm {subscribers others : List Subscriber} (h : subscribers.Perm others)
    (b : Broadcaster α) (frame : Frame α) : b.spread frame subscribers = b.spread frame others := by
  unfold spread
  simp only [h.countP_eq, h.any_eq]

theorem spread_nil (b : Broadcaster α) (frame : Frame α) : b.spread frame [] = b := by
  have hc : b.channels.mapIdx (fun _ c => c) = b.channels := by
    apply Array.ext_getElem?
    intro i
    simp
  simp [spread, hc]

theorem offered_hasRoom {s s' : Subscriber} (h : s.channel ≠ s'.channel) (frame : Frame α) :
    (b.offered frame s).hasRoom s'.channel = b.hasRoom s'.channel := by
  unfold hasRoom offered
  rw [Array.getElem?_modify, if_neg h]

/-- A round that begins with a subscriber that wants the frame is an offer and the rest of the round. -/
theorem spread_cons {frame : Frame α} {s : Subscriber} {rest : List Subscriber}
    (ha : b.accepts s.id frame = true) (hs : ∀ s' ∈ rest, s.channel ≠ s'.channel) :
    (b.offered frame s).spread frame rest = b.spread frame (s :: rest) := by
  have haccepts (id : String) : (b.offered frame s).accepts id frame = b.accepts id frame := rfl
  -- room on the other channels is as it was
  have hcount (p : Bool → Bool) :
      rest.countP (fun s' => (b.offered frame s).accepts s'.id frame &&
          p ((b.offered frame s).hasRoom s'.channel)) =
        rest.countP fun s' => b.accepts s'.id frame && p (b.hasRoom s'.channel) := by
    refine List.countP_congr fun s' hs' => ?_
    rw [haccepts, offered_hasRoom (hs s' hs')]
  have hchannels : ((b.offered frame s).spread frame rest).channels =
      (b.spread frame (s :: rest)).channels := by
    apply Array.ext_getElem?
    intro n
    simp only [getElem?_spread, haccepts, List.any_cons, ha, Bool.and_true]
    simp only [offered, Array.getElem?_modify]
    by_cases hn : s.channel = n
    · have hrest : rest.any (fun s' => s'.channel == n && b.accepts s'.id frame) = false := by
        refine List.any_eq_false.2 fun s' hs' => ?_
        simp [hn ▸ (hs s' hs').symm]
      simp [hn, hrest, Function.comp_def]
    · simp [hn]
  have hsent : ((b.offered frame s).spread frame rest).sent = (b.spread frame (s :: rest)).sent := by
    simp only [spread, hcount fun x => x, List.countP_cons, ha, Bool.true_and]
    simp only [offered]
    omega
  have hdropped : ((b.offered frame s).spread frame rest).dropped =
      (b.spread frame (s :: rest)).dropped := by
    simp only [spread, hcount fun x => !x, List.countP_cons, ha, Bool.true_and]
    simp only [offered]
    cases b.hasRoom s.channel
    · simp
      omega
    · simp
  exact Broadcaster.ext hchannels rfl rfl rfl hsent hdropped rfl rfl rfl

/-- One offer to a subscriber that wants the frame. -/
theorem offer_eq {frame : Frame α} {s : Subscriber} (ho : b.IsOpen s.channel)
    (ha : b.accepts s.id frame = true) : b.offer frame s = (.ok (), b.offered frame s) := by
  obtain ⟨c, hc, hopen⟩ := ho
  unfold offer offered
  by_cases hl : c.buffer.length < c.capacity
  · have hput : b.channels.modify s.channel (·.put frame) =
        b.channels.modify s.channel fun c => { c with buffer := c.buffer ++ [frame] } := by
      refine modify_congr fun x hx => ?_
      rw [hc] at hx
      cases hx
      exact if_pos hl
    simp [ha, hc, hopen, hl, hasRoom, hput]
  · have hput : b.channels.modify s.channel (·.put frame) = b.channels := by
      refine modify_eq_self fun x hx => ?_
      rw [hc] at hx
      cases hx
      exact if_neg hl
    simp [ha, hc, hopen, hl, hasRoom, hput]

/-- Offering a frame to subscribers with open channels of their own, whatever their order. -/
theorem offerAll_eq (frame : Frame α) (subscribers : List Subscriber) :
    ∀ b : Broadcaster α, (subscribers.map Subscriber.channel).Nodup →
      (∀ s ∈ subscribers, b.IsOpen s.channel) →
      offerAll frame subscribers b = (.ok (), b.spread frame subscribers) := by
  induction subscribers with
  | nil =>
    intro b _ _
    rw [spread_nil]
    rfl
  | cons s rest ih =>
    intro b hn ho
    obtain ⟨hs, hrest⟩ := List.nodup_cons.1 hn
    have hother (s' : Subscriber) (hs' : s' ∈ rest) : s.channel ≠ s'.channel := by
      intro he
      exact hs (he ▸ List.mem_map_of_mem hs')
    cases ha : b.accepts s.id frame with
    | false =>
      have hoffer : b.offer frame s = (.ok (), b) := by simp [offer, ha]
      have hsame : b.spread frame (s :: rest) = b.spread frame rest := by simp [spread, ha]
      simp only [offerAll, hoffer, hsame]
      exact ih b hrest fun s' hs' => ho s' (List.mem_cons_of_mem _ hs')
    | true =>
      simp only [offerAll, offer_eq (ho s List.mem_cons_self) ha]
      rw [ih _ hrest, spread_cons ha hother]
      intro s' hs'
      obtain ⟨c, hc, hopen⟩ := ho s' (List.mem_cons_of_mem _ hs')
      refine ⟨c, ?_, hopen⟩
      unfold offered
      rw [Array.getElem?_modify, if_neg (hother s' hs')]
      exact hc

/-- The broadcaster after a frame was sent. -/
def published (b : Broadcaster α) (frame : Frame α) : Broadcaster α :=
  if b.closed then b else { b.spread frame b.subscribers with everBroadcast := true }

theorem published_size (b : Broadcaster α) (frame : Frame α) :
    (b.published frame).channels.size = b.channels.size := by
  unfold published
  split
  · rfl
  · exact Array.size_mapIdx

theorem published_closed (b : Broadcaster α) (frame : Frame α) :
    (b.published frame).closed = b.closed := by
  unfold published
  split <;> rfl

theorem Sound.send_eq (h : b.Sound) (frame : Frame α) : b.send frame = (.ok (), b.published frame) := by
  unfold send published
  split
  · rfl
  · exact offerAll_eq frame b.subscribers { b with everBroadcast := true } h.registered
      fun s hs => h.opened hs

/-! ## Closing channels -/

theorem closeChannel_eq {n : Nat} (h : b.IsOpen n) :
    b.closeChannel n = (.ok (), { b with channels := b.channels.modify n Channel.shut }) := by
  obtain ⟨c, hc, ho⟩ := h
  simp only [closeChannel, hc, ho, if_true]
  rfl

/-- The channels when those of some subscribers are closed. -/
def shutAll (b : Broadcaster α) (subscribers : List Subscriber) : Array (Channel α) :=
  b.channels.mapIdx fun n c => if subscribers.any (·.channel == n) then c.shut else c

theorem getElem?_shutAll (b : Broadcaster α) (subscribers : List Subscriber) (n : Nat) :
    (b.shutAll subscribers)[n]? =
      b.channels[n]?.map fun c => if subscribers.any (·.channel == n) then c.shut else c :=
  Array.getElem?_mapIdx

@[simp] theorem shutAll_size (b : Broadcaster α) (subscribers : List Subscriber) :
    (b.shutAll subscribers).size = b.channels.size := Array.size_mapIdx

theorem shutAll_nil (b : Broadcaster α) : b.shutAll [] = b.channels := by
  apply Array.ext_getElem?
  intro n
  simp [getElem?_shutAll]

theorem shutAll_cons (b : Broadcaster α) (s : Subscriber) (rest : List Subscriber) :
    { b with channels := b.channels.modify s.channel Channel.shut }.shutAll rest =
      b.shutAll (s :: rest) := by
  apply Array.ext_getElem?
  intro n
  simp only [getElem?_shutAll, Array.getElem?_modify, List.any_cons]
  by_cases hn : s.channel = n
  · subst hn
    simp only [if_true, Option.map_map, beq_self_eq_true, Bool.true_or]
    congr 1
    funext c
    simp only [Function.comp]
    split <;> rfl
  · simp [hn]

/-- Closing the channels of subscribers that have open channels of their own. -/
theorem closeAll_eq (subscribers : List Subscriber) :
    ∀ b : Broadcaster α, (subscribers.map Subscriber.channel).Nodup →
      (∀ s ∈ subscribers, b.IsOpen s.channel) →
      closeAll subscribers b = (.ok (), { b with channels := b.shutAll subscribers }) := by
  induction subscribers with
  | nil =>
    intro b _ _
    rw [shutAll_nil]
    rfl
  | cons s rest ih =>
    intro b hn ho
    obtain ⟨hs, hrest⟩ := List.nodup_cons.1 hn
    simp only [closeAll, closeChannel_eq (ho s List.mem_cons_self)]
    rw [ih _ hrest, shutAll_cons]
    intro s' hs'
    obtain ⟨c, hc, hopen⟩ := ho s' (List.mem_cons_of_mem _ hs')
    have hother : s.channel ≠ s'.channel := by
      intro he
      exact hs (he ▸ List.mem_map_of_mem hs')
    refine ⟨c, ?_, hopen⟩
    rw [Array.getElem?_modify, if_neg hother]
    exact hc

/-- The broadcaster after it was closed. -/
def ended (b : Broadcaster α) : Broadcaster α :=
  { b with
    channels := b.shutAll b.subscribers
    subscribers := []
    filters := []
    active := 0
    closed := true }

theorem Sound.close_eq (h : b.Sound) : b.close = (.ok (), b.ended) := by
  unfold close
  rw [closeAll_eq b.subscribers b h.registered fun s hs => h.opened hs]
  rfl

/-! ## Subscribers that come and go -/

/-- The subscribers of a name; there is one at most. -/
def named (b : Broadcaster α) (id : String) : List Subscriber := b.subscribers.filter (·.id == id)

theorem named_of_none {id : String} (h : id ∉ b.ids) : b.named id = [] := by
  refine List.filter_eq_nil_iff.2 fun s hs he => h ?_
  obtain rfl : s.id = id := by simpa using he
  exact List.mem_map_of_mem hs

theorem named_of_mem {s : Subscriber} (h : b.ids.Nodup) (hs : s ∈ b.subscribers) :
    b.named s.id = [s] := by
  unfold named
  obtain ⟨front, back, hb⟩ := List.append_of_mem hs
  have hn := h
  unfold ids at hn
  rw [hb, List.map_append, List.map_cons, List.nodup_append, List.nodup_cons] at hn
  obtain ⟨_, ⟨hback, _⟩, hfront⟩ := hn
  have hf : front.filter (·.id == s.id) = [] := by
    refine List.filter_eq_nil_iff.2 fun o ho he => ?_
    exact hfront o.id (List.mem_map_of_mem ho) s.id List.mem_cons_self (by simpa using he)
  have hk : back.filter (·.id == s.id) = [] := by
    refine List.filter_eq_nil_iff.2 fun o ho he => hback ?_
    rw [← show o.id = s.id by simpa using he]
    exact List.mem_map_of_mem ho
  rw [hb, List.filter_append, List.filter_cons, hf, hk]
  simp

theorem shutAll_single (b : Broadcaster α) (s : Subscriber) :
    b.shutAll [s] = b.channels.modify s.channel Channel.shut := by
  rw [← shutAll_cons, shutAll_nil]

/-- The broadcaster without the subscriber of a name. -/
def left (b : Broadcaster α) (id : String) : Broadcaster α :=
  { b with
    channels := b.shutAll (b.named id)
    subscribers := b.subscribers.filter (·.id != id)
    filters := unfilter b.filters id
    active := b.active - (b.named id).length }

theorem Sound.unsubscribe_eq (h : b.Sound) (id : String) : b.unsubscribe id = (.ok (), b.left id) := by
  unfold unsubscribe left
  cases hf : b.find? id with
  | none =>
    have hid := find?_none hf
    have hs : b.subscribers.filter (·.id != id) = b.subscribers := by
      refine List.filter_eq_self.2 fun s hs => ?_
      rw [bne_iff_ne]
      rintro rfl
      exact hid (List.mem_map_of_mem hs)
    -- a name that is not registered has no filter either
    have hu : unfilter b.filters id = b.filters := by
      refine List.filter_eq_self.2 fun f hmem => ?_
      rw [bne_iff_ne]
      rintro rfl
      exact hid (h.filters f hmem)
    rw [named_of_none hid, hs, hu, shutAll_nil]
    simp
  | some s =>
    obtain ⟨hs, rfl⟩ := find?_some hf
    simp only [closeChannel_eq (h.opened hs), named_of_mem h.ids hs, shutAll_single]
    rfl

/-- The broadcaster with one more subscriber, on a new channel. -/
def enrolled (b : Broadcaster α) (id : String) (size : Nat) (filter : Option (Frame α → Bool)) :
    Broadcaster α :=
  { b with
    channels := b.channels.push ⟨size, [], true⟩
    subscribers := ⟨id, b.channels.size⟩ :: b.subscribers
    filters := refilter b.filters id filter
    active := b.active + 1 }

/-- The broadcaster after a subscription. A closed one only hands out a closed channel. -/
def joined (b : Broadcaster α) (id : String) (size : Nat) (filter : Option (Frame α → Bool)) :
    Broadcaster α :=
  if b.closed then { b with channels := b.channels.push ⟨0, [], false⟩ }
  else { (b.left id).enrolled id size filter with
    subscribers := register b.subscribers ⟨id, b.channels.size⟩ }

theorem joined_size (b : Broadcaster α) (id : String) (size : Nat) (filter : Option (Frame α → Bool)) :
    (b.joined id size filter).channels.size = b.channels.size + 1 := by
  unfold joined
  split
  · exact Array.size_push _
  · exact (Array.size_push _).trans (congrArg (· + 1) (shutAll_size b _))

theorem joined_closed (b : Broadcaster α) (id : String) (size : Nat) (filter : Option (Frame α → Bool)) :
    (b.joined id size filter).closed = b.closed := by
  unfold joined
  split <;> rfl

theorem Sound.retire_eq (h : b.Sound) (id : String) : b.retire id = (.ok (), { b with
    channels := b.shutAll (b.named id), active := b.active - (b.named id).length }) := by
  unfold retire
  cases hf : b.find? id with
  | none =>
    rw [named_of_none (find?_none hf), shutAll_nil]
    simp
  | some s =>
    obtain ⟨hs, rfl⟩ := find?_some hf
    simp only [closeChannel_eq (h.opened hs), named_of_mem h.ids hs, shutAll_single]
    rfl

theorem refilter_unfilter (filters : List (String × (Frame α → Bool))) (id : String)
    (filter : Option (Frame α → Bool)) :
    refilter (unfilter filters id) id filter = refilter filters id filter := by
  have hu : unfilter (unfilter filters id) id = unfilter filters id := by
    unfold unfilter
    simp
  cases filter with
  | none => exact hu
  | some f => exact congrArg ((id, f) :: ·) hu

theorem Sound.subscribe_eq (h : b.Sound) (id : String) {size : Nat} (hs : (size : Int) ≤ maxBuffer)
    (filter : Option (Frame α → Bool)) :
    b.subscribe id size filter = (.ok b.channels.size, b.joined id size filter) := by
  unfold subscribe joined
  split
  · rfl
  · have hsize : ¬ ((size : Int) < 0 ∨ maxBuffer < (size : Int)) := by omega
    simp only [h.retire_eq, Bool.or_eq_true, decide_eq_true_eq, if_neg hsize, makeChannel, enrolled,
      left, refilter_unfilter, shutAll_size, Int.toNat_natCast]

end Broadcaster

end BlochSphere
