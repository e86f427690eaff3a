/-
Subscriptions that fail. A buffer size out of range is found only after the channel that the name had was
closed. A name that was not registered then leaves nothing behind. A name that was registered stays so, on a
closed channel: it can neither come again nor leave, no frame that it wants can be sent, and the broadcaster
can never be closed, whatever is done in between.
-/
import BlochSphere.Proofs.Broadcast.Closing

namespace BlochSphere

variable {α : Type}

namespace Broadcaster

variable {b b' c : Broadcaster α}

/-! ## Closed channels stay closed -/

/-- From `b` to `b'` nobody came or left, and no channel was made or opened. -/
structure Ages (b b' : Broadcaster α) : Prop where
  closed : b'.closed = b.closed
  subscribers : b'.subscribers = b.subscribers
  filters : b'.filters = b.filters
  size : b'.channels.size = b.channels.size
  shut : ∀ n, b.isShut n = true → b'.isShut n = true

theorem Ages.refl (b : Broadcaster α) : b.Ages b := ⟨rfl, rfl, rfl, rfl, fun _ h => h⟩

theorem Ages.trans (h : b.Ages b') (h' : b'.Ages c) : b.Ages c :=
  ⟨h'.closed.trans h.closed, h'.subscribers.trans h.subscribers, h'.filters.trans h.filters,
    h'.size.trans h.size, fun n hn => h'.shut n (h.shut n hn)⟩

theorem isShut_eq (b : Broadcaster α) (n : Nat) :
    b.isShut n = (b.audience.2.2.2[n]? == some false) := by
  have hopen : b.audience.2.2.2[n]? = (b.channels[n]?).map Channel.isOpen := Array.getElem?_map
  rw [hopen]
  unfold isShut
  cases b.channels[n]? with
  | none => rfl
  | some channel => cases hc : channel.isOpen <;> simp [hc]

/-- What the audience does not notice. -/
theorem Ages.of_audience (h : b'.audience = b.audience) : b.Ages b' := by
  refine ⟨congrArg Prod.fst h, congrArg (fun x => x.2.1) h, congrArg (fun x => x.2.2.1) h, ?_, fun n hn => ?_⟩
  · simpa [audience] using congrArg (fun x => x.2.2.2.size) h
  · rwa [isShut_eq, h, ← isShut_eq]

theorem Ages.send (b : Broadcaster α) (frame : Frame α) : b.Ages (b.send frame).2 :=
  .of_audience (b.send_kept frame).1

/-- Reading from a channel does not open it. -/
theorem audience_buffer (b : Broadcaster α) (n : Nat) (f : Channel α → List (Frame α)) :
    { b with channels := b.channels.modify n fun c => { c with buffer := f c } }.audience = b.audience := by
  have hc : (b.channels.modify n fun c => { c with buffer := f c }).map Channel.isOpen =
      b.channels.map Channel.isOpen := by
    apply Array.ext_getElem?
    intro i
    simp only [Array.getElem?_map, Array.getElem?_modify]
    split <;> simp [Option.map_map, Function.comp_def]
  unfold audience
  rw [hc]

theorem isShut_of_getElem? {n : Nat} {channel : Channel α} (h : b.channels[n]? = some channel) :
    b.isShut n = !channel.isOpen := by
  unfold isShut
  rw [h]

theorem closeChannel_of_shut {n : Nat} (h : b.isShut n = true) :
    b.closeChannel n = (.error .closeOfClosed, b) := by
  unfold isShut at h
  unfold closeChannel
  cases hc : b.channels[n]? with
  | none => simp [hc] at h
  | some channel =>
    have hshut : channel.isOpen = false := by simpa [hc] using h
    simp [hshut]

theorem closeChannel_error {n : Nat} {fault : Fault} (h : b.closeChannel n = (.error fault, b')) :
    fault = .closeOfClosed := by
  unfold closeChannel at h
  split at h
  · split at h
    · cases h
    · cases h
      rfl
  · cases h

theorem Ages.closeChannel (b : Broadcaster α) (n : Nat) : b.Ages (b.closeChannel n).2 := by
  unfold Broadcaster.closeChannel
  split
  · split
    · refine ⟨rfl, rfl, rfl, Array.size_modify, fun m hm => ?_⟩
      unfold isShut at hm ⊢
      simp only [Array.getElem?_modify]
      by_cases hn : n = m
      · subst hn
        cases hc : b.channels[n]? with
        | none => rw [hc] at hm; cases hm
        | some channel => simp
      · simpa [hn] using hm
    · exact .refl b
  · exact .refl b

theorem Ages.closeAll (subscribers : List Subscriber) :
    ∀ b : Broadcaster α, b.Ages (closeAll subscribers b).2 := by
  induction subscribers with
  | nil => exact .refl
  | cons s rest ih =>
    intro b
    have hc := Ages.closeChannel b s.channel
    unfold Broadcaster.closeAll
    generalize b.closeChannel s.channel = outcome at hc
    obtain ⟨_ | _, b'⟩ := outcome
    · exact hc
    · exact hc.trans (ih b')

theorem Ages.retire (b : Broadcaster α) (id : String) : b.Ages (b.retire id).2 := by
  unfold Broadcaster.retire
  cases b.find? id with
  | none => exact .refl b
  | some s =>
    have hc := Ages.closeChannel b s.channel
    simp only
    generalize b.closeChannel s.channel = outcome at hc
    obtain ⟨_ | _, b'⟩ := outcome
    · exact hc
    · exact ⟨hc.closed, hc.subscribers, hc.filters, hc.size, hc.shut⟩

/-- A round of closing that comes to a closed channel faults. -/
theorem closeAll_of_shut (subscribers : List Subscriber) : ∀ b : Broadcaster α,
    (∃ s ∈ subscribers, b.isShut s.channel = true) → (closeAll subscribers b).1 = .error .closeOfClosed := by
  induction subscribers with
  | nil =>
    rintro b ⟨s, hs, _⟩
    cases hs
  | cons s rest ih =>
    rintro b ⟨other, hmem, hshut⟩
    have hages := Ages.closeChannel b s.channel
    unfold closeAll
    rcases hc : b.closeChannel s.channel with ⟨fault | _, b'⟩
    · rw [closeChannel_error hc]
    · rw [hc] at hages
      rcases List.mem_cons.1 hmem with rfl | hmem
      · rw [closeChannel_of_shut hshut] at hc
        cases hc
      · exact ih b' ⟨other, hmem, hages.shut _ hshut⟩

/-- A round of offers that comes to a closed channel faults if the frame is wanted there. -/
theorem offerAll_of_shut (frame : Frame α) (subscribers : List Subscriber) : ∀ b : Broadcaster α,
    (∃ s ∈ subscribers, b.accepts s.id frame = true ∧ b.isShut s.channel = true) →
      (offerAll frame subscribers b).1 = .error .sendOnClosed := by
  induction subscribers with
  | nil =>
    rintro b ⟨s, hs, _⟩
    cases hs
  | cons s rest ih =>
    rintro b ⟨other, hmem, haccepts, hshut⟩
    have hkept := Ages.of_audience (b.offer_kept frame s).1
    have hfst := b.offer_fst frame s
    rw [← isShut_eq] at hfst
    unfold offerAll
    rcases ho : b.offer frame s with ⟨fault | _, b'⟩
    · rw [ho] at hfst
      split at hfst
      · exact hfst
      · cases hfst
    · rw [ho] at hfst hkept
      rcases List.mem_cons.1 hmem with rfl | hmem
      · rw [haccepts, hshut] at hfst
        cases hfst
      · refine ih b' ⟨other, hmem, ?_, hkept.shut _ hshut⟩
        unfold accepts
        rw [hkept.filters]
        exact haccepts

/-! ## Every way a subscription can end -/

/-- A subscription faults and leaves the registrations as they were, or it is made after the channel that
the name had was closed. -/
theorem subscribe_cases (h : b.closed = false) (id : String) (size : Int)
    (filter : Option (Frame α → Bool)) :
    (∃ fault c, b.Ages c ∧ b.subscribe id size filter = (.error fault, c)) ∨
    ∃ c, b.Ages c ∧ b.subscribe id size filter = (.ok c.channels.size, { c with
      channels := c.channels.push ⟨size.toNat, [], true⟩
      subscribers := register c.subscribers ⟨id, c.channels.size⟩
      filters := refilter c.filters id filter
      active := c.active + 1 }) := by
  have hages := Ages.retire b id
  unfold subscribe
  rw [if_neg (by rw [h]; nofun)]
  generalize b.retire id = outcome at hages
  obtain ⟨fault | _, c⟩ := outcome
  · exact .inl ⟨fault, c, hages, rfl⟩
  · simp only
    split
    · exact .inl ⟨_, c, hages, rfl⟩
    · exact .inr ⟨c, hages, rfl⟩

/-- Leaving faults or finds nobody, or the name is forgotten after its channel was closed. -/
theorem unsubscribe_cases (b : Broadcaster α) (id : String) :
    (∃ result c, b.Ages c ∧ b.unsubscribe id = (result, c)) ∨
    ∃ c, b.Ages c ∧ b.unsubscribe id = (.ok (), { c with
      subscribers := c.subscribers.filter (·.id != id)
      filters := unfilter c.filters id
      active := c.active - 1 }) := by
  unfold unsubscribe
  cases b.find? id with
  | none => exact .inl ⟨_, b, .refl b, rfl⟩
  | some s =>
    have hages := Ages.closeChannel b s.channel
    simp only
    generalize b.closeChannel s.channel = outcome at hages
    obtain ⟨fault | _, c⟩ := outcome
    · exact .inl ⟨.error fault, c, hages, rfl⟩
    · exact .inr ⟨c, hages, rfl⟩

/-- A buffer size that cannot be addressed. -/
def OutOfRange (size : Int) : Prop := size < 0 ∨ maxBuffer < size

instance (size : Int) : Decidable (OutOfRange size) := inferInstanceAs (Decidable (_ ∨ _))

variable {id : String} {size : Int} {filter : Option (Frame α → Bool)}

/-- With such a size a subscription ends where the name's own channel was closed. -/
theorem subscribe_outOfRange (h : b.closed = false) (hs : OutOfRange size) :
    b.subscribe id size filter =
      match b.retire id with
      | (.error fault, c) => (.error fault, c)
      | (.ok (), c) => (.error .bufferOutOfRange, c) := by
  have hcond : (decide (size < 0) || decide (maxBuffer < size)) = true := by
    simpa [OutOfRange] using hs
  unfold subscribe
  rw [if_neg (by rw [h]; nofun)]
  rcases b.retire id with ⟨fault | _, c⟩
  · rfl
  · simp only [hcond, if_true]

/-- A name that is not registered fails without a trace. -/
theorem subscribe_outOfRange_new (h : b.closed = false) (hs : OutOfRange size) (hid : id ∉ b.ids) :
    b.subscribe id size filter = (.error .bufferOutOfRange, b) := by
  have hf : b.find? id = none := by
    rw [find?, List.find?_eq_none]
    rintro s hmem he
    obtain rfl : s.id = id := by simpa using he
    exact hid (List.mem_map_of_mem hmem)
  rw [subscribe_outOfRange h hs, retire, hf]

theorem find?_of_mem {s : Subscriber} (hids : b.ids.Nodup) (hs : s ∈ b.subscribers) :
    b.find? s.id = some s := by
  rw [find?, ← List.head?_filter]
  exact congrArg List.head? (named_of_mem hids hs)

/-- A name that is registered on an open channel loses it. -/
theorem subscribe_outOfRange_open {n : Nat} (h : b.closed = false) (hs : OutOfRange size)
    (hids : b.ids.Nodup) (hmem : ⟨id, n⟩ ∈ b.subscribers) (hopen : b.IsOpen n) :
    b.subscribe id size filter = (.error .bufferOutOfRange, { b with
      channels := b.channels.modify n Channel.shut, active := b.active - 1 }) := by
  have hf : b.find? id = some ⟨id, n⟩ := find?_of_mem hids hmem
  simp only [subscribe_outOfRange h hs, retire, hf, closeChannel_eq hopen]

/-- A name that is registered on a closed channel cannot come again, whatever the size. -/
theorem subscribe_of_shut {n : Nat} (h : b.closed = false) (hids : b.ids.Nodup)
    (hmem : ⟨id, n⟩ ∈ b.subscribers) (hshut : b.isShut n = true) :
    b.subscribe id size filter = (.error .closeOfClosed, b) := by
  have hf : b.find? id = some ⟨id, n⟩ := find?_of_mem hids hmem
  unfold subscribe
  rw [if_neg (by rw [h]; nofun)]
  simp only [retire, hf, closeChannel_of_shut hshut]

theorem unsubscribe_of_shut {n : Nat} (hids : b.ids.Nodup) (hmem : ⟨id, n⟩ ∈ b.subscribers)
    (hshut : b.isShut n = true) : b.unsubscribe id = (.error .closeOfClosed, b) := by
  have hf : b.find? id = some ⟨id, n⟩ := find?_of_mem hids hmem
  simp only [unsubscribe, hf, closeChannel_of_shut hshut]

/-! ## What every run keeps -/

/-- No name is registered twice, and what is registered was made. Unlike `Sound` this is kept also by
operations that fault. -/
structure Filed (b : Broadcaster α) : Prop where
  ids : b.ids.Nodup
  made : ∀ s ∈ b.subscribers, s.channel < b.channels.size

theorem Filed.ages (h : b.Filed) (ha : b.Ages b') : b'.Filed := by
  refine ⟨?_, fun s hs => ?_⟩
  · unfold Broadcaster.ids
    rw [ha.subscribers]
    exact h.ids
  · rw [ha.size]
    exact h.made s (ha.subscribers ▸ hs)

theorem Filed.perm (h : b.Filed) {subscribers : List Subscriber} (hp : subscribers.Perm b.subscribers) :
    { b with subscribers := subscribers }.Filed :=
  ⟨(hp.map Subscriber.id).nodup_iff.2 h.ids, fun s hs => h.made s (hp.mem_iff.1 hs)⟩

theorem Filed.push (h : b.Filed) (channel : Channel α) :
    { b with channels := b.channels.push channel }.Filed := by
  refine ⟨h.ids, fun s hs => ?_⟩
  show s.channel < (b.channels.push channel).size
  rw [Array.size_push]
  exact Nat.lt_succ_of_lt (h.made s hs)

theorem Filed.register (h : b.Filed) (id : String) (channel : Channel α) :
    { b with
      channels := b.channels.push channel
      subscribers := register b.subscribers ⟨id, b.channels.size⟩ }.Filed := by
  have hp := register_perm h.ids ⟨id, b.channels.size⟩
  refine ⟨(hp.map Subscriber.id).nodup_iff.2 (List.nodup_cons.2 ⟨?_, ?_⟩), fun s hs => ?_⟩
  · exact notMem_left_ids b id
  · exact h.ids.sublist (List.filter_sublist.map Subscriber.id)
  · rcases List.mem_cons.1 (hp.mem_iff.1 hs) with rfl | hs
    · exact Array.size_push _ ▸ Nat.lt_succ_self _
    · exact (h.push channel).made s (List.mem_of_mem_filter hs)

theorem Filed.subscribe (h : b.Filed) (id : String) (size : Int) (filter : Option (Frame α → Bool)) :
    (b.subscribe id size filter).2.Filed := by
  by_cases hc : b.closed = true
  · unfold Broadcaster.subscribe
    rw [if_pos hc]
    exact h.push _
  · rcases b.subscribe_cases (Bool.eq_false_iff.2 hc) id size filter with ⟨fault, c, ha, he⟩ | ⟨c, ha, he⟩
    · rw [he]
      exact h.ages ha
    · rw [he]
      have hr := (h.ages ha).register id ⟨size.toNat, [], true⟩
      exact ⟨hr.ids, hr.made⟩

theorem Filed.unsubscribe (h : b.Filed) (id : String) : (b.unsubscribe id).2.Filed := by
  rcases b.unsubscribe_cases id with ⟨result, c, ha, he⟩ | ⟨c, ha, he⟩
  · rw [he]
    exact h.ages ha
  · rw [he]
    have hc := h.ages ha
    exact ⟨hc.ids.sublist (List.filter_sublist.map Subscriber.id),
      fun s hs => hc.made s (List.mem_of_mem_filter hs)⟩

theorem Filed.close (h : b.Filed) : b.close.2.Filed := by
  have hc := h.ages (Ages.closeAll b.subscribers b)
  unfold Broadcaster.close
  generalize closeAll b.subscribers b = outcome at hc
  obtain ⟨_ | _, c⟩ := outcome
  · exact hc
  · exact ⟨List.nodup_nil, nofun⟩

theorem Filed.open_or_shut (h : b.Filed) {s : Subscriber} (hs : s ∈ b.subscribers) :
    b.IsOpen s.channel ∨ b.isShut s.channel = true := by
  obtain ⟨channel, hc⟩ : ∃ channel, b.channels[s.channel]? = some channel :=
    ⟨_, Array.getElem?_eq_getElem (h.made s hs)⟩
  cases ho : channel.isOpen with
  | true => exact .inl ⟨channel, hc, ho⟩
  | false =>
    right
    rw [isShut_of_getElem? hc, ho]
    rfl

/-! ## A name on a closed channel -/

/-- A name is registered on a closed channel, with the filter that it had. -/
structure Wedged (id : String) (n : Nat) (filter : Option (Frame α → Bool)) (b : Broadcaster α) : Prop
    extends b.Filed where
  running : b.closed = false
  registered : ⟨id, n⟩ ∈ b.subscribers
  shut : b.isShut n = true
  filter : b.filters.lookup id = filter

variable {n : Nat}

theorem Wedged.ages (h : b.Wedged id n filter) (ha : b.Ages b') : b'.Wedged id n filter :=
  ⟨h.toFiled.ages ha, ha.closed.trans h.running, ha.subscribers ▸ h.registered, ha.shut n h.shut,
    ha.filters ▸ h.filter⟩

theorem Wedged.perm (h : b.Wedged id n filter) {subscribers : List Subscriber}
    (hp : subscribers.Perm b.subscribers) : { b with subscribers := subscribers }.Wedged id n filter :=
  ⟨h.toFiled.perm hp, h.running, hp.mem_iff.2 h.registered, h.shut, h.filter⟩

/-- Another name makes no difference, whether or not it gets a channel. -/
theorem Wedged.subscribe (h : b.Wedged id n filter) (other : String) (size : Int)
    (filter' : Option (Frame α → Bool)) : (b.subscribe other size filter').2.Wedged id n filter := by
  by_cases ho : other = id
  · subst ho
    rw [subscribe_of_shut h.running h.ids h.registered h.shut]
    exact h
  · have hf := h.toFiled.subscribe other size filter'
    rcases b.subscribe_cases h.running other size filter' with ⟨fault, c, ha, he⟩ | ⟨c, ha, he⟩
    · rw [he]
      exact h.ages ha
    · rw [he] at hf ⊢
      have hw := h.ages ha
      refine ⟨hf, hw.running, ?_, ?_, ?_⟩
      · rw [(register_perm hw.ids _).mem_iff]
        exact List.mem_cons_of_mem _ (List.mem_filter.2 ⟨hw.registered, bne_iff_ne.2 (Ne.symm ho)⟩)
      · have hn : n ≠ c.channels.size := Nat.ne_of_lt (hw.made _ hw.registered)
        have hs := hw.shut
        unfold isShut at hs ⊢
        simpa [Array.getElem?_push, hn] using hs
      · exact (lookup_refilter_ne (Ne.symm ho) c.filters filter').trans hw.filter

theorem Wedged.unsubscribe (h : b.Wedged id n filter) (other : String) :
    (b.unsubscribe other).2.Wedged id n filter := by
  by_cases ho : other = id
  · subst ho
    rw [unsubscribe_of_shut h.ids h.registered h.shut]
    exact h
  · have hf := h.toFiled.unsubscribe other
    rcases b.unsubscribe_cases other with ⟨result, c, ha, he⟩ | ⟨c, ha, he⟩
    · rw [he]
      exact h.ages ha
    · rw [he] at hf ⊢
      have hw := h.ages ha
      refine ⟨hf, hw.running, List.mem_filter.2 ⟨hw.registered, bne_iff_ne.2 (Ne.symm ho)⟩, hw.shut, ?_⟩
      show (unfilter c.filters other).lookup id = filter
      rw [lookup_unfilter, if_neg (Ne.symm ho)]
      exact hw.filter

theorem Wedged.close_fst (h : b.Wedged id n filter) : b.close.1 = .error .closeOfClosed := by
  have hc := closeAll_of_shut b.subscribers b ⟨_, h.registered, h.shut⟩
  unfold Broadcaster.close
  generalize closeAll b.subscribers b = outcome at hc
  obtain ⟨fault | _, c⟩ := outcome
  · exact hc
  · cases hc

theorem Wedged.close (h : b.Wedged id n filter) : b.close.2.Wedged id n filter := by
  have hw := h.ages (Ages.closeAll b.subscribers b)
  have hc := closeAll_of_shut b.subscribers b ⟨_, h.registered, h.shut⟩
  unfold Broadcaster.close
  generalize closeAll b.subscribers b = outcome at hw hc
  obtain ⟨fault | _, c⟩ := outcome
  · exact hw
  · cases hc

/-- No frame that the name wants can be sent. -/
theorem Wedged.send_fst (h : b.Wedged id n filter) {frame : Frame α} (hp : passes filter frame = true) :
    (b.send frame).1 = .error .sendOnClosed := by
  unfold send
  rw [if_neg (by rw [h.running]; nofun)]
  refine offerAll_of_shut frame b.subscribers _ ⟨_, h.registered, ?_, h.shut⟩
  show passes (b.filters.lookup id) frame = true
  rw [h.filter]
  exact hp

/-- A registered name whose subscription fails is left on a closed channel. -/
theorem Filed.wedged (h : b.Filed) (hr : b.closed = false) (hs : OutOfRange size)
    (hmem : ⟨id, n⟩ ∈ b.subscribers) :
    (b.subscribe id size filter).2.Wedged id n (b.filters.lookup id) := by
  have hf := h.subscribe id size filter
  rcases h.open_or_shut hmem with ho | ho
  · rw [subscribe_outOfRange_open hr hs h.ids hmem ho] at hf ⊢
    refine ⟨hf, hr, hmem, ?_, rfl⟩
    obtain ⟨channel, hc, _⟩ := ho
    have hshut : (b.channels.modify n Channel.shut)[n]? = some channel.shut := by
      simp [Array.getElem?_modify, hc]
    unfold isShut
    simp only [hshut, Channel.shut, Bool.not_false]
  · rw [subscribe_of_shut hr h.ids hmem ho] at hf ⊢
    exact ⟨hf, hr, hmem, ho, rfl⟩

/-- Closing a channel leaves what waits on it. -/
theorem waiting_shut (b : Broadcaster α) (n m : Nat) (active : Int) :
    { b with channels := b.channels.modify n Channel.shut, active := active }.waiting m = b.waiting m := by
  unfold waiting
  simp only [Array.getElem?_modify]
  by_cases hn : n = m
  · rw [if_pos hn]
    cases b.channels[m]? <;> rfl
  · rw [if_neg hn]

end Broadcaster

/-! ## Runs in which operations may fault -/

/-- What can be tried with a broadcaster: every operation, and a subscription with a buffer of any size. -/
inductive Attempt (α : Type) where
  | turn (t : Turn α)
  | subscribe (id : String) (size : Int) (filter : Option (Frame α → Bool))

namespace Station

variable [Scalar α]

def attempt (s : Station α) : Attempt α → Except Fault Unit × Station α
  | .turn t => s.step t
  | .subscribe id size filter =>
    match s.broadcaster.subscribe id size filter with
    | (.error fault, b) => (.error fault, { s with broadcaster := b })
    | (.ok n, b) => (.ok (), { s with broadcaster := b, handed := s.handed ++ [n] })

/-- A run goes on whatever the results are. -/
def attemptAll (s : Station α) (attempts : List (Attempt α)) : Station α :=
  attempts.foldl (fun s a => (s.attempt a).2) s

theorem attempt_subscribe (s : Station α) (id : String) (size : Int) (filter : Option (Frame α → Bool)) :
    (s.attempt (.subscribe id size filter)).1 =
        (s.broadcaster.subscribe id size filter).1.map (fun _ => ()) ∧
      (s.attempt (.subscribe id size filter)).2.broadcaster =
        (s.broadcaster.subscribe id size filter).2 := by
  simp only [attempt]
  rcases s.broadcaster.subscribe id size filter with ⟨_ | _, b⟩ <;> exact ⟨rfl, rfl⟩

/-- What survives every way an operation can go. -/
structure Lasting (P : Broadcaster α → Prop) : Prop where
  perm : ∀ {b : Broadcaster α}, P b → ∀ {subscribers : List Subscriber}, subscribers.Perm b.subscribers →
    P { b with subscribers := subscribers }
  ages : ∀ {b b' : Broadcaster α}, P b → b.Ages b' → P b'
  subscribe : ∀ {b : Broadcaster α}, P b → ∀ id size filter, P (b.subscribe id size filter).2
  unsubscribe : ∀ {b : Broadcaster α}, P b → ∀ id, P (b.unsubscribe id).2
  close : ∀ {b : Broadcaster α}, P b → P b.close.2

theorem Lasting.perform {P : Broadcaster α → Prop} (h : Lasting P) {s : Station α} (hs : P s.broadcaster)
    (m : BroadcastMove α) : P (s.perform m).2.broadcaster := by
  cases m with
  | subscribe id size filter =>
    have hp := h.subscribe hs id size.size filter
    simp only [Station.perform]
    generalize s.broadcaster.subscribe id size.size filter = outcome at hp
    obtain ⟨_ | _, b⟩ := outcome <;> exact hp
  | unsubscribe id => exact h.unsubscribe hs id
  | addMarker => exact h.ages hs (.of_audience rfl)
  | render frame => exact h.ages hs (.send _ frame)
  | clear =>
    exact h.ages hs (.of_audience (Broadcaster.send_kept { s.broadcaster with nextMarker := 0 } Frame.clearing).1)
  | close => exact h.close hs
  | receive n =>
    show P (s.took n (s.broadcaster.receive n).1.toList (s.broadcaster.receive n).2).broadcaster
    rw [s.took_receive n]
    exact h.ages hs (.of_audience (Broadcaster.audience_buffer _ _ _))
  | drain n =>
    show P (s.took n (s.broadcaster.drain n).1.1 (s.broadcaster.drain n).2).broadcaster
    rw [s.took_drain n]
    exact h.ages hs (.of_audience (Broadcaster.audience_buffer _ _ _))

theorem Lasting.attempt {P : Broadcaster α → Prop} (h : Lasting P) {s : Station α} (hs : P s.broadcaster)
    (a : Attempt α) : P (s.attempt a).2.broadcaster := by
  cases a with
  | subscribe id size filter =>
    rw [(s.attempt_subscribe id size filter).2]
    exact h.subscribe hs id size filter
  | turn t => exact h.perform (s := s.arrange t.order) (h.perm hs (t.order.perm _)) t.move

theorem Lasting.attemptAll {P : Broadcaster α → Prop} (h : Lasting P) (attempts : List (Attempt α)) :
    ∀ {s : Station α}, P s.broadcaster → P (s.attemptAll attempts).broadcaster := by
  induction attempts with
  | nil => exact fun hs => hs
  | cons a attempts ih => exact fun hs => ih (h.attempt hs a)

omit [Scalar α] in
theorem lasting_filed : Lasting (Broadcaster.Filed : Broadcaster α → Prop) :=
  ⟨.perm, .ages, .subscribe, .unsubscribe, .close⟩

omit [Scalar α] in
theorem lasting_wedged (id : String) (n : Nat) (filter : Option (Frame α → Bool)) :
    Lasting (Broadcaster.Wedged id n filter) :=
  ⟨.perm, .ages, .subscribe, .unsubscribe, .close⟩

/-- Every operation that comes to the name faults: the name can neither come again nor leave, the
broadcaster cannot be closed, and no frame that the name's filter lets through can be sent. -/
structure Stuck (s : Station α) (id : String) (filter : Option (Frame α → Bool)) : Prop where
  subscribe : ∀ size filter', (s.attempt (.subscribe id size filter')).1 = .error .closeOfClosed
  unsubscribe : ∀ order, (s.attempt (.turn ⟨.unsubscribe id, order⟩)).1 = .error .closeOfClosed
  close : ∀ order, (s.attempt (.turn ⟨.close, order⟩)).1 = .error .closeOfClosed
  render : ∀ order frame, passes filter frame = true →
    (s.attempt (.turn ⟨.render frame, order⟩)).1 = .error .sendOnClosed
  clear : ∀ order, passes filter Frame.clearing = true →
    (s.attempt (.turn ⟨.clear, order⟩)).1 = .error .sendOnClosed

theorem stuck_of_wedged {s : Station α} {id : String} {n : Nat} {filter : Option (Frame α → Bool)}
    (h : s.broadcaster.Wedged id n filter) : s.Stuck id filter := by
  have arranged (order : VisitOrder) : (s.arrange order).broadcaster.Wedged id n filter :=
    h.perm (order.perm _)
  refine ⟨fun size filter' => ?_, fun order => ?_, fun order => ?_, fun order frame hp => ?_, fun order hp => ?_⟩
  · rw [(s.attempt_subscribe id size filter').1,
      Broadcaster.subscribe_of_shut h.running h.ids h.registered h.shut]
    rfl
  · have ho := arranged order
    exact congrArg Prod.fst (Broadcaster.unsubscribe_of_shut ho.ids ho.registered ho.shut)
  · exact (arranged order).close_fst
  · exact (arranged order).send_fst hp
  · have ho := (arranged order).ages (.of_audience (Broadcaster.audience_renumber _ 0))
    exact ho.send_fst hp

/-- What a subscription with a size out of range leaves behind, in whatever state it finds an open
broadcaster. Registrations, filters and buffers stay as they are in any case. A name that is not registered
leaves the broadcaster as it was. One that is registered loses its channel, is counted off and stays
registered, and the broadcaster is stuck with it in every run from there on; where it was stuck before,
nothing changes. -/
theorem failed_subscription_keeps_name (attempts : List (Attempt α)) (id : String) (size : Int)
    (filter : Option (Frame α → Bool)) (hsize : Broadcaster.OutOfRange size)
    (hopen : ((new : Station α).attemptAll attempts).broadcaster.closed = false) :
    let s := (new : Station α).attemptAll attempts
    let b := s.broadcaster
    let result := (b.subscribe id size filter).1
    let after := (b.subscribe id size filter).2
    (after.subscribers = b.subscribers ∧ after.filters = b.filters ∧ ∀ n, after.waiting n = b.waiting n) ∧
    (id ∉ b.ids → result = .error .bufferOutOfRange ∧ after = b) ∧
    ∀ n, ⟨id, n⟩ ∈ b.subscribers →
      ((b.IsOpen n ∧ result = .error .bufferOutOfRange ∧ after = { b with
          channels := b.channels.modify n Channel.shut, active := b.active - 1 }) ∨
        (b.isShut n = true ∧ result = .error .closeOfClosed ∧ after = b)) ∧
      ∀ later, let s' := (s.attempt (.subscribe id size filter)).2.attemptAll later
        (⟨id, n⟩ ∈ s'.broadcaster.subscribers ∧ s'.broadcaster.isShut n = true) ∧
          s'.Stuck id (b.filters.lookup id) := by
  intro s b result after
  have hf : b.Filed := lasting_filed.attemptAll attempts ⟨List.nodup_nil, nofun⟩
  have new (hid : id ∉ b.ids) : b.subscribe id size filter = (.error .bufferOutOfRange, b) :=
    Broadcaster.subscribe_outOfRange_new hopen hsize hid
  have known {n : Nat} (hmem : ⟨id, n⟩ ∈ b.subscribers) :
      (b.IsOpen n ∧ b.subscribe id size filter = (.error .bufferOutOfRange, { b with
        channels := b.channels.modify n Channel.shut, active := b.active - 1 })) ∨
      (b.isShut n = true ∧ b.subscribe id size filter = (.error .closeOfClosed, b)) := by
    rcases hf.open_or_shut hmem with ho | ho
    · exact .inl ⟨ho, Broadcaster.subscribe_outOfRange_open hopen hsize hf.ids hmem ho⟩
    · exact .inr ⟨ho, Broadcaster.subscribe_of_shut hopen hf.ids hmem ho⟩
  refine ⟨?_, fun hid => ⟨congrArg Prod.fst (new hid), congrArg Prod.snd (new hid)⟩, fun n hmem => ⟨?_, ?_⟩⟩
  · by_cases hid : id ∈ b.ids
    · obtain ⟨⟨_, n⟩, hmem, rfl⟩ := List.mem_map.1 hid
      rcases known hmem with ⟨_, he⟩ | ⟨_, he⟩
      · rw [show after = _ from congrArg Prod.snd he]
        exact ⟨rfl, rfl, fun m => b.waiting_shut n m _⟩
      · rw [show after = b from congrArg Prod.snd he]
        exact ⟨rfl, rfl, fun _ => rfl⟩
    · rw [show after = b from congrArg Prod.snd (new hid)]
      exact ⟨rfl, rfl, fun _ => rfl⟩
  · rcases known hmem with ⟨ho, he⟩ | ⟨ho, he⟩
    · exact .inl ⟨ho, congrArg Prod.fst he, congrArg Prod.snd he⟩
    · exact .inr ⟨ho, congrArg Prod.fst he, congrArg Prod.snd he⟩
  · intro later s'
    have hw : (s.attempt (.subscribe id size filter)).2.broadcaster.Wedged id n (b.filters.lookup id) := by
      rw [(s.attempt_subscribe id size filter).2]
      exact hf.wedged hopen hsize hmem
    have hlater := (lasting_wedged id n _).attemptAll later hw
    exact ⟨⟨hlater.registered, hlater.shut⟩, stuck_of_wedged hlater⟩

/-- After a name's second subscription failed, a second name comes and leaves; the broadcaster still cannot
be closed. -/
theorem failed_subscription_keeps_name_for_good :
    let first : List (Attempt Float) := [.subscribe "a" 4 (some completedOnly)]
    let later : List (Attempt Float) :=
      [.subscribe "b" 1 none, .turn ⟨.unsubscribe "b", .latest⟩, .turn ⟨.close, .latest⟩]
    let s := (new : Station Float).attemptAll first
    let s' := (s.attempt (.subscribe "a" (-1) none)).2.attemptAll later
    Broadcaster.OutOfRange (-1) ∧ s.broadcaster.closed = false ∧ ⟨"a", 0⟩ ∈ s.broadcaster.subscribers ∧
      s'.broadcaster.isShut 0 = true ∧
      (s'.attempt (.turn ⟨.close, .registration⟩)).1 = .error .closeOfClosed := by
  intro first later s s'
  have hsize : Broadcaster.OutOfRange (-1) := by decide
  have hopen : s.broadcaster.closed = false := rfl
  have hmem : ⟨"a", 0⟩ ∈ s.broadcaster.subscribers := by decide +kernel
  obtain ⟨-, -, hname⟩ := failed_subscription_keeps_name first "a" (-1) none hsize hopen
  obtain ⟨⟨-, hshut⟩, hstuck⟩ := (hname 0 hmem).2 later
  exact ⟨hsize, hopen, hmem, hshut, hstuck.close .registration⟩

/-- A subscription that fails closes the channel of its name and counts the name off, and the next frame
cannot be sent although the one before could. -/
theorem failed_subscription_changes_broadcaster :
    let b := (Broadcaster.new.subscribe "a" 4 none).2
    let after : Broadcaster Float := (b.subscribe "a" (-1) none).2
    b.closed = false ∧ Broadcaster.OutOfRange (-1) ∧ (b.active = 1 ∧ after.active = 0) ∧
      (b.isShut 0 = false ∧ after.isShut 0 = true) ∧
      ((b.send Frame.clearing).1.isOk = true ∧ (after.send Frame.clearing).1.isOk = false) ∧
      ((b.unsubscribe "a").1.isOk = true ∧ (after.unsubscribe "a").1.isOk = false) ∧
      b.close.1.isOk = true ∧ after.close.1.isOk = false := by
  decide +kernel

end Station

end BlochSphere
