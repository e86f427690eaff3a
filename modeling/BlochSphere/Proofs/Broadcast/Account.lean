/-
The accounts of a broadcaster over whole runs. Every frame is counted once for each subscriber that wants
it, as sent or, if the buffer is full, as dropped; and what was sent was read or is still to be read on some
channel that was handed out. Both counts together are at most the square of the number of operations.
-/
import BlochSphere.Proofs.Broadcast.Station
import Mathlib

namespace BlochSphere

variable {α : Type}

/-- The frame that an operation publishes. -/
def BroadcastMove.frame? [Scalar α] : BroadcastMove α → Option (Frame α)
  | .render frame => some frame
  | .clear => some Frame.clearing
  | _ => none

namespace Broadcaster

/-- The subscribers that want a frame. -/
def wanting (b : Broadcaster α) (frame : Frame α) : List Subscriber :=
  b.subscribers.filter (b.accepts ·.id frame)

/-- Whether a channel holds exactly as many frames as it can. -/
def isFull (b : Broadcaster α) (n : Nat) : Bool :=
  match b.channels[n]? with
  | some c => c.buffer.length == c.capacity
  | none => false

/-- For how many subscribers a frame counts, one way or the other. -/
def demand (b : Broadcaster α) (frame : Frame α) : Nat := (b.wanting frame).length

/-- For how many subscribers a frame is buffered. -/
def fitting (b : Broadcaster α) (frame : Frame α) : Nat := (b.wanting frame).countP (b.hasRoom ·.channel)

/-- For how many subscribers a frame finds the buffer full. -/
def overflow (b : Broadcaster α) (frame : Frame α) : Nat := (b.wanting frame).countP (b.isFull ·.channel)

variable {b : Broadcaster α}

theorem Sound.isFull_eq (h : b.Sound) {s : Subscriber} (hs : s ∈ b.subscribers) :
    b.isFull s.channel = !b.hasRoom s.channel := by
  obtain ⟨c, hc, _⟩ := h.opened hs
  have hfits := h.fits s.channel c hc
  unfold isFull hasRoom
  rw [hc, Bool.eq_iff_iff]
  simp
  omega

theorem Sound.overflow_eq (h : b.Sound) (frame : Frame α) :
    b.overflow frame = (b.wanting frame).countP (!b.hasRoom ·.channel) := by
  refine List.countP_congr fun s hs => ?_
  rw [h.isFull_eq (List.mem_filter.1 hs).1]

/-- For each subscriber that wants it, a frame is buffered or finds the buffer full. -/
theorem Sound.fitting_add_overflow (h : b.Sound) (frame : Frame α) :
    b.fitting frame + b.overflow frame = b.demand frame := by
  unfold demand
  rw [h.overflow_eq, List.length_eq_countP_add_countP (b.hasRoom ·.channel)]
  simp [fitting]

/-! ## One frame -/

theorem published_sent (hc : b.closed = false) (frame : Frame α) :
    (b.published frame).sent = b.sent + b.fitting frame := by
  unfold published fitting wanting
  rw [hc, List.countP_filter]
  simp only [Bool.and_comm]
  rfl

theorem Sound.published_dropped (h : b.Sound) (hc : b.closed = false) (frame : Frame α) :
    (b.published frame).dropped = b.dropped + b.overflow frame := by
  rw [h.overflow_eq, Broadcaster.published, hc, wanting, List.countP_filter]
  simp only [Bool.and_comm]
  rfl

theorem waiting_eq (b : Broadcaster α) (n : Nat) :
    b.waiting n = (b.channels[n]?.map Channel.buffer).getD [] := by
  unfold waiting
  cases b.channels[n]? <;> rfl

/-- Whether a frame would be buffered on channel `n`. -/
def reaches (b : Broadcaster α) (frame : Frame α) (n : Nat) : Bool :=
  (b.wanting frame).any (fun s => s.channel == n && b.hasRoom s.channel)

theorem published_waiting (hc : b.closed = false) (frame : Frame α) (n : Nat) :
    (b.published frame).waiting n = b.waiting n ++ if b.reaches frame n then [frame] else [] := by
  have hreaches : b.reaches frame n =
      (b.subscribers.any (fun s => s.channel == n && b.accepts s.id frame) && b.hasRoom n) := by
    unfold reaches wanting
    rw [Bool.eq_iff_iff, List.any_filter, Bool.and_eq_true, List.any_eq_true, List.any_eq_true]
    constructor
    · rintro ⟨s, hs, h⟩
      simp only [Bool.and_eq_true, beq_iff_eq] at h
      obtain ⟨ha, rfl, hr⟩ := h
      exact ⟨⟨s, hs, by simp [ha]⟩, hr⟩
    · rintro ⟨⟨s, hs, h⟩, hr⟩
      simp only [Bool.and_eq_true, beq_iff_eq] at h
      obtain ⟨rfl, ha⟩ := h
      exact ⟨s, hs, by simp [ha, hr]⟩
  have hget : (b.published frame).channels[n]? = b.channels[n]?.map fun c =>
      if b.subscribers.any (fun s => s.channel == n && b.accepts s.id frame) then c.put frame else c := by
    unfold published
    rw [hc]
    exact getElem?_spread b frame b.subscribers n
  rw [waiting_eq, waiting_eq, hget, hreaches]
  cases hn : b.channels[n]? with
  | none => simp [hasRoom, hn]
  | some c =>
    simp only [hasRoom, hn, Option.map_some, Option.getD_some, Channel.put]
    by_cases ha : b.subscribers.any (fun s => s.channel == n && b.accepts s.id frame) = true
    · by_cases hr : c.buffer.length < c.capacity
      · simp [ha, hr]
      · simp [ha, hr]
    · simp [ha]

/-- The channels that a frame reaches are as many as the subscribers it reaches. -/
theorem Sound.countP_reaches (h : b.Sound) (frame : Frame α) :
    (List.range b.channels.size).countP (b.reaches frame) = b.fitting frame := by
  have hmade (s : Subscriber) (hs : s ∈ b.subscribers) : s.channel < b.channels.size := by
    obtain ⟨c, hc, _⟩ := h.opened hs
    by_contra hn
    rw [Array.getElem?_eq_none (Nat.not_lt.1 hn)] at hc
    cases hc
  have hwanting : (b.wanting frame).Sublist b.subscribers := List.filter_sublist
  have hperm : ((List.range b.channels.size).filter (b.reaches frame)).Perm
      (((b.wanting frame).filter (b.hasRoom ·.channel)).map Subscriber.channel) := by
    refine (List.perm_ext_iff_of_nodup (List.nodup_range.filter _)
      (h.registered.sublist ((List.filter_sublist.trans hwanting).map Subscriber.channel))).2 fun n => ?_
    rw [List.mem_filter, List.mem_range, reaches, List.any_eq_true, List.mem_map]
    constructor
    · rintro ⟨_, s, hs, hr⟩
      rw [Bool.and_eq_true, beq_iff_eq] at hr
      exact ⟨s, List.mem_filter.2 ⟨hs, hr.2⟩, hr.1⟩
    · rintro ⟨s, hs, rfl⟩
      obtain ⟨hs, hr⟩ := List.mem_filter.1 hs
      exact ⟨hmade s (List.mem_filter.1 hs).1, s, hs, by simp [hr]⟩
  rw [List.countP_eq_length_filter, hperm.length_eq, List.length_map, fitting,
    List.countP_eq_length_filter]

/-! ## What is not read by closing -/

theorem waiting_shutAll (b : Broadcaster α) (subscribers : List Subscriber) (n : Nat) :
    { b with channels := b.shutAll subscribers }.waiting n = b.waiting n := by
  rw [waiting_eq, waiting_eq, getElem?_shutAll, Option.map_map]
  congr 2
  funext c
  simp only [Function.comp]
  split <;> rfl

theorem waiting_push (b : Broadcaster α) {c : Channel α} (hc : c.buffer = []) (n : Nat) :
    { b with channels := b.channels.push c }.waiting n = b.waiting n := by
  rw [waiting_eq, waiting_eq, Array.getElem?_push]
  split
  · rename_i hn
    rw [hn, Array.getElem?_eq_none (Nat.le_refl _)]
    exact hc
  · rfl

theorem waiting_joined (b : Broadcaster α) (id : String) (size : Nat) (filter : Option (Frame α → Bool))
    (n : Nat) : (b.joined id size filter).waiting n = b.waiting n := by
  unfold joined
  split
  · exact waiting_push b rfl n
  · exact (waiting_push (b.left id) rfl n).trans (waiting_shutAll b (b.named id) n)

end Broadcaster

namespace Station

/-- The frames that were read and those that can still be read, on all channels that were handed out. -/
def delivered (s : Station α) : Nat := (s.handed.map fun n => (s.received n).length).sum

/-- Reading moves frames from those that wait to those that were read. -/
theorem received_skim (s : Station α) (n k : Nat) : (s.skim n k).received = s.received := by
  funext m
  have hwaiting : (s.skim n k).broadcaster.waiting m =
      if m = n then (s.broadcaster.waiting m).drop k else s.broadcaster.waiting m := by
    rw [Broadcaster.waiting_eq, Broadcaster.waiting_eq]
    show ((s.broadcaster.channels.modify n _)[m]?.map _).getD [] = _
    rw [Array.getElem?_modify]
    by_cases h : m = n
    · subst h
      cases s.broadcaster.channels[m]? <;> simp
    · rw [if_neg (Ne.symm h), if_neg h]
  unfold received
  rw [hwaiting]
  show (if m = n then s.read m ++ _ else s.read m) ++ _ = _
  split
  · rename_i h
    rw [h, List.append_assoc, List.take_append_drop]
  · rfl

theorem sum_length_append {β : Type} (f : Nat → List β) (p : Nat → Bool) (x : β) (l : List Nat) :
    (l.map fun n => (f n ++ if p n then [x] else []).length).sum =
      (l.map fun n => (f n).length).sum + l.countP p := by
  induction l with
  | nil => rfl
  | cons n l ih =>
    rw [List.map_cons, List.sum_cons, ih, List.map_cons, List.sum_cons, List.countP_cons, List.length_append]
    cases p n
    · simp
      omega
    · simp
      omega

/-- A frame that is sent reaches as many channels as it is counted for. -/
theorem delivered_published {s : Station α} (hs : s.broadcaster.Sound) (hn : s.Numbered)
    (hc : s.broadcaster.closed = false) (frame : Frame α) :
    { s with broadcaster := s.broadcaster.published frame }.delivered =
      s.delivered + s.broadcaster.fitting frame := by
  have hreceived : { s with broadcaster := s.broadcaster.published frame }.received = fun n =>
      s.received n ++ if s.broadcaster.reaches frame n then [frame] else [] := by
    funext n
    unfold received
    rw [Broadcaster.published_waiting hc, List.append_assoc]
  unfold delivered
  rw [hreceived, ← hs.countP_reaches frame, ← hn.handed]
  exact sum_length_append s.received _ frame s.handed

variable [Scalar α] {s : Station α} {m : BroadcastMove α}

/-- What an operation adds to a count of the frames that are published while the broadcaster is open. -/
def counted (s : Station α) (count : Broadcaster α → Frame α → Nat) (m : BroadcastMove α) : Nat :=
  if s.broadcaster.closed then 0 else m.frame?.elim 0 (count s.broadcaster)

/-- What a run adds to such a count. -/
def tally (count : Broadcaster α → Frame α → Nat) : Station α → List (Turn α) → Nat
  | _, [] => 0
  | s, t :: turns => s.counted count t.move + tally count (s.step t).2 turns

/-! ## One operation -/

theorem outcome_of_frame {frame : Frame α} (h : m.frame? = some frame) : ∃ next, s.outcome m =
    { s with broadcaster := { s.broadcaster with nextMarker := next }.published frame } := by
  cases m with
  | render f =>
    cases h
    exact ⟨s.broadcaster.nextMarker, rfl⟩
  | clear =>
    cases h
    exact ⟨0, rfl⟩
  | _ => nomatch h

theorem outcome_of_silent (h : m.frame? = none) : (s.outcome m).broadcaster.sent = s.broadcaster.sent ∧
    (s.outcome m).broadcaster.dropped = s.broadcaster.dropped ∧ (s.outcome m).received = s.received := by
  have joined (id : String) (size : Nat) (filter : Option (Frame α → Bool)) :
      (s.broadcaster.joined id size filter).sent = s.broadcaster.sent ∧
        (s.broadcaster.joined id size filter).dropped = s.broadcaster.dropped := by
    unfold Broadcaster.joined
    split <;> exact ⟨rfl, rfl⟩
  have shut (subscribers : List Subscriber) :
      { s with broadcaster := { s.broadcaster with channels := s.broadcaster.shutAll subscribers } }.received =
        s.received :=
    funext fun n => congrArg (s.read n ++ ·) (s.broadcaster.waiting_shutAll subscribers n)
  cases m with
  | subscribe id size filter =>
    obtain ⟨hsent, hdropped⟩ := joined id size.size filter
    refine ⟨hsent, hdropped, funext fun n => ?_⟩
    exact congrArg (s.read n ++ ·) (s.broadcaster.waiting_joined id size.size filter n)
  | unsubscribe id => exact ⟨rfl, rfl, shut _⟩
  | addMarker => exact ⟨rfl, rfl, rfl⟩
  | render frame => nomatch h
  | clear => nomatch h
  | close => exact ⟨rfl, rfl, shut _⟩
  | receive n => exact ⟨rfl, rfl, s.received_skim n 1⟩
  | drain n => exact ⟨rfl, rfl, s.received_skim n _⟩

theorem delivered_of_silent (hn : s.Numbered) (h : m.frame? = none) :
    (s.outcome m).delivered = s.delivered := by
  unfold delivered
  rw [(outcome_of_silent h).2.2]
  cases m with
  | subscribe id size filter =>
    -- nothing is on the new channel
    have hnew : s.received s.broadcaster.channels.size = [] := by
      unfold received
      rw [hn.read _ (Nat.le_refl _), Broadcaster.waiting_eq, Array.getElem?_eq_none (Nat.le_refl _)]
      rfl
    show ((s.handed ++ [s.broadcaster.channels.size]).map _).sum = _
    rw [List.map_append, List.sum_append, List.map_singleton, hnew]
    rfl
  | _ => rfl

/-- What one operation does to the accounts. -/
theorem accounts_outcome (hs : s.broadcaster.Sound) (hn : s.Numbered) (m : BroadcastMove α) :
    (s.outcome m).broadcaster.sent = s.broadcaster.sent + s.counted Broadcaster.fitting m ∧
    (s.outcome m).broadcaster.dropped = s.broadcaster.dropped + s.counted Broadcaster.overflow m ∧
    (s.outcome m).delivered = s.delivered + s.counted Broadcaster.fitting m := by
  unfold counted
  cases hf : m.frame? with
  | none =>
    simp only [Option.elim_none, ite_self, Nat.add_zero]
    exact ⟨(outcome_of_silent hf).1, (outcome_of_silent hf).2.1, delivered_of_silent hn hf⟩
  | some frame =>
    obtain ⟨next, ho⟩ := outcome_of_frame (s := s) hf
    let b := { s.broadcaster with nextMarker := next }
    have ho : s.outcome m = { s with broadcaster := b.published frame } := ho
    rw [ho]
    cases hc : s.broadcaster.closed with
    | true =>
      have hb : b.published frame = b := if_pos hc
      rw [hb]
      exact ⟨rfl, rfl, rfl⟩
    | false =>
      have hb : b.Sound := hs.renumbered next
      exact ⟨Broadcaster.published_sent (b := b) hc frame, hb.published_dropped hc frame,
        delivered_published (s := { s with broadcaster := b }) hb ⟨hn.handed, hn.read⟩ hc frame⟩

theorem counted_add (hs : s.broadcaster.Sound) (m : BroadcastMove α) :
    s.counted Broadcaster.fitting m + s.counted Broadcaster.overflow m = s.counted Broadcaster.demand m := by
  unfold counted
  split
  · rfl
  · cases m.frame? with
    | none => rfl
    | some frame => exact hs.fitting_add_overflow frame

/-- The order of the visits makes no difference to what is counted. -/
theorem counted_arrange (s : Station α) (order : VisitOrder) (m : BroadcastMove α) :
    (s.arrange order).counted Broadcaster.fitting m = s.counted Broadcaster.fitting m ∧
    (s.arrange order).counted Broadcaster.overflow m = s.counted Broadcaster.overflow m := by
  have hw (frame : Frame α) : ((s.arrange order).broadcaster.wanting frame).Perm
      (s.broadcaster.wanting frame) :=
    (order.perm _).filter _
  have hfitting : (s.arrange order).broadcaster.fitting = s.broadcaster.fitting :=
    funext fun frame => (hw frame).countP_eq _
  have hoverflow : (s.arrange order).broadcaster.overflow = s.broadcaster.overflow :=
    funext fun frame => (hw frame).countP_eq _
  unfold counted
  rw [hfitting, hoverflow]
  exact ⟨rfl, rfl⟩

theorem accounts_step (hs : s.broadcaster.Sound) (hn : s.Numbered) (t : Turn α) :
    (s.step t).2.broadcaster.sent = s.broadcaster.sent + s.counted Broadcaster.fitting t.move ∧
    (s.step t).2.broadcaster.dropped = s.broadcaster.dropped + s.counted Broadcaster.overflow t.move ∧
    (s.step t).2.delivered = s.delivered + s.counted Broadcaster.fitting t.move := by
  rw [step_eq hs t, ← (counted_arrange s t.order t.move).1, ← (counted_arrange s t.order t.move).2]
  exact accounts_outcome (sound_arrange hs t.order) (s := s.arrange t.order) ⟨hn.handed, hn.read⟩ t.move

/-! ## Runs -/

/-- What every operation adds to, a run adds to. -/
theorem tally_run (measure : Station α → Nat) (count : Broadcaster α → Frame α → Nat)
    (hstep : ∀ (s : Station α) (t : Turn α), s.broadcaster.Sound → s.Numbered →
      measure (s.step t).2 = measure s + s.counted count t.move) (turns : List (Turn α)) :
    ∀ s : Station α, s.broadcaster.Sound → s.Numbered →
      measure (s.run turns) = measure s + tally count s turns := by
  induction turns with
  | nil => exact fun s _ _ => rfl
  | cons t turns ih =>
    intro s hs hn
    have hrest := ih (s.step t).2 (sound_step hs t) (hn.step hs t)
    rw [hstep s t hs hn, Nat.add_assoc] at hrest
    exact hrest

/-- What was sent and what was dropped are together what the subscribers wanted. -/
theorem sent_add_dropped (turns : List (Turn α)) :
    ((new : Station α).run turns).broadcaster.sent + ((new : Station α).run turns).broadcaster.dropped =
      tally Broadcaster.demand new turns := by
  have hboth := tally_run (fun s => s.broadcaster.sent + s.broadcaster.dropped) Broadcaster.demand ?_
    turns new .new (numbered_run [])
  · exact hboth.trans (Nat.zero_add _)
  · intro s t hs hn
    obtain ⟨hsent, hdropped, _⟩ := accounts_step hs hn t
    have hadd := counted_add hs t.move
    omega

/-! ## Bounds -/

theorem subscribers_outcome_le (s : Station α) (m : BroadcastMove α) :
    (s.outcome m).broadcaster.subscribers.length ≤ s.broadcaster.subscribers.length + 1 := by
  have published (b : Broadcaster α) (frame : Frame α) : (b.published frame).subscribers = b.subscribers := by
    unfold Broadcaster.published
    split <;> rfl
  cases m with
  | subscribe id size filter =>
    show (s.broadcaster.joined id size.size filter).subscribers.length ≤ _
    unfold Broadcaster.joined
    split
    · exact Nat.le_succ _
    · show (Broadcaster.register _ _).length ≤ _
      unfold Broadcaster.register
      split
      · rw [List.length_map]
        exact Nat.le_succ _
      · rw [List.length_append, List.length_singleton]
  | unsubscribe id => exact (List.length_filter_le _ _).trans (Nat.le_succ _)
  | render frame => exact (congrArg List.length (published _ frame)).le.trans (Nat.le_succ _)
  | clear => exact (congrArg List.length (published _ Frame.clearing)).le.trans (Nat.le_succ _)
  | close => exact Nat.zero_le _
  | addMarker | receive n | drain n => exact Nat.le_succ _

theorem counted_demand_le (s : Station α) (m : BroadcastMove α) :
    s.counted Broadcaster.demand m ≤ s.broadcaster.subscribers.length := by
  unfold counted
  split
  · exact Nat.zero_le _
  · cases m.frame? with
    | none => exact Nat.zero_le _
    | some frame => exact List.length_filter_le _ _

/-- A run adds at most one for each of its operations and each subscriber that there can be by then. -/
theorem tally_demand_le (turns : List (Turn α)) : ∀ s : Station α, s.broadcaster.Sound →
    tally Broadcaster.demand s turns ≤ turns.length * (s.broadcaster.subscribers.length + turns.length) := by
  induction turns with
  | nil => exact fun s _ => Nat.zero_le _
  | cons t turns ih =>
    intro s hs
    have hrest := ih (s.step t).2 (sound_step hs t)
    have hstep : (s.step t).2.broadcaster.subscribers.length ≤ s.broadcaster.subscribers.length + 1 := by
      rw [step_eq hs t, ← (t.order.perm s.broadcaster.subscribers).length_eq]
      exact subscribers_outcome_le (s.arrange t.order) t.move
    have hcounted := s.counted_demand_le t.move
    show s.counted Broadcaster.demand t.move + tally Broadcaster.demand (s.step t).2 turns ≤ _
    rw [List.length_cons]
    nlinarith

/-- What was sent and what was dropped is together never more than the square of the number of operations. -/
theorem sent_add_dropped_le (turns : List (Turn α)) :
    ((new : Station α).run turns).broadcaster.sent + ((new : Station α).run turns).broadcaster.dropped ≤
      turns.length ^ 2 := by
  rw [sent_add_dropped, sq]
  exact (tally_demand_le turns new .new).trans_eq (congrArg _ (Nat.zero_add _))

/-! ## The balance -/

/-- The accounts balance. What was sent and what was dropped are together what the subscribers wanted of the
frames that were published; what was sent was read or still waits on a channel that was handed out; what
was dropped found a buffer exactly full; and the order of the visits makes no difference. -/
theorem accounts_balance (turns : List (Turn α)) :
    let s := (new : Station α).run turns
    s.broadcaster.sent + s.broadcaster.dropped = tally Broadcaster.demand new turns ∧
    s.broadcaster.sent = s.delivered ∧
    s.broadcaster.dropped = tally Broadcaster.overflow new turns ∧
    ∀ others : List (Turn α), others.map Turn.move = turns.map Turn.move →
      ((new : Station α).run others).broadcaster.sent = s.broadcaster.sent ∧
      ((new : Station α).run others).broadcaster.dropped = s.broadcaster.dropped := by
  intro s
  have hs : (new : Station α).broadcaster.Sound := .new
  have hn : (new : Station α).Numbered := numbered_run []
  have hsent := tally_run (·.broadcaster.sent) Broadcaster.fitting
    (fun s t hs hn => (accounts_step hs hn t).1) turns new hs hn
  have hdropped := tally_run (·.broadcaster.dropped) Broadcaster.overflow
    (fun s t hs hn => (accounts_step hs hn t).2.1) turns new hs hn
  have hdelivered := tally_run delivered Broadcaster.fitting
    (fun s t hs hn => (accounts_step hs hn t).2.2) turns new hs hn
  refine ⟨sent_add_dropped turns, hsent.trans hdelivered.symm, hdropped.trans (Nat.zero_add _), ?_⟩
  intro others hmoves
  have halike : (new : Station α).Alike new := ⟨⟨[], .nil, rfl⟩, rfl, rfl⟩
  obtain ⟨l, _, hb⟩ := (halike.run turns others new new hmoves.symm hs hs).broadcaster
  rw [hb]
  exact ⟨rfl, rfl⟩

/-- One of the two subscribers only wants completions and has room for one frame. The second completion is
dropped for it, and the last frame comes after it left. -/
theorem accounts_balance_after_leaving :
    let size (n : Nat) (h : (n : Int) ≤ Broadcaster.maxBuffer) : BufferSize := ⟨n, h⟩
    let shown (complete : Bool) (order : VisitOrder) : Turn Float :=
      ⟨.render (Frame.bare ⟨1, ⟨0⟩⟩ 0 complete), order⟩
    let turns (order : VisitOrder) : List (Turn Float) :=
      [⟨.subscribe "a" (size 1 (by decide)) (some completedOnly), order⟩,
        ⟨.subscribe "b" (size 9 (by decide)) none, order⟩, shown false order, shown true order,
        shown true order, ⟨.drain 1, order⟩, ⟨.unsubscribe "a", order⟩, ⟨.clear, order⟩]
    let s := (new : Station Float).run (turns .latest)
    (s.broadcaster.sent, s.broadcaster.dropped) = (5, 1) ∧
      (tally Broadcaster.demand new (turns .latest), tally Broadcaster.overflow new (turns .latest)) = (6, 1) ∧
      s.delivered = 5 ∧
      (turns .registration).map Turn.move = (turns .latest).map Turn.move ∧
      ((new : Station Float).run (turns .registration)).broadcaster.sent = s.broadcaster.sent := by
  intro size shown turns s
  refine ⟨by decide +kernel, by decide +kernel, by decide +kernel, rfl, ?_⟩
  exact ((accounts_balance (turns .latest)).2.2.2 (turns .registration) rfl).1

end Station

end BlochSphere
