/-
The books of a broadcaster over whole runs. No operation faults, whatever came before it; whatever is
registered is open, on a channel of its own and counted; and a channel is closed once at most, when its name
subscribes again or leaves or when the broadcaster is closed.
-/
import BlochSphere.Proofs.Broadcast.Mailbox

namespace BlochSphere

variable {α : Type}

namespace Broadcaster

/-- A channel that was handed out and takes no more frames. -/
def isShut (b : Broadcaster α) (n : Nat) : Bool :=
  match b.channels[n]? with
  | some c => !c.isOpen
  | none => false

/-- The closed channels are those that were made and are not registered any more. -/
theorem Sound.isShut_iff {b : Broadcaster α} (h : b.Sound) (n : Nat) :
    b.isShut n = true ↔ n < b.channels.size ∧ n ∉ b.registered := by
  rw [← h.isOpen n]
  unfold isShut IsOpen
  cases hc : b.channels[n]? with
  | none => simpa using hc
  | some c =>
    have hn : n < b.channels.size := by
      by_contra hn
      rw [Array.getElem?_eq_none (by omega)] at hc
      cases hc
    simp [hn]

end Broadcaster

/-- Whether an operation ends the subscription of a name. -/
def BroadcastMove.ends (id : String) : BroadcastMove α → Bool
  | .subscribe other _ _ => other == id
  | .unsubscribe other => other == id
  | .close => true
  | _ => false

/-- What a mailbox sees of an operation closes it if it ends the subscription. -/
theorem Mailbox.isOpen_seen [Scalar α] (q : Mailbox α) (id : String) (n : Nat) (m : BroadcastMove α) :
    ((m.seenBy id n).elim q q.step).isOpen = (q.isOpen && !m.ends id) := by
  have named (other : String) : ((if other = id then some MailEvent.close else none).elim q q.step).isOpen =
      (q.isOpen && !(other == id)) := by
    by_cases h : other = id
    · simp [h, Mailbox.step]
    · simp [h]
  have read (m : Nat) {e : MailEvent α} (he : (q.step e).isOpen = q.isOpen) :
      ((if m = n then some e else none).elim q q.step).isOpen = q.isOpen := by
    split
    · exact he
    · rfl
  have kept {q' : Mailbox α} (h : q'.isOpen = q.isOpen) : q'.isOpen = (q.isOpen && !false) :=
    h.trans (Bool.and_true _).symm
  cases m with
  | subscribe other size filter => exact named other
  | unsubscribe other => exact named other
  | addMarker => exact kept rfl
  | render frame => exact kept (q.publish_kept frame).2
  | clear => exact kept (q.publish_kept Frame.clearing).2
  | close => exact (Bool.and_false _).symm
  | receive m => exact kept (read m rfl)
  | drain m => exact kept (read m rfl)

/-- A mailbox stays open until the subscription ends. -/
theorem Mailbox.isOpen_run [Scalar α] (id : String) (n : Nat) (turns : List (Turn α)) :
    ∀ q : Mailbox α, (q.run (Turn.seenBy id n turns)).isOpen =
      (q.isOpen && !turns.any (·.move.ends id)) := by
  induction turns with
  | nil => exact fun q => (Bool.and_true _).symm
  | cons t turns ih =>
    intro q
    rw [run_seenBy_cons, ih, isOpen_seen, List.any_cons, Bool.not_or, Bool.and_assoc]

namespace Station

variable [Scalar α] {s : Station α}

/-- Only a new channel is registered. -/
theorem registered_outcome (hs : s.broadcaster.Sound) (m : BroadcastMove α) {n : Nat}
    (hn : n ∈ (s.outcome m).broadcaster.registered) :
    n ∈ s.broadcaster.registered ∨ n = s.broadcaster.channels.size := by
  have same (b : Broadcaster α) (frame : Frame α) : (b.published frame).registered = b.registered := by
    unfold Broadcaster.published
    split <;> rfl
  have kept (id : String) {n : Nat}
      (h : n ∈ (s.broadcaster.subscribers.filter (·.id != id)).map Subscriber.channel) :
      n ∈ s.broadcaster.registered :=
    (List.filter_sublist.map Subscriber.channel).subset h
  cases m with
  | subscribe id size filter =>
    have hn : n ∈ (s.broadcaster.joined id size.size filter).registered := hn
    unfold Broadcaster.joined at hn
    split at hn
    · exact .inl hn
    · have hp := (Broadcaster.register_perm hs.ids ⟨id, s.broadcaster.channels.size⟩).map Subscriber.channel
      rcases List.mem_cons.1 (hp.mem_iff.1 hn) with rfl | hn
      · exact .inr rfl
      · exact .inl (kept id hn)
  | unsubscribe id => exact .inl (kept id hn)
  | addMarker => exact .inl hn
  | render frame => exact .inl (same s.broadcaster frame ▸ hn)
  | clear => exact .inl (same { s.broadcaster with nextMarker := 0 } Frame.clearing ▸ hn)
  | close => nomatch hn
  | receive m => exact .inl hn
  | drain m => exact .inl hn

/-- A channel that is closed stays so. -/
theorem shut_step (hs : s.broadcaster.Sound) (t : Turn α) {n : Nat} (h : s.broadcaster.isShut n = true) :
    (s.step t).2.broadcaster.isShut n = true := by
  rw [(sound_step hs t).isShut_iff, step_eq hs t]
  obtain ⟨hn, hr⟩ := ((sound_arrange hs t.order).isShut_iff n).1 h
  have hsize := size_outcome (s.arrange t.order) t.move
  refine ⟨hsize ▸ Nat.lt_add_right _ hn, fun hr' => ?_⟩
  rcases registered_outcome (sound_arrange hs t.order) t.move hr' with hr' | rfl
  · exact hr hr'
  · exact Nat.lt_irrefl _ hn

/-! ## Closing once -/

/-- The channels that an operation closes. -/
def shutBy (s : Station α) (t : Turn α) : List Nat :=
  (List.range (s.step t).2.broadcaster.channels.size).filter fun n =>
    (s.step t).2.broadcaster.isShut n && !s.broadcaster.isShut n

/-- The channels that are closed in a run, in turn. -/
def closings : Station α → List (Turn α) → List Nat
  | _, [] => []
  | s, t :: turns => s.shutBy t ++ closings (s.step t).2 turns

theorem mem_shutBy {t : Turn α} {n : Nat} : n ∈ s.shutBy t ↔
    (s.step t).2.broadcaster.isShut n = true ∧ s.broadcaster.isShut n = false := by
  unfold shutBy
  rw [List.mem_filter, List.mem_range, Bool.and_eq_true, Bool.not_eq_true']
  refine ⟨fun h => h.2, fun h => ⟨?_, h⟩⟩
  by_contra hn
  have hnone := Array.getElem?_eq_none (Nat.not_lt.1 hn)
  rw [Broadcaster.isShut, hnone] at h
  cases h.1

/-- What is closed after a run was closed before it or is closed in it. -/
theorem mem_closings (turns : List (Turn α)) : ∀ s : Station α, s.broadcaster.Sound → ∀ n,
    (s.run turns).broadcaster.isShut n = true ↔ s.broadcaster.isShut n = true ∨ n ∈ closings s turns := by
  induction turns with
  | nil => exact fun s _ n => (or_iff_left List.not_mem_nil).symm
  | cons t turns ih =>
    intro s hs n
    refine (ih _ (sound_step hs t) n).trans ?_
    rw [closings, List.mem_append, mem_shutBy, ← or_assoc]
    refine or_congr_left ?_
    cases hn : s.broadcaster.isShut n with
    | true => simp [shut_step hs t hn]
    | false => simp

theorem nodup_closings (turns : List (Turn α)) : ∀ s : Station α, s.broadcaster.Sound →
    (closings s turns).Nodup ∧ ∀ n ∈ closings s turns, s.broadcaster.isShut n = false := by
  induction turns with
  | nil => exact fun s _ => ⟨List.nodup_nil, nofun⟩
  | cons t turns ih =>
    intro s hs
    obtain ⟨hn, hlate⟩ := ih _ (sound_step hs t)
    refine ⟨List.nodup_append.2 ⟨List.nodup_range.filter _, hn, fun n hnow m hlater hm => ?_⟩, fun n h => ?_⟩
    · subst hm
      have hshut := (mem_shutBy.1 hnow).1
      rw [hlate n hlater] at hshut
      cases hshut
    · rcases List.mem_append.1 h with hnow | hlater
      · exact (mem_shutBy.1 hnow).2
      · -- what is open later was not closed before
        rw [Bool.eq_false_iff]
        intro hshut
        have hstill := shut_step hs t hshut
        rw [hlate n hlater] at hstill
        cases hstill

/-- Whatever was done, the next operation succeeds; the count of subscribers is right, what is registered
is open, no two names share a channel and only registered names have filters. Each channel is closed once
at most, and one that was handed out by an open broadcaster is closed exactly when its name came again or
left or the broadcaster was closed. -/
theorem keeps_its_books (turns : List (Turn α)) :
    let s := (new : Station α).run turns
    (∀ t, (s.step t).1 = .ok ()) ∧
    (s.broadcaster.ids.Nodup ∧ s.broadcaster.active = s.broadcaster.ids.length) ∧
    (s.broadcaster.registered.Nodup ∧ ∀ n ∈ s.broadcaster.registered, s.broadcaster.IsOpen n) ∧
    (∀ f ∈ s.broadcaster.filters, f.1 ∈ s.broadcaster.ids) ∧
    (turns.any (·.move.closes) = true → s.broadcaster.ids = [] ∧ s.broadcaster.active = 0) ∧
    ((closings new turns).Nodup ∧
      ∀ n ∈ s.handed, (s.broadcaster.isShut n = true ↔ n ∈ closings new turns)) ∧
    ∀ (before after : List (Turn α)) (order : VisitOrder) (id : String) (size : BufferSize)
      (filter : Option (Frame α → Bool)), turns = before ++ ⟨.subscribe id size filter, order⟩ :: after →
      before.any (·.move.closes) = false →
      s.broadcaster.isShut ((new : Station α).run before).broadcaster.channels.size =
        after.any (·.move.ends id) := by
  intro s
  have hs : s.broadcaster.Sound := sound_run turns .new
  have hlength : s.broadcaster.ids.length = s.broadcaster.subscribers.length := List.length_map _
  refine ⟨fun t => congrArg Prod.fst (step_eq hs t), ⟨hs.ids, ?_⟩, ⟨hs.registered, fun n => (hs.isOpen n).2⟩,
    hs.filters, fun hclosed => ?_, ⟨(nodup_closings turns _ .new).1, fun n _ => ?_⟩, ?_⟩
  · rw [hlength]
    exact hs.active
  · rw [hs.active, Broadcaster.ids, hs.closed ((closed_run turns new .new).trans hclosed)]
    exact ⟨rfl, rfl⟩
  · exact (mem_closings turns new .new n).trans (or_iff_right nofun)
  · rintro before after order id size filter rfl hbefore
    obtain ⟨c, hc, _, ho, _⟩ := (follows_run before after order id size filter).serves.channel
    rw [Mailbox.isOpen_run, hbefore] at ho
    simp only [Broadcaster.isShut, s, hc, ho]
    exact Bool.not_not _

/-- A name comes again, another leaves and comes again, the broadcaster is closed twice, and a third name
comes too late. -/
theorem keeps_its_books_through_two_closings :
    let size : BufferSize := ⟨1, by decide⟩
    let a : Turn Float := ⟨.subscribe "a" size none, .registration⟩
    let b : Turn Float := ⟨.subscribe "b" size (some completedOnly), .latest⟩
    let after : List (Turn Float) := [b, a, ⟨.unsubscribe "b", .latest⟩, b, ⟨.close, .latest⟩,
      ⟨.close, .registration⟩, ⟨.subscribe "c" size none, .registration⟩, ⟨.clear, .registration⟩]
    let s := (new : Station Float).run ([] ++ a :: after)
    closings new ([] ++ a :: after) = [0, 1, 2, 3, 4] ∧
      ([] ++ a :: after).any (·.move.closes) = true ∧ s.broadcaster.ids = [] ∧ s.broadcaster.active = 0 ∧
      s.broadcaster.isShut ((new : Station Float).run []).broadcaster.channels.size =
        after.any (·.move.ends "a") := by
  intro size a b after s
  obtain ⟨-, -, -, -, hclosed, -, hends⟩ := keeps_its_books ([] ++ a :: after)
  obtain ⟨hids, hactive⟩ := hclosed rfl
  exact ⟨by decide +kernel, rfl, hids, hactive, hends [] after .registration "a" size none rfl rfl⟩

end Station

end BlochSphere
