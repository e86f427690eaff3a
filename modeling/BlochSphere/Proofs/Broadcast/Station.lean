/-
Runs of a broadcaster. Names subscribe and leave, frames are sent, channels are read and the broadcaster
is closed, in any order and any number of times; in each operation the subscribers are visited in an
order of its own. No operation of a run faults, the books are in order after each of them, and the
order of the visits changes nothing but the order of registration.
-/
import BlochSphere.Proofs.Broadcast.Sound

namespace BlochSphere

variable {α : Type}

/-- The size of a buffer that can be addressed. -/
structure BufferSize where
  size : Nat
  fits : (size : Int) ≤ Broadcaster.maxBuffer

/-- What can be done with a broadcaster and the channels that it hands out. `receive n` reads the next
frame that waits on channel `n`, if any, and `drain n` all of them. -/
inductive BroadcastMove (α : Type) where
  | subscribe (id : String) (size : BufferSize) (filter : Option (Frame α → Bool))
  | unsubscribe (id : String)
  | addMarker
  | render (frame : Frame α)
  | clear
  | close
  | receive (n : Nat)
  | drain (n : Nat)

def BroadcastMove.closes : BroadcastMove α → Bool
  | .close => true
  | _ => false

/-- How many channels an operation makes. -/
def BroadcastMove.makes : BroadcastMove α → Nat
  | .subscribe _ _ _ => 1
  | _ => 0

/-- An order to visit the subscribers in. -/
structure VisitOrder where
  arrange : List Subscriber → List Subscriber
  perm : ∀ subscribers, (arrange subscribers).Perm subscribers

/-- The order of registration. -/
def VisitOrder.registration : VisitOrder := ⟨id, fun _ => .refl _⟩

/-- The latest subscriber first. -/
def VisitOrder.latest : VisitOrder := ⟨List.reverse, List.reverse_perm⟩

/-- One operation, with the order in which it visits the subscribers. -/
structure Turn (α : Type) where
  move : BroadcastMove α
  order : VisitOrder

/-- A broadcaster with the channels that it handed out, in turn, and all that was read from each. -/
structure Station (α : Type) where
  broadcaster : Broadcaster α
  handed : List Nat
  read : Nat → List (Frame α)

namespace Station

def new : Station α := ⟨Broadcaster.new, [], fun _ => []⟩

/-- What a channel's holder got and can still get. -/
def received (s : Station α) (n : Nat) : List (Frame α) := s.read n ++ s.broadcaster.waiting n

/-- The station with its subscribers in another order. -/
def arrange (s : Station α) (order : VisitOrder) : Station α :=
  { s with broadcaster :=
    { s.broadcaster with subscribers := order.arrange s.broadcaster.subscribers } }

/-- The station after frames were read from a channel. -/
def took (s : Station α) (n : Nat) (frames : List (Frame α)) (b : Broadcaster α) : Station α :=
  { s with
    broadcaster := b
    read := fun m => if m = n then s.read m ++ frames else s.read m }

/-- Lets the broadcaster do something. -/
def become (s : Station α) (result : Except Fault Unit × Broadcaster α) :
    Except Fault Unit × Station α :=
  (result.1, { s with broadcaster := result.2 })

/-- The station after the next `k` frames of a channel were read. -/
def skim (s : Station α) (n k : Nat) : Station α :=
  s.took n ((s.broadcaster.waiting n).take k)
    { s.broadcaster with
      channels := s.broadcaster.channels.modify n fun c => { c with buffer := c.buffer.drop k } }

section Moves

variable [Scalar α]

def perform (s : Station α) : BroadcastMove α → Except Fault Unit × Station α
  | .subscribe id size filter =>
    match s.broadcaster.subscribe id size.size filter with
    | (.error fault, b) => (.error fault, { s with broadcaster := b })
    | (.ok n, b) => (.ok (), { s with broadcaster := b, handed := s.handed ++ [n] })
  | .unsubscribe id => s.become (s.broadcaster.unsubscribe id)
  | .addMarker => s.become (.ok (), s.broadcaster.addMarker.2)
  | .render frame => s.become (s.broadcaster.send frame)
  | .clear => s.become s.broadcaster.clear
  | .close => s.become s.broadcaster.close
  | .receive n =>
    let (frame, b) := s.broadcaster.receive n
    (.ok (), s.took n frame.toList b)
  | .drain n =>
    let ((frames, _), b) := s.broadcaster.drain n
    (.ok (), s.took n frames b)

/-- One operation, with its result. -/
def step (s : Station α) (t : Turn α) : Except Fault Unit × Station α :=
  (s.arrange t.order).perform t.move

/-- A run goes on whatever the results are. -/
def run (s : Station α) (turns : List (Turn α)) : Station α := turns.foldl (fun s t => (s.step t).2) s

/-- The station after an operation, if nothing faults. -/
def outcome (s : Station α) : BroadcastMove α → Station α
  | .subscribe id size filter => { s with
      broadcaster := s.broadcaster.joined id size.size filter
      handed := s.handed ++ [s.broadcaster.channels.size] }
  | .unsubscribe id => { s with broadcaster := s.broadcaster.left id }
  | .addMarker => { s with broadcaster := s.broadcaster.addMarker.2 }
  | .render frame => { s with broadcaster := s.broadcaster.published frame }
  | .clear => { s with
      broadcaster := { s.broadcaster with nextMarker := 0 }.published Frame.clearing }
  | .close => { s with broadcaster := s.broadcaster.ended }
  | .receive n => s.skim n 1
  | .drain n => s.skim n (s.broadcaster.waiting n).length

end Moves

/-! ## No operation faults -/

theorem took_receive (s : Station α) (n : Nat) :
    s.took n (s.broadcaster.receive n).1.toList (s.broadcaster.receive n).2 = s.skim n 1 := by
  have hbuffer (c : Channel α) (hc : s.broadcaster.channels[n]? = some c) :
      s.broadcaster.waiting n = c.buffer := by
    unfold Broadcaster.waiting
    rw [hc]
  unfold skim
  cases hw : s.broadcaster.waiting n with
  | nil =>
    rw [Broadcaster.receive_nil hw, modify_eq_self fun c hc => ?_]
    · rfl
    · have hb := (hbuffer c hc).symm.trans hw
      rw [hb]
      exact congrArg (Channel.mk _ · _) hb.symm
  | cons frame rest =>
    obtain ⟨b, hr, _, rfl⟩ := Broadcaster.receive_cons hw
    have hsame : s.broadcaster.channels.modify n (fun c => { c with buffer := c.buffer.drop 1 }) =
        s.broadcaster.channels.modify n ({ · with buffer := rest }) := by
      refine modify_congr fun c hc => ?_
      rw [(hbuffer c hc).symm.trans hw]
      rfl
    rw [hr, hsame]
    rfl

theorem took_drain (s : Station α) (n : Nat) :
    s.took n (s.broadcaster.drain n).1.1 (s.broadcaster.drain n).2 =
      s.skim n (s.broadcaster.waiting n).length := by
  unfold skim
  rw [List.take_length]
  cases hc : s.broadcaster.channels[n]? with
  | none =>
    rw [modify_eq_self fun c hc' => by rw [hc] at hc'; cases hc']
    simp only [Broadcaster.waiting, Broadcaster.drain, hc]
  | some c =>
    have hw : s.broadcaster.waiting n = c.buffer := by simp only [Broadcaster.waiting, hc]
    rw [modify_congr (g := ({ · with buffer := [] })) fun d hd => ?_]
    · simp only [hw, Broadcaster.drain, hc]
    · rw [hc] at hd
      cases hd
      rw [hw, List.drop_length]

theorem sound_skim {s : Station α} (h : s.broadcaster.Sound) (n k : Nat) :
    (s.skim n k).broadcaster.Sound := by
  refine h.of_buffers (fun m c => if n = m then { c with buffer := c.buffer.drop k } else c) (fun m => ?_)
    (fun m c => ?_) (fun m c hc => ?_) rfl rfl rfl rfl
  · show (s.broadcaster.channels.modify n _)[m]? = _
    rw [Array.getElem?_modify]
    split
    · rfl
    · simp
  · split <;> rfl
  · split
    · simp only [List.length_drop]
      omega
    · exact hc

theorem sound_arrange {s : Station α} (h : s.broadcaster.Sound) (order : VisitOrder) :
    (s.arrange order).broadcaster.Sound := h.perm (order.perm _)

/-- Channels are handed out in the order of their numbers, and nothing is read from the others. -/
structure Numbered (s : Station α) : Prop where
  handed : s.handed = List.range s.broadcaster.channels.size
  read : ∀ n, s.broadcaster.channels.size ≤ n → s.read n = []

theorem Numbered.skim {s : Station α} (h : s.Numbered) (n k : Nat) : (s.skim n k).Numbered := by
  have hsize : (s.skim n k).broadcaster.channels.size = s.broadcaster.channels.size :=
    Array.size_modify
  refine ⟨h.handed.trans (congrArg List.range hsize.symm), fun m hm => ?_⟩
  rw [hsize] at hm
  show (if m = n then s.read m ++ _ else s.read m) = []
  split
  · rename_i he
    subst he
    have hw : s.broadcaster.waiting m = [] := by
      unfold Broadcaster.waiting
      rw [Array.getElem?_eq_none hm]
    rw [h.read m hm, hw, List.take_nil, List.append_nil]
  · exact h.read m hm

section Runs

variable [Scalar α] {s : Station α}

theorem perform_eq (h : s.broadcaster.Sound) (m : BroadcastMove α) :
    s.perform m = (.ok (), s.outcome m) := by
  cases m with
  | subscribe id size filter =>
    simp only [perform, h.subscribe_eq id size.fits filter]
    rfl
  | unsubscribe id =>
    simp only [perform, become, h.unsubscribe_eq id]
    rfl
  | addMarker => rfl
  | render frame =>
    simp only [perform, become, h.send_eq frame]
    rfl
  | clear =>
    simp only [perform, become, Broadcaster.clear, (h.renumbered 0).send_eq]
    rfl
  | close =>
    simp only [perform, become, h.close_eq]
    rfl
  | receive n => exact congrArg (Prod.mk _) (s.took_receive n)
  | drain n => exact congrArg (Prod.mk _) (s.took_drain n)

theorem sound_outcome (h : s.broadcaster.Sound) (m : BroadcastMove α) :
    (s.outcome m).broadcaster.Sound := by
  cases m with
  | subscribe id size filter => exact h.joined id size.size filter
  | unsubscribe id => exact h.left id
  | addMarker => exact h.renumbered _
  | render frame => exact h.published frame
  | clear => exact (h.renumbered 0).published Frame.clearing
  | close => exact h.ended
  | receive n => exact sound_skim h n 1
  | drain n => exact sound_skim h n _

/-- One operation from a station whose books are in order. -/
theorem step_eq (h : s.broadcaster.Sound) (t : Turn α) :
    s.step t = (.ok (), (s.arrange t.order).outcome t.move) :=
  perform_eq (sound_arrange h t.order) t.move

theorem sound_step (h : s.broadcaster.Sound) (t : Turn α) : (s.step t).2.broadcaster.Sound := by
  rw [step_eq h t]
  exact sound_outcome (sound_arrange h t.order) t.move

/-- What holds at first and is kept by every operation holds after every run. -/
theorem run_induction {P : Station α → Prop}
    (hstep : ∀ (s : Station α) order m, s.broadcaster.Sound → P s → P ((s.arrange order).outcome m)) :
    ∀ (turns : List (Turn α)) (s : Station α), s.broadcaster.Sound → P s →
      (s.run turns).broadcaster.Sound ∧ P (s.run turns) := by
  intro turns
  induction turns with
  | nil => exact fun s h hp => ⟨h, hp⟩
  | cons t turns ih =>
    intro s h hp
    refine ih (s.step t).2 (sound_step h t) ?_
    rw [step_eq h t]
    exact hstep s t.order t.move h hp

theorem sound_run (turns : List (Turn α)) (h : s.broadcaster.Sound) : (s.run turns).broadcaster.Sound :=
  (run_induction (P := fun _ => True) (fun _ _ _ _ _ => trivial) turns s h trivial).1

theorem size_outcome (s : Station α) (m : BroadcastMove α) :
    (s.outcome m).broadcaster.channels.size = s.broadcaster.channels.size + m.makes := by
  cases m with
  | subscribe id size filter => exact s.broadcaster.joined_size id size.size filter
  | unsubscribe id => exact s.broadcaster.shutAll_size _
  | addMarker => rfl
  | render frame => exact s.broadcaster.published_size frame
  | clear => exact Broadcaster.published_size _ Frame.clearing
  | close => exact s.broadcaster.shutAll_size _
  | receive n => exact Array.size_modify
  | drain n => exact Array.size_modify

theorem Numbered.outcome (h : s.Numbered) (m : BroadcastMove α) : (s.outcome m).Numbered := by
  have hsize := s.size_outcome m
  have hread : ∀ n, (s.outcome m).broadcaster.channels.size ≤ n → s.read n = [] := by
    intro n hn
    refine h.read n ?_
    omega
  cases m with
  | subscribe id size filter =>
    refine ⟨?_, hread⟩
    rw [hsize]
    show s.handed ++ [s.broadcaster.channels.size] = List.range (s.broadcaster.channels.size + 1)
    rw [List.range_succ, h.handed]
  | receive n => exact h.skim n 1
  | drain n => exact h.skim n _
  | _ => exact ⟨h.handed.trans (congrArg List.range hsize.symm), hread⟩

theorem Numbered.step (h : s.Numbered) (hs : s.broadcaster.Sound) (t : Turn α) : (s.step t).2.Numbered := by
  rw [step_eq hs t]
  exact Numbered.outcome (s := s.arrange t.order) ⟨h.handed, h.read⟩ t.move

theorem numbered_run (turns : List (Turn α)) : ((new : Station α).run turns).Numbered :=
  (run_induction (P := Numbered) (fun s order m _ h =>
    Numbered.outcome (s := s.arrange order) ⟨h.handed, h.read⟩ m) turns new .new ⟨rfl, fun _ _ => rfl⟩).2

theorem run_append (s : Station α) (turns more : List (Turn α)) :
    s.run (turns ++ more) = (s.run turns).run more :=
  List.foldl_append

/-- A broadcaster is closed from the first closing on. -/
theorem closed_run (turns : List (Turn α)) : ∀ s : Station α, s.broadcaster.Sound →
    (s.run turns).broadcaster.closed = (s.broadcaster.closed || turns.any (·.move.closes)) := by
  induction turns with
  | nil => exact fun s _ => (Bool.or_false _).symm
  | cons t turns ih =>
    intro s hs
    have hstep : (s.step t).2.broadcaster.closed = (s.broadcaster.closed || t.move.closes) := by
      rw [step_eq hs t]
      cases t.move with
      | subscribe id size filter => exact (Broadcaster.joined_closed ..).trans (Bool.or_false _).symm
      | render frame => exact (Broadcaster.published_closed ..).trans (Bool.or_false _).symm
      | clear => exact (Broadcaster.published_closed ..).trans (Bool.or_false _).symm
      | close => exact (Bool.or_true _).symm
      | _ => exact (Bool.or_false _).symm
    refine (ih _ (sound_step hs t)).trans ?_
    rw [hstep, List.any_cons, Bool.or_assoc]

end Runs

end Station

/-! ## The order of visits -/

namespace Broadcaster

/-- Two broadcasters that differ in the order of registration at most. -/
def Alike (b b' : Broadcaster α) : Prop :=
  ∃ subscribers : List Subscriber, subscribers.Perm b.subscribers ∧ b' = { b with subscribers }

variable {b b' : Broadcaster α}

theorem shutAll_perm {subscribers others : List Subscriber} (h : subscribers.Perm others)
    (b : Broadcaster α) : b.shutAll subscribers = b.shutAll others := by
  unfold shutAll
  simp only [h.any_eq]

theorem Alike.left (h : b.Alike b') (id : String) : (b.left id).Alike (b'.left id) := by
  obtain ⟨l, hl, rfl⟩ := h
  have hn : ({ b with subscribers := l }.named id).Perm (b.named id) := hl.filter _
  refine ⟨l.filter (·.id != id), hl.filter _, ?_⟩
  refine Broadcaster.ext (shutAll_perm hn b) rfl rfl rfl rfl rfl ?_ rfl rfl
  exact congrArg (fun k : Nat => b.active - k) hn.length_eq

theorem Alike.joined (h : b.Alike b') (hs : b.Sound) (id : String) (size : Nat)
    (filter : Option (Frame α → Bool)) : (b.joined id size filter).Alike (b'.joined id size filter) := by
  obtain ⟨l, hl, rfl⟩ := h
  have hn : ({ b with subscribers := l }.named id).Perm (b.named id) := hl.filter _
  unfold Broadcaster.joined
  by_cases hc : b.closed = true
  · rw [if_pos hc, if_pos hc]
    exact ⟨l, hl, rfl⟩
  · rw [if_neg hc, if_neg hc]
    refine ⟨register l ⟨id, b.channels.size⟩, ?_, ?_⟩
    · have hone := register_perm (hs.perm hl).ids ⟨id, b.channels.size⟩
      have hother := register_perm hs.ids ⟨id, b.channels.size⟩
      exact hone.trans (((hl.filter _).cons _).trans hother.symm)
    · refine Broadcaster.ext ?_ rfl rfl rfl rfl rfl ?_ rfl rfl
      · exact congrArg (Array.push · _) (shutAll_perm hn b)
      · exact congrArg (fun k : Nat => b.active - k + 1) hn.length_eq

theorem Alike.published (h : b.Alike b') (frame : Frame α) :
    (b.published frame).Alike (b'.published frame) := by
  obtain ⟨l, hl, rfl⟩ := h
  unfold Broadcaster.published
  by_cases hc : b.closed = true
  · rw [if_pos hc, if_pos hc]
    exact ⟨l, hl, rfl⟩
  · rw [if_neg hc, if_neg hc]
    refine ⟨l, hl, ?_⟩
    rw [← spread_perm hl b frame]
    rfl

theorem Alike.ended (h : b.Alike b') : b.ended.Alike b'.ended := by
  obtain ⟨l, hl, rfl⟩ := h
  refine ⟨[], .nil, ?_⟩
  exact Broadcaster.ext (shutAll_perm hl b) rfl rfl rfl rfl rfl rfl rfl rfl

end Broadcaster

namespace Station

/-- Two stations that differ in the order of registration at most. -/
structure Alike (s s' : Station α) : Prop where
  broadcaster : s.broadcaster.Alike s'.broadcaster
  handed : s'.handed = s.handed
  read : s'.read = s.read

variable {s s' : Station α}

theorem Alike.arrange (h : s.Alike s') (order order' : VisitOrder) :
    (s.arrange order).Alike (s'.arrange order') := by
  obtain ⟨⟨l, hl, hb⟩, hh, hr⟩ := h
  refine ⟨⟨order'.arrange l, ?_, ?_⟩, hh, hr⟩
  · exact (order'.perm l).trans (hl.trans (order.perm _).symm)
  · unfold Station.arrange
    rw [hb]

theorem Alike.skim (h : s.Alike s') (n k : Nat) : (s.skim n k).Alike (s'.skim n k) := by
  obtain ⟨⟨l, hl, hb⟩, hh, hr⟩ := h
  refine ⟨⟨l, hl, ?_⟩, hh, ?_⟩
  · unfold Station.skim
    rw [hb]
    rfl
  · unfold Station.skim
    rw [hb]
    show (fun m => if m = n then s'.read m ++ _ else s'.read m) = _
    rw [hr]
    rfl

variable [Scalar α]

theorem Alike.outcome (h : s.Alike s') (hs : s.broadcaster.Sound) (m : BroadcastMove α) :
    (s.outcome m).Alike (s'.outcome m) := by
  have renumbered (next next' : Handle) (hn : next = next') : { s.broadcaster with nextMarker := next }.Alike
      { s'.broadcaster with nextMarker := next' } := by
    obtain ⟨l, hl, hb⟩ := h.broadcaster
    refine ⟨l, hl, ?_⟩
    rw [hb, hn]
  have hsize : s'.broadcaster.channels = s.broadcaster.channels := by
    obtain ⟨l, hl, hb⟩ := h.broadcaster
    rw [hb]
  cases m with
  | subscribe id size filter =>
    refine ⟨h.broadcaster.joined hs id size.size filter, ?_, h.read⟩
    show s'.handed ++ [s'.broadcaster.channels.size] = s.handed ++ [s.broadcaster.channels.size]
    rw [h.handed, hsize]
  | unsubscribe id => exact ⟨h.broadcaster.left id, h.handed, h.read⟩
  | addMarker =>
    refine ⟨renumbered _ _ ?_, h.handed, h.read⟩
    obtain ⟨l, hl, hb⟩ := h.broadcaster
    rw [hb]
  | render frame => exact ⟨h.broadcaster.published frame, h.handed, h.read⟩
  | clear => exact ⟨(renumbered 0 0 rfl).published Frame.clearing, h.handed, h.read⟩
  | close => exact ⟨h.broadcaster.ended, h.handed, h.read⟩
  | receive n => exact h.skim n 1
  | drain n =>
    have hw : s'.broadcaster.waiting n = s.broadcaster.waiting n := by
      unfold Broadcaster.waiting
      rw [hsize]
    show (s.skim n _).Alike (s'.skim n _)
    rw [hw]
    exact h.skim n _

/-- The same operations lead to the same, whatever the order of the visits. -/
theorem Alike.run (turns : List (Turn α)) : ∀ (others : List (Turn α)) (s s' : Station α),
    turns.map Turn.move = others.map Turn.move → s.broadcaster.Sound → s'.broadcaster.Sound →
      s.Alike s' → (s.run turns).Alike (s'.run others) := by
  induction turns with
  | nil =>
    intro others s s' hm _ _ h
    rw [List.map_eq_nil_iff.1 hm.symm]
    exact h
  | cons t turns ih =>
    intro others s s' hm hs hs' h
    obtain ⟨t', others, rfl, ht, hrest⟩ := List.map_eq_cons_iff.1 hm.symm
    have hstep : (s.step t).2.Alike (s'.step t').2 := by
      rw [step_eq hs, step_eq hs', ht]
      exact (h.arrange t.order t'.order).outcome (sound_arrange hs t.order) t.move
    exact ih others _ _ hrest.symm (sound_step hs t) (sound_step hs' t') hstep

end Station

end BlochSphere
