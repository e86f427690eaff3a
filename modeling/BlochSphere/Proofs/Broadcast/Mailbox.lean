/-
Every subscription is a bounded queue of its own. A mailbox is such a queue on its own: it knows the
frames that are published, what its holder reads and when it is closed, and nothing of other
subscribers. Whatever else is done with a broadcaster, a channel it handed out holds, and has given
its reader, what the mailbox would.
-/
import BlochSphere.Proofs.Broadcast.Station

namespace BlochSphere

variable {α : Type}

/-- What a mailbox meets: a frame is published, the next frame or all that wait are read, or nothing
more is to go in. -/
inductive MailEvent (α : Type) where
  | publish (frame : Frame α)
  | receive
  | drain
  | close

/-- A queue for at most `capacity` frames of those that pass the filter. -/
structure Mailbox (α : Type) where
  capacity : Nat
  filter : Option (Frame α → Bool)
  read : List (Frame α)
  waiting : List (Frame α)
  isOpen : Bool

namespace Mailbox

def new (capacity : Nat) (filter : Option (Frame α → Bool)) (isOpen : Bool) : Mailbox α :=
  ⟨capacity, filter, [], [], isOpen⟩

/-- A frame that is published is the last to wait if the filter lets it pass and fewer than `capacity`
frames wait; otherwise it is skipped. -/
def step (q : Mailbox α) : MailEvent α → Mailbox α
  | .publish frame =>
    if q.isOpen && passes q.filter frame && q.waiting.length < q.capacity then
      { q with waiting := q.waiting ++ [frame] }
    else q
  | .receive => { q with read := q.read ++ q.waiting.take 1, waiting := q.waiting.drop 1 }
  | .drain => { q with read := q.read ++ q.waiting, waiting := [] }
  | .close => { q with isOpen := false }

def run (q : Mailbox α) (events : List (MailEvent α)) : Mailbox α := events.foldl step q

/-- Publishing a frame reads nothing and closes nothing. -/
theorem publish_kept (q : Mailbox α) (frame : Frame α) :
    (q.step (.publish frame)).read = q.read ∧ (q.step (.publish frame)).isOpen = q.isOpen := by
  unfold step
  dsimp only
  split
  · exact ⟨rfl, rfl⟩
  · exact ⟨rfl, rfl⟩

/-- Closing a mailbox that is closed changes nothing. -/
theorem close_of_closed {q : Mailbox α} (h : q.isOpen = false) : q.step .close = q := by
  unfold step
  rw [← h]

end Mailbox

/-- What an operation is to the subscription of a name on channel `n`. Most of what others do is
nothing to it. -/
def BroadcastMove.seenBy [Scalar α] (id : String) (n : Nat) : BroadcastMove α → Option (MailEvent α)
  | .subscribe other _ _ => if other = id then some .close else none
  | .unsubscribe other => if other = id then some .close else none
  | .addMarker => none
  | .render frame => some (.publish frame)
  | .clear => some (.publish Frame.clearing)
  | .close => some .close
  | .receive m => if m = n then some .receive else none
  | .drain m => if m = n then some .drain else none

/-- What a run is to the subscription of a name on channel `n`. -/
def Turn.seenBy [Scalar α] (id : String) (n : Nat) (turns : List (Turn α)) : List (MailEvent α) :=
  turns.filterMap (·.move.seenBy id n)

theorem Mailbox.run_seenBy_cons [Scalar α] (id : String) (n : Nat) (t : Turn α) (turns : List (Turn α))
    (q : Mailbox α) : q.run (Turn.seenBy id n (t :: turns)) =
      ((t.move.seenBy id n).elim q q.step).run (Turn.seenBy id n turns) := by
  unfold Turn.seenBy
  rw [List.filterMap_cons]
  cases t.move.seenBy id n <;> rfl

/-! ## One channel among others -/

namespace Broadcaster

/-- Channel `n` of a name is as the mailbox says. -/
structure Serves (b : Broadcaster α) (id : String) (n : Nat) (q : Mailbox α) : Prop where
  channel : ∃ c, b.channels[n]? = some c ∧ c.buffer = q.waiting ∧ c.isOpen = q.isOpen ∧
    (c.isOpen = true → c.capacity = q.capacity)
  registered : q.isOpen = true → ⟨id, n⟩ ∈ b.subscribers ∧ b.filters.lookup id = q.filter

variable {b : Broadcaster α} {id : String} {n : Nat} {q : Mailbox α}

theorem Serves.perm (h : b.Serves id n q) {subscribers : List Subscriber}
    (hp : subscribers.Perm b.subscribers) : { b with subscribers := subscribers }.Serves id n q := by
  refine ⟨h.channel, fun ho => ?_⟩
  obtain ⟨hm, hf⟩ := h.registered ho
  exact ⟨hp.mem_iff.2 hm, hf⟩

/-- The only subscriber that can have the channel is the one that the mailbox belongs to, and only while it
is open. -/
theorem Serves.any_eq (h : b.Serves id n q) (hs : b.Sound) (p : Subscriber → Bool) :
    b.subscribers.any (fun s => s.channel == n && p s) = (q.isOpen && p ⟨id, n⟩) := by
  rw [Bool.eq_iff_iff, List.any_eq_true, Bool.and_eq_true]
  constructor
  · rintro ⟨s, hm, hp⟩
    rw [Bool.and_eq_true, beq_iff_eq] at hp
    obtain ⟨hn, hp⟩ := hp
    obtain ⟨c, hc, _, ho, _⟩ := h.channel
    obtain ⟨c', hc', ho'⟩ := hs.opened hm
    rw [hn, hc] at hc'
    cases hc'
    have hopen : q.isOpen = true := ho.symm.trans ho'
    have howner := List.inj_on_of_nodup_map hs.registered hm (h.registered hopen).1 hn
    exact ⟨hopen, howner ▸ hp⟩
  · rintro ⟨hopen, hp⟩
    exact ⟨_, (h.registered hopen).1, by simp [hp]⟩

/-- Closing the channels of some subscribers closes this one if its subscriber is among them. -/
theorem Serves.shutAll (h : b.Serves id n q) (hs : b.Sound) (p : Subscriber → Bool) :
    ∃ c, (b.shutAll (b.subscribers.filter p))[n]? = some c ∧ c.buffer = q.waiting ∧
      c.isOpen = (q.isOpen && !p ⟨id, n⟩) ∧ (c.isOpen = true → c.capacity = q.capacity) := by
  obtain ⟨c, hc, hb, ho, hcap⟩ := h.channel
  have hany : (b.subscribers.filter p).any (·.channel == n) = (q.isOpen && p ⟨id, n⟩) := by
    rw [List.any_filter, ← h.any_eq hs p]
    simp only [Bool.and_comm]
  rw [getElem?_shutAll, hc, Option.map_some, hany]
  cases hopen : q.isOpen with
  | false => exact ⟨c, rfl, hb, ho.trans hopen, hcap⟩
  | true =>
    cases p ⟨id, n⟩ with
    | false => exact ⟨c, rfl, hb, ho.trans hopen, hcap⟩
    | true => exact ⟨c.shut, rfl, hb, rfl, nofun⟩

theorem Serves.left (h : b.Serves id n q) (hs : b.Sound) (other : String) :
    (b.left other).Serves id n (if other = id then q.step .close else q) := by
  obtain ⟨c, hc, hb, ho, hcap⟩ := h.shutAll hs (·.id == other)
  by_cases he : other = id
  · rw [if_pos he]
    refine ⟨⟨c, hc, hb, ?_, hcap⟩, nofun⟩
    rw [ho, he, beq_self_eq_true, Bool.not_true, Bool.and_false]
    rfl
  · rw [if_neg he]
    rw [beq_eq_false_iff_ne.2 (Ne.symm he), Bool.not_false, Bool.and_true] at ho
    refine ⟨⟨c, hc, hb, ho, hcap⟩, fun hopen => ?_⟩
    obtain ⟨hm, hf⟩ := h.registered hopen
    refine ⟨List.mem_filter.2 ⟨hm, bne_iff_ne.2 (Ne.symm he)⟩, ?_⟩
    show (unfilter b.filters other).lookup id = q.filter
    rw [lookup_unfilter, if_neg (Ne.symm he), hf]

/-- A new channel leaves the others as they are. -/
theorem Serves.getElem?_push (h : b.Serves id n q) (c : Channel α) :
    (b.channels.push c)[n]? = b.channels[n]? := by
  obtain ⟨c', hc', _⟩ := h.channel
  have hn : n ≠ b.channels.size := by
    rintro rfl
    simp at hc'
  rw [Array.getElem?_push, if_neg hn]

theorem Serves.enrolled (h : b.Serves id n q) {other : String} (hid : other ∉ b.ids) (size : Nat)
    (filter : Option (Frame α → Bool)) : (b.enrolled other size filter).Serves id n q := by
  refine ⟨?_, fun hopen => ?_⟩
  · obtain ⟨c, hc, hrest⟩ := h.channel
    exact ⟨c, (h.getElem?_push _).trans hc, hrest⟩
  · obtain ⟨hm, hf⟩ := h.registered hopen
    have hne : id ≠ other := by
      rintro rfl
      exact hid (List.mem_map_of_mem hm)
    refine ⟨List.mem_cons_of_mem _ hm, ?_⟩
    show (refilter b.filters other filter).lookup id = q.filter
    rw [lookup_refilter_ne hne, hf]

theorem Serves.joined (h : b.Serves id n q) (hs : b.Sound) (other : String) (size : Nat)
    (filter : Option (Frame α → Bool)) :
    (b.joined other size filter).Serves id n (if other = id then q.step .close else q) := by
  by_cases hc : b.closed = true
  · have hshut : q.isOpen = false := by
      rw [Bool.eq_false_iff]
      intro hopen
      have hm := (h.registered hopen).1
      rw [hs.closed hc] at hm
      cases hm
    have hsame : (if other = id then q.step .close else q) = q := by
      rw [Mailbox.close_of_closed hshut, ite_self]
    rw [Broadcaster.joined, if_pos hc, hsame]
    obtain ⟨c, hc, hrest⟩ := h.channel
    exact ⟨⟨c, (h.getElem?_push _).trans hc, hrest⟩, h.registered⟩
  · rw [Broadcaster.joined, if_neg hc]
    refine ((h.left hs other).enrolled (notMem_left_ids b other) size filter).perm ?_
    exact hs.register_left other

theorem Serves.published (h : b.Serves id n q) (hs : b.Sound) (frame : Frame α) :
    (b.published frame).Serves id n (q.step (.publish frame)) := by
  obtain ⟨c, hc, hb, ho, hcap⟩ := h.channel
  have hany := h.any_eq hs (b.accepts ·.id frame)
  cases hopen : q.isOpen with
  | false =>
    have hq : q.step (.publish frame) = q := by simp [Mailbox.step, hopen]
    rw [hq]
    unfold Broadcaster.published
    split
    · exact h
    · refine ⟨⟨c, ?_, hb, ho, hcap⟩, h.registered⟩
      refine (getElem?_spread b frame b.subscribers n).trans ?_
      rw [hc, hany, hopen]
      rfl
  | true =>
    obtain ⟨hm, hf⟩ := h.registered hopen
    have hcl : ¬ b.closed = true := by
      intro hcl
      rw [hs.closed hcl] at hm
      cases hm
    have hcap := hcap (ho.trans hopen)
    have hget := getElem?_spread b frame b.subscribers n
    rw [hc, hany, hopen, Bool.true_and, accepts, hf, Option.map_some] at hget
    rw [Broadcaster.published, if_neg hcl]
    by_cases hp : passes q.filter frame = true ∧ q.waiting.length < q.capacity
    · have hq : q.step (.publish frame) = { q with waiting := q.waiting ++ [frame] } := by
        simp [Mailbox.step, hopen, hp]
      have hput : c.put frame = { c with buffer := c.buffer ++ [frame] } := by
        refine if_pos ?_
        rw [hb, hcap]
        exact hp.2
      rw [hq]
      rw [if_pos hp.1, hput, hb] at hget
      exact ⟨⟨_, hget, rfl, ho, fun _ => hcap⟩, fun _ => ⟨hm, hf⟩⟩
    · have hq : q.step (.publish frame) = q := by simp [Mailbox.step, hopen, hp]
      have hput : (if passes q.filter frame = true then c.put frame else c) = c := by
        split
        · rename_i ha
          refine if_neg ?_
          rw [hb, hcap]
          exact fun hl => hp ⟨ha, hl⟩
        · rfl
      rw [hq]
      rw [hput] at hget
      exact ⟨⟨c, hget, hb, ho, fun _ => hcap⟩, fun _ => ⟨hm, hf⟩⟩

theorem Serves.ended (h : b.Serves id n q) (hs : b.Sound) : b.ended.Serves id n (q.step .close) := by
  obtain ⟨c, hc, hb, ho, hcap⟩ := h.shutAll hs fun _ => true
  rw [List.filter_true] at hc
  refine ⟨⟨c, hc, hb, ?_, hcap⟩, nofun⟩
  rw [ho, Bool.not_true, Bool.and_false]
  rfl

end Broadcaster

/-! ## Runs -/

namespace Station

/-- Channel `n` of a name holds, and has given its reader, what the mailbox says. -/
structure Follows (s : Station α) (id : String) (n : Nat) (q : Mailbox α) : Prop where
  serves : s.broadcaster.Serves id n q
  read : s.read n = q.read

variable {s : Station α} {id : String} {n : Nat} {q : Mailbox α}

theorem Follows.arrange (h : s.Follows id n q) (order : VisitOrder) : (s.arrange order).Follows id n q :=
  ⟨h.serves.perm (order.perm _), h.read⟩

theorem Follows.waiting (h : s.Follows id n q) : s.broadcaster.waiting n = q.waiting := by
  obtain ⟨c, hc, hb, _⟩ := h.serves.channel
  unfold Broadcaster.waiting
  rw [hc]
  exact hb

theorem Follows.drain (h : s.Follows id n q) : (s.broadcaster.drain n).1 = (q.waiting, !q.isOpen) := by
  obtain ⟨c, hc, hb, ho, _⟩ := h.serves.channel
  simp only [Broadcaster.drain, hc, hb, ho]

theorem Follows.skim (h : s.Follows id n q) (m k : Nat) : (s.skim m k).Follows id n (if m = n then
    { q with read := q.read ++ q.waiting.take k, waiting := q.waiting.drop k } else q) := by
  obtain ⟨c, hc, hb, ho, hcap⟩ := h.serves.channel
  have hget : (s.skim m k).broadcaster.channels[n]? =
      some (if m = n then { c with buffer := c.buffer.drop k } else c) := by
    show (s.broadcaster.channels.modify m _)[n]? = _
    rw [Array.getElem?_modify, hc]
    split <;> rfl
  have hread : (s.skim m k).read n =
      if m = n then q.read ++ (s.broadcaster.waiting m).take k else q.read := by
    show (if n = m then s.read n ++ _ else s.read n) = _
    rw [h.read]
    simp only [eq_comm]
  by_cases hm : m = n
  · subst hm
    rw [if_pos rfl] at hget hread ⊢
    refine ⟨⟨⟨_, hget, ?_, ho, hcap⟩, h.serves.registered⟩, ?_⟩
    · rw [hb]
    · rw [hread, h.waiting]
  · rw [if_neg hm] at hget hread ⊢
    exact ⟨⟨⟨_, hget, hb, ho, hcap⟩, h.serves.registered⟩, hread⟩

variable [Scalar α]

/-- Every operation is to the channel what it is to the mailbox. -/
theorem Follows.outcome (h : s.Follows id n q) (hs : s.broadcaster.Sound) (m : BroadcastMove α) :
    (s.outcome m).Follows id n ((m.seenBy id n).elim q q.step) := by
  have renumbered (next : Handle) : { s.broadcaster with nextMarker := next }.Serves id n q :=
    ⟨h.serves.channel, h.serves.registered⟩
  have hends (other : String) : (if other = id then some MailEvent.close else none).elim q q.step =
      if other = id then q.step .close else q := by
    split <;> rfl
  have hreads (m : Nat) (e : MailEvent α) : (if m = n then some e else none).elim q q.step =
      if m = n then q.step e else q := by
    split <;> rfl
  cases m with
  | subscribe other size filter =>
    unfold BroadcastMove.seenBy
    rw [hends other]
    refine ⟨h.serves.joined hs other size.size filter, ?_⟩
    split
    · exact h.read
    · exact h.read
  | unsubscribe other =>
    unfold BroadcastMove.seenBy
    rw [hends other]
    refine ⟨h.serves.left hs other, ?_⟩
    split
    · exact h.read
    · exact h.read
  | addMarker => exact ⟨renumbered _, h.read⟩
  | render frame =>
    exact ⟨h.serves.published hs frame, h.read.trans (q.publish_kept frame).1.symm⟩
  | clear =>
    exact ⟨(renumbered 0).published (hs.renumbered 0) Frame.clearing,
      h.read.trans (q.publish_kept Frame.clearing).1.symm⟩
  | close => exact ⟨h.serves.ended hs, h.read⟩
  | receive m =>
    unfold BroadcastMove.seenBy
    rw [hreads]
    exact h.skim m 1
  | drain m =>
    unfold BroadcastMove.seenBy
    rw [hreads]
    have hd := h.skim m (s.broadcaster.waiting m).length
    by_cases hm : m = n
    · subst hm
      rw [if_pos rfl, h.waiting, List.take_length, List.drop_length] at hd
      rw [if_pos rfl]
      show (s.skim m (s.broadcaster.waiting m).length).Follows id m _
      rw [h.waiting]
      exact hd
    · rw [if_neg hm] at hd ⊢
      exact hd

theorem Follows.run (turns : List (Turn α)) : ∀ (s : Station α) (q : Mailbox α),
    s.broadcaster.Sound → s.Follows id n q →
      (s.run turns).Follows id n (q.run (Turn.seenBy id n turns)) := by
  induction turns with
  | nil => exact fun s q _ h => h
  | cons t turns ih =>
    intro s q hs h
    have hnext : (s.step t).2.Follows id n ((t.move.seenBy id n).elim q q.step) := by
      rw [step_eq hs t]
      exact (h.arrange t.order).outcome (sound_arrange hs t.order) t.move
    rw [Mailbox.run_seenBy_cons]
    exact ih _ _ (sound_step hs t) hnext

/-! ## Subscribing -/

/-- A subscription begins as an empty mailbox. -/
theorem Follows.subscribed (hs : s.broadcaster.Sound) (hn : s.Numbered) (id : String) (size : BufferSize)
    (filter : Option (Frame α → Bool)) :
    (s.outcome (.subscribe id size filter)).Follows id s.broadcaster.channels.size
      (Mailbox.new size.size filter !s.broadcaster.closed) := by
  refine ⟨?_, hn.read _ (Nat.le_refl _)⟩
  show (s.broadcaster.joined id size.size filter).Serves ..
  unfold Broadcaster.joined
  cases hc : s.broadcaster.closed with
  | true =>
    refine ⟨⟨⟨0, [], false⟩, ?_, rfl, rfl, nofun⟩, nofun⟩
    simp
  | false =>
    refine ⟨⟨⟨size.size, [], true⟩, ?_, rfl, rfl, fun _ => rfl⟩, fun _ => ⟨?_, ?_⟩⟩
    · show ((s.broadcaster.shutAll _).push _)[s.broadcaster.channels.size]? = _
      rw [Array.getElem?_push, if_pos (s.broadcaster.shutAll_size _).symm]
    · exact (Broadcaster.register_perm hs.ids _).mem_iff.2 List.mem_cons_self
    · exact Broadcaster.lookup_refilter ..

/-- A subscription follows its mailbox from its first moment on. -/
theorem follows_run (before after : List (Turn α)) (order : VisitOrder) (id : String) (size : BufferSize)
    (filter : Option (Frame α → Bool)) :
    let n := ((new : Station α).run before).broadcaster.channels.size
    ((new : Station α).run (before ++ ⟨.subscribe id size filter, order⟩ :: after)).Follows id n
      ((Mailbox.new size.size filter (!before.any (·.move.closes))).run (Turn.seenBy id n after)) := by
  intro n
  have hs : ((new : Station α).run before).broadcaster.Sound := sound_run before .new
  have hn := numbered_run (α := α) before
  have hclosed : ((new : Station α).run before).broadcaster.closed = before.any (·.move.closes) :=
    closed_run before new .new
  rw [run_append, ← hclosed]
  refine Follows.run after _ _ (sound_step hs _) ?_
  show (((new : Station α).run before).step _).2.Follows ..
  rw [step_eq hs]
  exact Follows.subscribed (sound_arrange hs order) ⟨hn.handed, hn.read⟩ id size filter

/-- Every subscription is a queue of its own. What its holder read and can still read, also after it was
closed, is what went into the mailbox, and depends on nothing but what the subscription sees: not on who
else subscribes, leaves or reads, and not on the order of the visits. -/
theorem subscription_is_its_own_queue (before after : List (Turn α)) (order : VisitOrder) (id : String)
    (size : BufferSize) (filter : Option (Frame α → Bool)) :
    let n := ((new : Station α).run before).broadcaster.channels.size
    let s := (new : Station α).run (before ++ ⟨.subscribe id size filter, order⟩ :: after)
    let q := (Mailbox.new size.size filter (!before.any (·.move.closes))).run (Turn.seenBy id n after)
    (∃ s', ((new : Station α).run before).step ⟨.subscribe id size filter, order⟩ = (.ok (), s') ∧
      s'.handed = ((new : Station α).run before).handed ++ [n]) ∧
    s.read n = q.read ∧ (s.broadcaster.drain n).1 = (q.waiting, !q.isOpen) ∧
    ∀ (before' after' : List (Turn α)) (order' : VisitOrder),
      before'.any (·.move.closes) = before.any (·.move.closes) →
      let n' := ((new : Station α).run before').broadcaster.channels.size
      let s' := (new : Station α).run (before' ++ ⟨.subscribe id size filter, order'⟩ :: after')
      Turn.seenBy id n' after' = Turn.seenBy id n after →
        s'.read n' = s.read n ∧ (s'.broadcaster.drain n').1 = (s.broadcaster.drain n).1 := by
  intro n s q
  have h : s.Follows id n q := follows_run before after order id size filter
  refine ⟨⟨_, step_eq (sound_run before .new) _, rfl⟩, h.read, h.drain, ?_⟩
  intro before' after' order' hcloses n' s' hseen
  have h' : s'.Follows id n' _ := follows_run before' after' order' id size filter
  rw [hcloses, hseen] at h'
  exact ⟨h'.read.trans h.read.symm, h'.drain.trans h.drain.symm⟩

/-- The buffer of `a`, who wants completions only, has room for one frame. The second frame fills it, the
third finds it full, the fourth comes after `a` read and the last after `a` left. Without `b`, whose channel
came first, `a` gets the same. -/
theorem subscription_is_its_own_queue_beside_another :
    let one : BufferSize := ⟨1, by decide⟩
    let shown (seq : UInt64) (complete : Bool) : Turn Float :=
      ⟨.render (Frame.bare ⟨seq, ⟨0⟩⟩ 0 complete), .latest⟩
    let a : Turn Float := ⟨.subscribe "a" one (some completedOnly), .registration⟩
    let b : Turn Float := ⟨.subscribe "b" one none, .registration⟩
    let after : List (Turn Float) := [shown 1 false, shown 2 true, ⟨.drain 0, .latest⟩, b, shown 3 true,
      ⟨.receive 1, .registration⟩, shown 4 true, ⟨.unsubscribe "a", .latest⟩, shown 5 true]
    let alone : List (Turn Float) := [shown 1 false, shown 2 true, shown 3 true,
      ⟨.receive 0, .registration⟩, shown 4 true, ⟨.unsubscribe "a", .latest⟩, shown 5 true]
    let s := (new : Station Float).run ([b] ++ a :: after)
    let s' := (new : Station Float).run ([] ++ a :: alone)
    ((s.read 1).map (·.gate.seq), (s.broadcaster.waiting 1).map (·.gate.seq)) = ([2], [4]) ∧
      Turn.seenBy "a" 0 alone = Turn.seenBy "a" 1 after ∧
      s'.read 0 = s.read 1 ∧ (s'.broadcaster.drain 0).1 = (s.broadcaster.drain 1).1 := by
  intro one shown a b after alone s s'
  have hn : ((new : Station Float).run [b]).broadcaster.channels.size = 1 := by decide +kernel
  have hn' : ((new : Station Float).run []).broadcaster.channels.size = 0 := rfl
  obtain ⟨-, -, -, h⟩ := subscription_is_its_own_queue [b] after .registration "a" one (some completedOnly)
  specialize h [] alone .registration rfl
  simp only [hn, hn'] at h
  refine ⟨by decide +kernel, rfl, ?_⟩
  simp only [s, s', a]
  exact h rfl

end Station

end BlochSphere
