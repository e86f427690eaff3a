/-
A canvas that follows an animation through a broadcaster. Frames are sent while the canvas is busy, and
those that find its buffer full are lost; the canvas receives and takes in the others in their order,
at any time later. As long as no clearing is lost, every point of the trail that is drawn is where
its marker was placed; if nothing is lost the table of the canvas is the trail of its last frame.
-/
import BlochSphere.Proofs.Animation.Callback
import BlochSphere.Proofs.Broadcast
import BlochSphere.Proofs.Canvas

namespace BlochSphere

variable {α : Type}

/-- What can happen to a feed: something in the animation, or the canvas receives the next frame that
waits for it, or takes in the next frame that it has received. -/
inductive FeedMove where
  | animate (m : Move)
  | receive
  | apply
  deriving DecidableEq

/-- An animation, the subscription of a canvas to it, the frames that the canvas has received and not
taken in, and those that it has taken in. -/
structure Feed (α : Type) where
  stage : Stage (Broadcaster α) α
  subscription : Subscription α
  hand : List (Frame α)
  applied : List (Frame α)

namespace Feed

def broadcaster (f : Feed α) : Broadcaster α := f.stage.animator.renderer

/-- The canvas as it is now. -/
def canvas (f : Feed α) : Canvas α := Canvas.after f.applied

/-- The frames that wait to be received. -/
def waiting (f : Feed α) : List (Frame α) := f.broadcaster.waiting f.subscription.channel

/-- All frames that were not lost, in the order in which they were sent. -/
def delivered (f : Feed α) : List (Frame α) := f.applied ++ f.hand ++ f.waiting

/-- The stage with another broadcaster. -/
def withBroadcaster (s : Stage (Broadcaster α) α) (b : Broadcaster α) : Stage (Broadcaster α) α :=
  { s with animator := { s.animator with renderer := b } }

/-- A new canvas subscribes to an animation. -/
def subscribe (s : Stage (Broadcaster α) α) (id : String) (size : Int)
    (filter : Option (Frame α → Bool)) : Except Fault (Feed α) :=
  match s.animator.renderer.subscribe id size filter with
  | (.error fault, _) => .error fault
  | (.ok n, b) => .ok ⟨withBroadcaster s b, ⟨id, n, filter⟩, [], []⟩

def receive (f : Feed α) : Feed α :=
  match f.broadcaster.receive f.subscription.channel with
  | (none, _) => f
  | (some frame, b) => { f with stage := withBroadcaster f.stage b, hand := f.hand ++ [frame] }

def apply (f : Feed α) : Feed α :=
  match f.hand with
  | [] => f
  | frame :: rest => { f with hand := rest, applied := f.applied ++ [frame] }

/-! ## What is sent and what arrives -/

/-- `published` are the frames sent since the canvas subscribed, when the trail was `start`. -/
structure Faithful (start : List (Marker α)) (published : List (Frame α)) (f : Feed α) : Prop where
  tuned : f.broadcaster.Tuned f.subscription
  counted : f.stage.animator.Counted
  followed : f.stage.animator.Followed start published
  frames : ∀ frame ∈ published, frame.cleared = false → Marker.Counted frame.markers
  delivered : f.delivered.Sublist published
  lossless : f.subscription.filter = none → f.broadcaster.dropped = 0 → f.delivered = published

variable {start : List (Marker α)} {published : List (Frame α)} {f : Feed α}

/-- One more frame is sent, after the numbering of markers went on or began anew. -/
theorem Faithful.send (h : f.Faithful start published) {s : Stage (Broadcaster α) α} {frame : Frame α}
    {next : Handle} {result : Except Fault Unit} {b : Broadcaster α}
    (hsend : { f.broadcaster with nextMarker := next }.send frame = (result, b))
    (hb : s.animator.renderer = b) (hcounted : Marker.Counted s.animator.markers)
    (hnext : next = s.animator.markers.length)
    (hfollowed : s.animator.Followed start (published ++ [frame]))
    (hframe : frame.cleared = false → Marker.Counted frame.markers) :
    { f with stage := s }.Faithful start (published ++ [frame]) := by
  have htuned : { f.broadcaster with nextMarker := next }.Tuned f.subscription :=
    ⟨h.tuned.running, h.tuned.subscribers, h.tuned.filter, h.tuned.channel⟩
  obtain ⟨b', hb', ht, hn, hcases⟩ := htuned.send frame
  obtain rfl : b = b' := by
    rw [hsend] at hb'
    exact congrArg Prod.snd hb'
  have hbr : { f with stage := s }.broadcaster = b := hb
  have hframes : ∀ g ∈ published ++ [frame], g.cleared = false → Marker.Counted g.markers := by
    intro g hg hc
    rcases List.mem_append.1 hg with hg | hg
    · exact h.frames g hg hc
    · rw [List.mem_singleton.1 hg] at hc ⊢
      exact hframe hc
  have hdelivered (waiting : List (Frame α)) (hw : b.waiting f.subscription.channel = waiting) :
      { f with stage := s }.delivered = f.applied ++ f.hand ++ waiting := by
    unfold Feed.delivered Feed.waiting
    rw [hbr]
    exact congrArg _ hw
  refine ⟨by rw [hbr]; exact ht, ⟨hcounted, ?_⟩, hfollowed, hframes, ?_, ?_⟩
  · rw [hb, hn]
    exact hnext
  · rcases hcases with ⟨hw, _⟩ | ⟨hw, _⟩
    · rw [hdelivered _ hw, ← List.append_assoc]
      exact h.delivered.append (List.Sublist.refl _)
    · rw [hdelivered _ hw]
      exact h.delivered.trans (List.sublist_append_left _ _)
  · intro hfilter hdropped
    rw [hbr] at hdropped
    -- without a filter a lost frame would have been counted
    rcases hcases with ⟨hw, hd⟩ | ⟨_, hd⟩
    · rw [hdelivered _ hw, ← List.append_assoc, ← h.lossless hfilter (hd.symm.trans hdropped)]
      rfl
    · rw [hd hfilter] at hdropped
      cases hdropped

theorem Faithful.of_same (h : f.Faithful start published) {s : Stage (Broadcaster α) α}
    (ht : s.animator.trail = f.stage.animator.trail)
    (hr : s.animator.renderer = f.stage.animator.renderer) :
    { f with stage := s }.Faithful start published := by
  have hb : { f with stage := s }.broadcaster = f.broadcaster := hr
  have hd : { f with stage := s }.delivered = f.delivered := by
    unfold Feed.delivered Feed.waiting
    rw [hb]
  have hm : s.animator.markers = f.stage.animator.markers := congrArg (List.map TrailPoint.placed) ht
  refine ⟨by rw [hb]; exact h.tuned, ⟨?_, ?_⟩, h.followed.of_trail ht, h.frames, ?_, ?_⟩
  · rw [hm]
    exact h.counted.markers
  · rw [hr, hm]
    exact h.counted.next
  · rw [hd]
    exact h.delivered
  · rw [hd, hb]
    exact h.lossless

theorem Faithful.receive (h : f.Faithful start published) : f.receive.Faithful start published := by
  unfold Feed.receive
  cases hw : f.waiting with
  | nil =>
    rw [Broadcaster.receive_nil hw]
    exact h
  | cons frame rest =>
    obtain ⟨b, hr, hrest, hb⟩ := Broadcaster.receive_cons hw
    rw [hr]
    have hd : { f with stage := withBroadcaster f.stage b, hand := f.hand ++ [frame] }.delivered =
        f.delivered := by
      show f.applied ++ (f.hand ++ [frame]) ++ b.waiting f.subscription.channel =
        f.applied ++ f.hand ++ f.waiting
      rw [hrest, hw]
      simp
    refine ⟨?_, ⟨h.counted.markers, ?_⟩, h.followed.of_trail rfl, h.frames, ?_, ?_⟩
    · show b.Tuned f.subscription
      rw [hb]
      exact h.tuned.receive rest
    · show b.nextMarker = _
      rw [hb]
      exact h.counted.next
    · rw [hd]
      exact h.delivered
    · intro hfilter hdropped
      rw [hd]
      refine h.lossless hfilter ?_
      rw [← hdropped]
      show _ = b.dropped
      rw [hb]

theorem Faithful.apply (h : f.Faithful start published) : f.apply.Faithful start published := by
  unfold Feed.apply
  split
  · exact h
  · rename_i frame rest hh
    have hd : { f with hand := rest, applied := f.applied ++ [frame] }.delivered = f.delivered := by
      show f.applied ++ [frame] ++ rest ++ f.waiting = f.applied ++ f.hand ++ f.waiting
      rw [hh]
      simp
    refine ⟨h.tuned, h.counted, h.followed, h.frames, ?_, ?_⟩
    · rw [hd]
      exact h.delivered
    · rw [hd]
      exact h.lossless

/-! ## Runs -/

variable [Scalar α]

def step (f : Feed α) : FeedMove → Feed α
  | .animate m => { f with stage := f.stage.step m }
  | .receive => f.receive
  | .apply => f.apply

def run (f : Feed α) (moves : List FeedMove) : Feed α := moves.foldl step f

theorem run_subscription (moves : List FeedMove) (f : Feed α) :
    (f.run moves).subscription = f.subscription := by
  induction moves generalizing f with
  | nil => rfl
  | cons m moves ih =>
    refine (ih (f.step m)).trans ?_
    cases m with
    | animate m => rfl
    | receive =>
      show f.receive.subscription = _
      unfold receive
      split <;> rfl
    | apply =>
      show f.apply.subscription = _
      unfold apply
      split <;> rfl

/-- Every reset sends one clearing, and nothing else clears. -/
theorem Faithful.animate (h : f.Faithful start published) (m : Move) :
    ∃ sent, { f with stage := f.stage.step m }.Faithful start (published ++ sent) ∧
      sent.countP Frame.cleared = if m = .reset then 1 else 0 := by
  by_cases hm : m = .reset
  · subst hm
    obtain ⟨metrics, hr⟩ := f.stage.animator.reset_snd
    have htrail : (f.stage.step .reset).animator.markers = [] := by
      show f.stage.animator.reset.2.markers = []
      rw [hr]
      rfl
    refine ⟨[Frame.clearing], ?_, rfl⟩
    have hsend : { f.broadcaster with nextMarker := 0 }.send Frame.clearing = f.broadcaster.clear := rfl
    refine h.send hsend ?_ ?_ ?_ h.followed.reset nofun
    · show f.stage.animator.reset.2.renderer = _
      rw [hr]
      rfl
    · rw [htrail]
      rfl
    · rw [htrail]
      rfl
  · rw [if_neg hm]
    rcases f.stage.step_hands hm with ⟨ht, hr⟩ | ⟨active, b, s, result, r, hb, hs, hrender, ht, hr⟩
    · refine ⟨[], ?_, rfl⟩
      rw [List.append_nil]
      exact h.of_same ht hr
    · obtain ⟨hcounted, hnext⟩ := h.counted.shot hb hs
      have hc : s.frame.cleared = false := Animator.shot_cleared hs
      have hmarkers : (f.stage.step m).animator.markers = s.frame.markers :=
        congrArg (List.map TrailPoint.placed) ht
      rw [hnext] at hrender
      refine ⟨[s.frame], ?_, by simp [hc]⟩
      refine h.send hrender hr ?_ ?_ (h.followed.shot hb hs ht) fun _ => hcounted
      · rw [hmarkers]
        exact hcounted
      · rw [hmarkers]

theorem Faithful.run (moves : List FeedMove) : ∀ (f : Feed α) (published : List (Frame α)),
    f.Faithful start published → ∃ sent, (f.run moves).Faithful start (published ++ sent) ∧
      sent.countP Frame.cleared = moves.count (.animate .reset) := by
  induction moves with
  | nil =>
    intro f published h
    exact ⟨[], by rwa [List.append_nil], rfl⟩
  | cons m moves ih =>
    intro f published h
    obtain ⟨sent, hs, hc⟩ : ∃ sent, (f.step m).Faithful start (published ++ sent) ∧
        sent.countP Frame.cleared = if m = .animate .reset then 1 else 0 := by
      cases m with
      | animate m =>
        obtain ⟨sent, hs, hc⟩ := h.animate m
        refine ⟨sent, hs, ?_⟩
        rw [hc]
        simp
      | receive => exact ⟨[], by rw [List.append_nil]; exact h.receive, rfl⟩
      | apply => exact ⟨[], by rw [List.append_nil]; exact h.apply, rfl⟩
    obtain ⟨more, hm, hmc⟩ := ih (f.step m) _ hs
    refine ⟨sent ++ more, by rwa [← List.append_assoc], ?_⟩
    rw [List.countP_append, hc, hmc, List.count_cons]
    simp only [beq_iff_eq]
    omega

/-! ## Subscribing -/

/-- Nobody has subscribed yet. -/
structure Unheard (a : Animator (Broadcaster α) α) : Prop where
  running : a.renderer.closed = false
  subscribers : a.renderer.subscribers = []
  dropped : a.renderer.dropped = 0
  counted : a.Counted

omit [Scalar α] in
theorem send_unheard {b : Broadcaster α} (hr : b.closed = false) (hs : b.subscribers = [])
    (frame : Frame α) : b.send frame = (.ok (), { b with everBroadcast := true }) := by
  simp [Broadcaster.send, hr, hs, Broadcaster.offerAll]

theorem Unheard.step (s : Stage (Broadcaster α) α) (m : Move) (h : Unheard s.animator) :
    Unheard (s.step m).animator := by
  by_cases hm : m = .reset
  · subst hm
    obtain ⟨metrics, hr⟩ := s.animator.reset_snd
    have hb : s.animator.reset.2.renderer =
        { s.animator.renderer with nextMarker := 0, everBroadcast := true } := by
      rw [hr]
      exact congrArg Prod.snd
        (send_unheard (b := { s.animator.renderer with nextMarker := 0 }) h.running h.subscribers _)
    have ht : s.animator.reset.2.markers = [] := by
      rw [hr]
      rfl
    show Unheard s.animator.reset.2
    refine ⟨?_, ?_, ?_, ?_, ?_⟩
    · rw [hb]; exact h.running
    · rw [hb]; exact h.subscribers
    · rw [hb]; exact h.dropped
    · rw [ht]; rfl
    · rw [hb, ht]; rfl
  · rcases s.step_hands hm with ⟨ht, hr⟩ | ⟨active, b, shot, result, r, hb, hs, hrender, ht, hr⟩
    · have hmarkers : (s.step m).animator.markers = s.animator.markers :=
        congrArg (List.map TrailPoint.placed) ht
      refine ⟨?_, ?_, ?_, ?_, ?_⟩
      · rw [hr]; exact h.running
      · rw [hr]; exact h.subscribers
      · rw [hr]; exact h.dropped
      · rw [hmarkers]; exact h.counted.markers
      · rw [hr, hmarkers]; exact h.counted.next
    · obtain ⟨hcounted, hnext⟩ := h.counted.shot hb hs
      have hmarkers : (s.step m).animator.markers = shot.frame.markers :=
        congrArg (List.map TrailPoint.placed) ht
      have hsend : r = { shot.renderer with everBroadcast := true } := by
        have hsend := send_unheard (b := shot.renderer) (by rw [hnext]; exact h.running)
          (by rw [hnext]; exact h.subscribers) shot.frame
        exact (congrArg Prod.snd (hrender.symm.trans hsend) :)
      rw [hnext] at hsend
      refine ⟨?_, ?_, ?_, ?_, ?_⟩
      · rw [hr, hsend]; exact h.running
      · rw [hr, hsend]; exact h.subscribers
      · rw [hr, hsend]; exact h.dropped
      · rw [hmarkers]; exact hcounted
      · rw [hr, hsend, hmarkers]

/-- A canvas that subscribes to an animation knows nothing of the trail there is. -/
theorem Faithful.subscribe {duration : Duration} {resolution now : Int} {before : List Move}
    {id : String} {size : Int} {filter : Option (Frame α → Bool)}
    (h : Feed.subscribe ((Stage.new duration resolution Broadcaster.new now).run before) id size filter =
      .ok f) :
    f.Faithful ((Stage.new duration resolution Broadcaster.new now :
      Stage (Broadcaster α) α).run before).animator.markers [] ∧ f.applied = [] ∧
      f.subscription.filter = filter := by
  have hu := Stage.run_induction Unheard.step before
    (Stage.new duration resolution Broadcaster.new now : Stage (Broadcaster α) α)
    ⟨rfl, rfl, rfl, rfl, rfl⟩
  generalize (Stage.new duration resolution Broadcaster.new now :
    Stage (Broadcaster α) α).run before = s at h hu
  unfold Feed.subscribe at h
  split at h
  · cases h
  · rename_i n b hb
    cases h
    obtain ⟨htuned, hwaiting, hnext, hdropped⟩ := Broadcaster.subscribe_tuned hu.running hu.subscribers hb
    have hd : Feed.delivered ⟨withBroadcaster s b, ⟨id, n, filter⟩, [], []⟩ = [] := hwaiting
    refine ⟨⟨htuned, ⟨hu.counted.markers, ?_⟩, ⟨rfl, .nil _⟩, nofun, ?_, ?_⟩, rfl, rfl⟩
    · exact hnext.trans hu.counted.next
    · rw [hd]
    · rw [hd]
      exact fun _ _ => rfl

/-! ## Drawing -/

omit [Scalar α] in
/-- Of what was sent before the last frame that was taken in, only earlier frames were taken in. -/
theorem Faithful.split (h : f.Faithful start published) {front : List (Frame α)} {frame : Frame α}
    (hf : f.applied = front ++ [frame]) : ∃ early late, published = early ++ frame :: late ∧
      front.Sublist early ∧ (f.hand ++ f.waiting).Sublist late := by
  have hd : f.delivered = front ++ frame :: (f.hand ++ f.waiting) := by
    unfold Feed.delivered
    rw [hf]
    simp
  have hs := h.delivered
  rw [hd, List.append_sublist_iff] at hs
  obtain ⟨early, rest, rfl, hearly, hrest⟩ := hs
  -- between the earlier frames and this one others may have been lost
  obtain ⟨skipped, late, rfl, hmem, hlate⟩ := List.cons_sublist_iff.1 hrest
  obtain ⟨between, after, rfl⟩ := List.append_of_mem hmem
  refine ⟨early ++ between, after ++ late, by simp, ?_, ?_⟩
  · exact hearly.trans (List.sublist_append_left _ _)
  · exact hlate.trans (List.sublist_append_right _ _)

omit [Scalar α] in
/-- Without a clearing lost, what is known from the frames taken in is part of the last one's trail. -/
theorem Faithful.known_sublist (h : f.Faithful start published) {front : List (Frame α)}
    {frame : Frame α} (hf : f.applied = front ++ [frame]) (hshown : frame.cleared = false)
    (hc : f.delivered.countP Frame.cleared = published.countP Frame.cleared) :
    (Frame.known [] f.applied).Sublist frame.markers := by
  obtain ⟨early, late, rfl, hfront, hrest⟩ := h.split hf
  -- neither part of what arrived has more clearings than were sent with it, and the sums are equal
  have hcount : front.countP Frame.cleared = early.countP Frame.cleared := by
    have h1 := hfront.countP_le (p := Frame.cleared)
    have h2 := hrest.countP_le (p := Frame.cleared)
    unfold Feed.delivered at hc
    rw [hf] at hc
    simp only [List.countP_append, List.countP_cons, List.countP_nil] at hc h2
    omega
  have hsofar : early ++ [frame] <+: early ++ frame :: late :=
    ⟨late, by rw [List.append_assoc]; rfl⟩
  rw [hf, h.followed.coherent early frame hsofar hshown]
  refine Frame.known_sublist (hfront.append (List.Sublist.refl _)) (List.nil_sublist _) ?_
  rw [List.countP_append, List.countP_append, hcount]

/-- As long as no clearing was lost, a point of the trail is drawn where its marker was placed,
whatever else was lost. -/
theorem drawn_in_place (duration : Duration) (resolution now : Int) (before : List Move) (id : String)
    (size : Int) (filter : Option (Frame α → Bool)) (feed : Feed α) (moves : List FeedMove)
    (hs : Feed.subscribe ((Stage.new duration resolution Broadcaster.new now).run before) id size filter =
      .ok feed)
    (hc : (feed.run moves).delivered.countP Frame.cleared = moves.count (.animate .reset)) :
    ∀ frame, (feed.run moves).canvas.last = some frame → ∀ t ∈ frame.trail, ∀ p,
      (feed.run moves).canvas.markers.lookup t.marker = some p → p = t.point := by
  intro frame hlast t ht p hp
  obtain ⟨sent, h, hsent⟩ := Faithful.run moves _ _ (Faithful.subscribe hs).1
  rw [List.nil_append] at h
  obtain ⟨front, hf, hshown⟩ := Canvas.after_last hlast
  have hknown := h.known_sublist hf hshown (hc.trans hsent.symm)
  -- the table has the marker from some frame, and the trail has the only marker with that handle
  obtain ⟨m, hm, he⟩ := List.mem_map.1 (Canvas.mem_after (Canvas.lookup_mem hp))
  obtain ⟨hhandle, rfl⟩ := Prod.mk.inj he
  have hframe : frame ∈ sent := by
    obtain ⟨early, late, rfl, _, _⟩ := h.split hf
    simp
  have hcounted := h.frames frame hframe hshown
  have hsame := List.inj_on_of_nodup_map hcounted.nodup (hknown.subset hm) (List.mem_map_of_mem ht) hhandle
  rw [hsame]
  rfl

/-- Two frames are lost, but the clearing between them and the old marker is not. -/
theorem drawn_in_place_beside_lost_frames :
    let moves : List FeedMove := [.animate (.queue .x), .animate (.clock 600000000), .animate .take,
      .animate (.fire 0), .receive, .apply, .animate (.clock 1200000000), .animate .take,
      .animate (.fire 0), .receive, .apply, .animate .reset, .animate (.queue .y), .animate .take,
      .animate (.fire 1), .animate (.clock 1800000000), .animate .take, .animate (.fire 1), .receive,
      .animate (.clock 2300000000), .animate .take, .animate (.fire 1), .apply, .receive, .apply]
    ∃ feed : Feed Float,
      Feed.subscribe ((Stage.new 1000000000 2 Broadcaster.new 0).run []) "canvas" 1 none = .ok feed ∧
      (feed.run moves).broadcaster.dropped = 2 ∧
      (feed.run moves).delivered.countP Frame.cleared = moves.count (.animate .reset) ∧
      (feed.run moves).canvas.markers.map Prod.fst = [1] ∧
      ∀ frame, (feed.run moves).canvas.last = some frame → ∀ t ∈ frame.trail, ∀ p,
        (feed.run moves).canvas.markers.lookup t.marker = some p → p = t.point := by
  intro moves
  refine ⟨_, rfl, by decide +kernel, by decide +kernel, by decide +kernel, ?_⟩
  exact drawn_in_place 1000000000 2 0 [] "canvas" 1 none _ moves rfl (by decide +kernel)

/-- A lost clearing: the buffer is full when the picture is cleared, and again when the first marker of
the next request is told of. The canvas then draws that marker where the old one of its handle was. -/
theorem lost_clearing_misplaces :
    let moves : List FeedMove := [.animate (.queue .x), .animate .take, .animate (.fire 0), .receive, .apply,
      .animate (.clock 600000000), .animate .take, .animate (.fire 0), .receive, .apply,
      .animate .take, .animate (.fire 0), .animate .reset, .animate (.queue .y), .animate .take,
      .animate (.fire 1), .animate (.clock 1200000000), .animate .take, .animate (.fire 1), .receive, .apply,
      .animate .take, .animate (.fire 1), .receive, .apply]
    ∃ feed : Feed Float,
      Feed.subscribe (Stage.new 1000000000 2 Broadcaster.new 0) "canvas" 1 none = .ok feed ∧
      ∃ frame t p, (feed.run moves).canvas.last = some frame ∧ t ∈ frame.trail ∧
        (feed.run moves).canvas.markers.lookup t.marker = some p ∧ p ≠ t.point := by
  intro moves
  refine ⟨_, rfl, ?_⟩
  generalize hf : (Feed.run _ moves : Feed Float) = f
  have hwrong : (f.canvas.last.any fun frame => frame.trail.any fun t =>
      (f.canvas.markers.lookup t.marker).any fun p => p.x.toBits != t.point.x.toBits) = true := by
    rw [← hf]
    decide +kernel
  obtain ⟨frame, hlast, hwrong⟩ := (Option.any_eq_true _ _).1 hwrong
  obtain ⟨t, ht, hwrong⟩ := List.any_eq_true.1 hwrong
  obtain ⟨p, hp, hwrong⟩ := (Option.any_eq_true _ _).1 hwrong
  refine ⟨frame, t, p, hlast, ht, hp, ?_⟩
  rintro rfl
  exact bne_iff_ne.1 hwrong rfl

/-! ## Mirroring -/

omit [Scalar α] in
/-- With nothing lost, what is known with a frame that was taken in is its trail. -/
theorem Faithful.known_eq (h : f.Faithful [] published) (hd : f.delivered = published)
    {front : List (Frame α)} {frame : Frame α} (hf : front ++ [frame] <+: f.applied)
    (hshown : frame.cleared = false) :
    Frame.known [] (front ++ [frame]) = frame.markers ∧ Marker.Counted frame.markers := by
  have hsofar : front ++ [frame] <+: published := by
    rw [← hd]
    unfold Feed.delivered
    rw [List.append_assoc]
    exact hf.trans (List.prefix_append _ _)
  refine ⟨(h.followed.coherent front frame hsofar hshown).symm, h.frames frame ?_ hshown⟩
  exact hsofar.subset (List.mem_append_right _ (List.mem_singleton_self _))

omit [Scalar α] in
/-- With nothing lost, the table is what is known from the frames taken in. -/
theorem Faithful.table (h : f.Faithful [] published) (hd : f.delivered = published) :
    f.canvas.markers = (Frame.known [] f.applied).reverse.map Marker.entry ∧
      ((Frame.known [] f.applied).map Marker.handle).Nodup := by
  constructor
  · apply Canvas.after_markers
    intro front frame hf hshown
    obtain ⟨hk, hc⟩ := h.known_eq hd hf hshown
    rw [hk]
    exact hc.nodup
  · rcases List.eq_nil_or_concat f.applied with hnil | ⟨front, frame, hf⟩
    · rw [hnil]
      exact List.nodup_nil
    · rw [List.concat_eq_append] at hf
      cases hshown : frame.cleared with
      | true =>
        rw [hf, Frame.known_concat, Frame.learn_of_cleared hshown]
        exact List.nodup_nil
      | false =>
        have hsofar : front ++ [frame] <+: f.applied := ⟨[], by rw [hf, List.append_nil]⟩
        obtain ⟨hk, hc⟩ := h.known_eq hd hsofar hshown
        rw [hf, hk]
        exact hc.nodup

omit [Scalar α] in
/-- With nothing lost, the table finds exactly the markers known from the frames taken in. -/
theorem Faithful.lookup (h : f.Faithful [] published) (hd : f.delivered = published)
    {trail : List (TrailPoint α)} (ht : trail.map TrailPoint.placed = Frame.known [] f.applied)
    (handle : Handle) (p : Vec3 α) : f.canvas.markers.lookup handle = some p ↔
      ∃ t ∈ trail, t.marker = handle ∧ t.point = p := by
  obtain ⟨htable, hnodup⟩ := h.table hd
  have hr : ((Frame.known [] f.applied).reverse.map Marker.handle).Nodup := by
    rw [List.map_reverse]
    exact List.nodup_reverse.2 hnodup
  rw [htable, Canvas.lookup_entries hr, List.mem_reverse, ← ht]
  simp [TrailPoint.placed]

/-- Nothing is left to do, and nothing is drawn. -/
structure Blank {ρ : Type} (a : Animator ρ α) : Prop where
  todo : a.todo = []
  trail : a.trail = []

section Blank

variable {ρ : Type} [Renderer ρ α]

/-- Without a new gate nothing gets drawn. -/
theorem Blank.step {s : Stage ρ α} {m : Move} (h : Blank s.animator) (hm : ∀ g, m ≠ .queue g) :
    Blank (s.step m).animator := by
  cases m with
  | queue g => exact absurd rfl (hm g)
  | reset =>
    obtain ⟨metrics, hr⟩ := s.animator.reset_snd
    show Blank s.animator.reset.2
    rw [hr]
    exact ⟨rfl, rfl⟩
  | clock now => exact ⟨h.todo, h.trail⟩
  | take => exact ⟨h.todo, h.trail⟩
  | fire i =>
    show Blank (s.fire i).animator
    rcases s.fire_animator i with he | ⟨generation, he⟩
    · rw [he]
      exact h
    · have hf := s.animator.frame_step generation
      have hsub := hf.todo_subset
      rw [h.todo, List.subset_nil] at hsub
      rw [he]
      refine ⟨hsub, ?_⟩
      rcases hf.hands with ⟨ht, _⟩ | ⟨active, b, _, _, _, hb, _⟩
      · exact ht.trans h.trail
      · -- an active gate would be something to do
        have hb' := Animator.activate_todo hb
        rw [h.todo, Animator.todo, Animator.current_of_active (Animator.activate_active hb)] at hb'
        cases hb'

theorem Blank.run (moves : List Move) (hq : ∀ g, Move.queue g ∉ moves) :
    ∀ s : Stage ρ α, Blank s.animator → Blank (s.run moves).animator := by
  induction moves with
  | nil => exact fun _ h => h
  | cons m moves ih =>
    intro s h
    refine ih (fun g hg => hq g (List.mem_cons_of_mem _ hg)) _ (h.step ?_)
    rintro g rfl
    exact hq g List.mem_cons_self

end Blank

/-- If nothing is lost, the table of the canvas is the trail of the last frame that it took in, and the
trail of the animation once nothing is under way. A clearing empties it. -/
theorem table_mirrors_trail (duration : Duration) (resolution now : Int) (before : List Move)
    (id : String) (size : Int) (feed : Feed α) (moves : List FeedMove)
    (hq : ∀ g, Move.queue g ∉ before)
    (hs : Feed.subscribe ((Stage.new duration resolution Broadcaster.new now).run before) id size none =
      .ok feed)
    (hd : (feed.run moves).broadcaster.dropped = 0) :
    let f := feed.run moves
    (∀ front frame, f.applied = front ++ [frame] → frame.cleared = true →
      f.canvas.markers = [] ∧ f.canvas.last = none) ∧
    (∀ front frame, f.applied = front ++ [frame] → frame.cleared = false →
      f.canvas.last = some frame ∧ f.canvas.markers.length = frame.trail.length ∧
      ∀ handle p, f.canvas.markers.lookup handle = some p ↔
        ∃ t ∈ frame.trail, t.marker = handle ∧ t.point = p) ∧
    (f.hand = [] → f.waiting = [] → ∀ handle p, f.canvas.markers.lookup handle = some p ↔
      ∃ t ∈ f.stage.animator.trail, t.marker = handle ∧ t.point = p) := by
  intro f
  have hblank := Blank.run before hq
    (Stage.new duration resolution Broadcaster.new now : Stage (Broadcaster α) α) ⟨rfl, rfl⟩
  have hstart : ((Stage.new duration resolution Broadcaster.new now :
      Stage (Broadcaster α) α).run before).animator.markers = [] := by
    unfold Animator.markers
    rw [hblank.trail]
    rfl
  obtain ⟨hsub, _, hfilter⟩ := Faithful.subscribe hs
  rw [hstart] at hsub
  obtain ⟨sent, h, _⟩ := Faithful.run moves _ _ hsub
  rw [List.nil_append] at h
  have hall : f.delivered = sent := h.lossless (by rw [run_subscription]; exact hfilter) hd
  refine ⟨?_, ?_, ?_⟩
  · intro front frame hf hcleared
    show (Canvas.after f.applied).markers = [] ∧ (Canvas.after f.applied).last = none
    rw [hf, Canvas.after_concat]
    exact Canvas.apply_of_cleared hcleared _
  · intro front frame hf hshown
    have hknown : Frame.known [] f.applied = frame.markers := by
      have hsofar : front ++ [frame] <+: f.applied := ⟨[], by rw [hf, List.append_nil]⟩
      rw [hf]
      exact (h.known_eq hall hsofar hshown).1
    refine ⟨?_, ?_, h.lookup hall hknown.symm⟩
    · show (Canvas.after f.applied).last = some frame
      rw [hf, Canvas.after_concat]
      exact (Canvas.apply_of_shown hshown _).2
    · rw [(h.table hall).1, hknown]
      simp [Frame.markers]
  · intro hhand hwaiting
    apply h.lookup hall
    have hap : f.applied = sent := by
      rw [← hall]
      unfold Feed.delivered
      rw [hhand, hwaiting, List.append_nil, List.append_nil]
    rw [hap]
    exact h.followed.trail

/-- The canvas lags behind a cleared picture, and then takes in two frames at once. -/
theorem table_mirrors_trail_with_delay :
    let before : List Move := [.clock 5, .reset, .take]
    let moves : List FeedMove := [.animate (.queue .x), .animate (.clock 0), .animate .take,
      .animate (.fire 0), .animate (.clock 600000000), .animate .take, .animate (.fire 0), .receive, .apply,
      .animate .reset, .animate (.queue .y), .animate .take, .animate (.fire 1), .receive, .receive, .apply,
      .animate (.clock 1200000000), .animate .take, .animate (.fire 1), .apply, .receive, .apply, .receive,
      .apply]
    ∃ feed : Feed Float, (∀ g, Move.queue g ∉ before) ∧
      Feed.subscribe ((Stage.new 1000000000 2 Broadcaster.new 0).run before) "canvas" 8 none = .ok feed ∧
      (feed.run moves).broadcaster.dropped = 0 ∧
      (feed.run moves).applied.map Frame.cleared = [false, false, true, false, false] ∧
      (feed.run moves).canvas.markers.map Prod.fst = [0] ∧
      ∀ handle p, (feed.run moves).canvas.markers.lookup handle = some p ↔
        ∃ t ∈ (feed.run moves).stage.animator.trail, t.marker = handle ∧ t.point = p := by
  intro before moves
  have hq : ∀ g, Move.queue g ∉ before := by
    intro g
    cases g <;> decide
  refine ⟨_, hq, rfl, by decide +kernel, by decide +kernel, by decide +kernel, ?_⟩
  refine (table_mirrors_trail 1000000000 2 0 before "canvas" 8 _ moves hq rfl (by decide +kernel)).2.2 ?_ ?_
  · exact List.isEmpty_iff.1 (by decide +kernel)
  · exact List.isEmpty_iff.1 (by decide +kernel)

end Feed

end BlochSphere
