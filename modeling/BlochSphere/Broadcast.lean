/-
A renderer that fans frames out to subscribers. Every subscriber has a channel of its own with a
bounded buffer; a frame that finds the buffer full is dropped for that subscriber and counted, so
that showing a frame never waits.
-/
import BlochSphere.Renderer

namespace BlochSphere

/-- A bounded queue of frames. A closed channel takes no more frames, and those it still holds stay
readable. -/
structure Channel (α : Type) where
  capacity : Nat
  buffer : List (Frame α)
  isOpen : Bool

/-- A registered subscriber: its name and the number of its channel. -/
structure Subscriber where
  id : String
  channel : Nat
  deriving DecidableEq, Repr

/-- Whether a filter, if there is one, lets a frame through. -/
def passes {α : Type} (filter : Option (Frame α → Bool)) (frame : Frame α) : Bool :=
  match filter with
  | some filter => filter frame
  | none => true

/-- Lets through what completes a gate or clears the picture. -/
def completedOnly {α : Type} (frame : Frame α) : Bool := frame.complete || frame.cleared

/-- `channels` are all channels ever made, by their numbers; `filters` says, by name, which frames a
subscriber wants if not all of them; `active` counts the subscribers that have been given a channel
and not yet lost it. `sent` and `dropped` are without a limit of their own: together they are at most the
square of the number of operations, so that 64 bits hold them for three billion operations. -/
structure Broadcaster (α : Type) where
  channels : Array (Channel α)
  subscribers : List Subscriber
  filters : List (String × (Frame α → Bool))
  nextMarker : Handle
  sent : Nat
  dropped : Nat
  active : Int
  everBroadcast : Bool
  closed : Bool

namespace Broadcaster

variable {α : Type}

def new : Broadcaster α := ⟨#[], [], [], 0, 0, 0, 0, false, false⟩

/-- The largest buffer that can be addressed. -/
def maxBuffer : Int := 1851809057306

def find? (b : Broadcaster α) (id : String) : Option Subscriber :=
  b.subscribers.find? (·.id == id)

/-- Whether the subscriber of a name wants a frame. -/
def accepts (b : Broadcaster α) (id : String) (frame : Frame α) : Bool :=
  passes (b.filters.lookup id) frame

/-- Closes a channel, which is a fault when it is closed already. -/
def closeChannel (b : Broadcaster α) (n : Nat) : Except Fault Unit × Broadcaster α :=
  match b.channels[n]? with
  | some channel =>
    if channel.isOpen then
      (.ok (), { b with channels := b.channels.modify n ({ · with isOpen := false }) })
    else (.error .closeOfClosed, b)
  | none => (.ok (), b)

/-- Adds a channel and returns its number. -/
def makeChannel (b : Broadcaster α) (channel : Channel α) : Nat × Broadcaster α :=
  (b.channels.size, { b with channels := b.channels.push channel })

/-- The registered subscribers with `s` in the place of the one of its name, or at the end. -/
def register (subscribers : List Subscriber) (s : Subscriber) : List Subscriber :=
  if subscribers.any (·.id == s.id) then
    subscribers.map fun other => if other.id == s.id then s else other
  else subscribers ++ [s]

/-- The filters without the one of a name. -/
def unfilter (filters : List (String × (Frame α → Bool))) (id : String) :
    List (String × (Frame α → Bool)) :=
  filters.filter (·.1 != id)

/-- The filters with a new one, or none, under a name. -/
def refilter (filters : List (String × (Frame α → Bool))) (id : String) :
    Option (Frame α → Bool) → List (String × (Frame α → Bool))
  | some filter => (id, filter) :: unfilter filters id
  | none => unfilter filters id

/-- Closes the channel that is registered under a name, if any, and counts the subscriber off. The
channel stays registered. -/
def retire (b : Broadcaster α) (id : String) : Except Fault Unit × Broadcaster α :=
  match b.find? id with
  | none => (.ok (), b)
  | some old =>
    match b.closeChannel old.channel with
    | (.error fault, b) => (.error fault, b)
    | (.ok (), b) => (.ok (), { b with active := b.active - 1 })

/-- Gives a subscriber a channel of its own; the one it had under this name is closed. A buffer
size out of range is found only after that. A closed broadcaster hands out closed channels. -/
def subscribe (b : Broadcaster α) (id : String) (size : Int) (filter : Option (Frame α → Bool)) :
    Except Fault Nat × Broadcaster α :=
  if b.closed then
    let (n, b) := b.makeChannel ⟨0, [], false⟩
    (.ok n, b)
  else
    match b.retire id with
    | (.error fault, b) => (.error fault, b)
    | (.ok (), b) =>
      if size < 0 || maxBuffer < size then (.error .bufferOutOfRange, b)
      else
        let (n, b) := b.makeChannel ⟨size.toNat, [], true⟩
        (.ok n, { b with
          subscribers := register b.subscribers ⟨id, n⟩
          filters := refilter b.filters id filter
          active := b.active + 1 })

/-- Closes a subscriber's channel and forgets it. -/
def unsubscribe (b : Broadcaster α) (id : String) : Except Fault Unit × Broadcaster α :=
  match b.find? id with
  | none => (.ok (), b)
  | some s =>
    match b.closeChannel s.channel with
    | (.error fault, b) => (.error fault, b)
    | (.ok (), b) =>
      (.ok (), { b with
        subscribers := b.subscribers.filter (·.id != id)
        filters := unfilter b.filters id
        active := b.active - 1 })

/-- Offers a frame to one subscriber. It is taken only into a free place of the buffer: nobody waits
to receive while a frame is offered, so that a channel of size zero drops every frame. -/
def offer (b : Broadcaster α) (frame : Frame α) (s : Subscriber) : Except Fault Unit × Broadcaster α :=
  if !b.accepts s.id frame then (.ok (), b)
  else
    match b.channels[s.channel]? with
    | none => (.ok (), b)
    | some channel =>
      if !channel.isOpen then (.error .sendOnClosed, b)
      else if channel.buffer.length < channel.capacity then
        let channels := b.channels.modify s.channel fun c => { c with buffer := c.buffer ++ [frame] }
        (.ok (), { b with channels, sent := b.sent + 1 })
      else (.ok (), { b with dropped := b.dropped + 1 })

/-- Offers a frame to subscribers in turn. A fault ends the round. -/
def offerAll (frame : Frame α) : List Subscriber → Broadcaster α → Except Fault Unit × Broadcaster α
  | [], b => (.ok (), b)
  | s :: rest, b =>
    match b.offer frame s with
    | (.error fault, b) => (.error fault, b)
    | (.ok (), b) => offerAll frame rest b

/-- Publishes a frame, unless the broadcaster is closed. -/
def send (b : Broadcaster α) (frame : Frame α) : Except Fault Unit × Broadcaster α :=
  if b.closed then (.ok (), b)
  else offerAll frame b.subscribers { b with everBroadcast := true }

def addMarker (b : Broadcaster α) : Handle × Broadcaster α :=
  (b.nextMarker, { b with nextMarker := b.nextMarker + 1 })

/-- Numbers markers from zero again and tells the subscribers to drop theirs. -/
def clear [Scalar α] (b : Broadcaster α) : Except Fault Unit × Broadcaster α :=
  send { b with nextMarker := 0 } Frame.clearing

/-- Closes the channels of subscribers in turn. A fault ends the round. -/
def closeAll : List Subscriber → Broadcaster α → Except Fault Unit × Broadcaster α
  | [], b => (.ok (), b)
  | s :: rest, b =>
    match b.closeChannel s.channel with
    | (.error fault, b) => (.error fault, b)
    | (.ok (), b) => closeAll rest b

/-- Closes every subscriber's channel for good. -/
def close (b : Broadcaster α) : Except Fault Unit × Broadcaster α :=
  match closeAll b.subscribers b with
  | (.error fault, b) => (.error fault, b)
  | (.ok (), b) => (.ok (), { b with subscribers := [], filters := [], active := 0, closed := true })

/-- Takes everything that is buffered on a channel, and says whether the channel is closed. -/
def drain (b : Broadcaster α) (n : Nat) : (List (Frame α) × Bool) × Broadcaster α :=
  match b.channels[n]? with
  | some channel =>
    ((channel.buffer, !channel.isOpen),
      { b with channels := b.channels.modify n ({ · with buffer := [] }) })
  | none => (([], true), b)

instance [Scalar α] : Renderer (Broadcaster α) α where
  addMarker b _ := b.addMarker
  render b frame := b.send frame
  clear b := b.clear

end Broadcaster

end BlochSphere
