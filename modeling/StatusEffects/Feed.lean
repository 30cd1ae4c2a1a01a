import StatusEffects.Event

/-!
# Event feed

Events are published to a journal that readers follow, each from the moment it joined. A reader
that falls behind keeps the newest events only, as many as the window of the feed holds, and is
told how many it has missed.

## Main definitions

* `Topic` : the events a reader follows.
* `Feed` : the journal and its readers.
* `Feed.publish`, `Feed.subscribe`, `Feed.drain` : what is done with it.
-/

namespace StatusEffects

/-- The events a reader follows. -/
inductive Topic where
  /-- Every event. -/
  | effects
  /-- Every event that is not a tick. -/
  | lifecycle
deriving DecidableEq, Repr

instance : Named Topic where
  all := [.effects, .lifecycle]
  ident
    | .effects => "Effects"
    | .lifecycle => "Lifecycle"

/-- Whether an event belongs to a topic. -/
def Topic.carries (e : Event) : Topic → Bool
  | .effects => true
  | .lifecycle => !e.isTick

/-- The topics an event belongs to. -/
def Event.topics (e : Event) : List Topic := [Topic.effects, .lifecycle].filter (·.carries e)

/-- A reader, who has read the journal up to a place. -/
structure Reader where
  topic : Topic
  read : Nat
deriving DecidableEq, Repr

/-- A journal of events and those who read it. -/
structure Feed where
  /-- Greatest number of unread events that a reader keeps. -/
  window : Nat
  /-- The events published so far, in order. -/
  journal : Array Stamped := #[]
  readers : Array Reader := #[]

namespace Feed

/-- A feed that keeps at least `capacity` events, and at least one, for each reader. The window is
a power of two. -/
def ofCapacity (capacity : Nat) : Feed := ⟨(max capacity 1).nextPowerOfTwo, #[], #[]⟩

/-- The capacity of a feed for which none is asked. -/
def usualCapacity : Nat := 256

/-- Publishes an event. -/
def publish (f : Feed) (e : Stamped) : Feed := { f with journal := f.journal.push e }

/-- Publishes events of one moment, in order. -/
def publishAll (f : Feed) (moment : Nat) (events : List Event) : Feed :=
  { f with journal := f.journal ++ (events.map fun e => Stamped.mk moment e) }

/-- Adds a reader. The answer is its number. -/
def subscribe (f : Feed) (topic : Topic) : Feed × Nat :=
  ({ f with readers := f.readers.push ⟨topic, f.journal.size⟩ }, f.readers.size)

/-- What a reader gets at a time: how many events it has missed, and those it still keeps. -/
structure Delivery where
  missed : Nat
  events : List Stamped
deriving DecidableEq, Repr

/-- The events of a reader's topic that it has not read. -/
def unread (f : Feed) (r : Reader) : List Stamped :=
  (f.journal.toList.drop r.read).filter fun e => r.topic.carries e.event

/-- Delivers to a reader what it has not read. -/
def drain (f : Feed) (reader : Nat) : Option (Feed × Delivery) :=
  f.readers[reader]?.map fun r =>
    let unread := f.unread r
    let missed := unread.length - f.window
    ({ f with readers := f.readers.setIfInBounds reader { r with read := f.journal.size } },
      ⟨missed, unread.drop missed⟩)

end Feed

end StatusEffects
