import StatusEffects.Effect

/-!
# Timer queue

Pending timers in the order in which they fire: by the moment they are due, and among timers due at
the same moment by the order in which they were scheduled. An effect has at most one timer.

Cancelling or replacing a timer does not look for it in the backlog. It only takes the timer off
the register of live timers; the entry left behind is dead, is passed over when its turn comes, and
is swept out together with the other dead entries once these are too many.

## Main definitions

* `Entry` : a timer with the moment it is due and its place in the order of scheduling.
* `TimerQueue` : the backlog and the register of live timers.
* `TimerQueue.schedule`, `TimerQueue.cancel`, `TimerQueue.pop`, `TimerQueue.popDue` : its changes.
* `TimerQueue.nextDue`, `TimerQueue.expiryOf`, `TimerQueue.size` : what it answers.
-/

namespace StatusEffects

/-- A scheduled timer. -/
structure Entry where
  /-- The moment the timer is due. -/
  due : Nat
  /-- Place in the order of scheduling. -/
  seq : Nat
  timer : Timer
deriving DecidableEq, Repr

namespace Entry

/-- The effect a timer belongs to. -/
def key (e : Entry) : ActorId × EffectId := (e.timer.actor, e.timer.effect)

/-- Whether an entry fires before another one. -/
def before (a b : Entry) : Bool :=
  decide (a.due < b.due) || (a.due == b.due && decide (a.seq < b.seq))

end Entry

/-- What is known of the live timer of an effect without searching the backlog. -/
structure Live where
  seq : Nat
  due : Nat
  kind : TimerKind
deriving DecidableEq, Repr

/-- The pending timers. -/
structure TimerQueue where
  /-- Entries in firing order, dead ones among them. -/
  backlog : List Entry := []
  /-- The live timers, at most one for each effect. -/
  live : List ((ActorId × EffectId) × Live) := []
  /-- Place of the next timer in the order of scheduling. -/
  nextSeq : Nat := 0

namespace TimerQueue

/-- An entry put in its place among entries in firing order. -/
def insert (e : Entry) : List Entry → List Entry
  | [] => [e]
  | a :: rest => if a.before e then a :: insert e rest else e :: a :: rest

/-- The live timer of an effect. -/
def find? (q : TimerQueue) (key : ActorId × EffectId) : Option Live := q.live.lookup key

/-- Whether an entry is the live timer of its effect. -/
def isLive (q : TimerQueue) (e : Entry) : Bool := (q.find? e.key).any (·.seq == e.seq)

/-- Number of live timers. -/
def size (q : TimerQueue) : Nat := q.live.length

/-- The dead entries a queue may hold beside twice its live ones. -/
def slack : Nat := 64

/-- The queue without dead entries once these outweigh the live ones. -/
def compact (q : TimerQueue) : TimerQueue :=
  if q.backlog.length ≤ slack + 2 * q.live.length then q
  else { q with backlog := q.backlog.filter q.isLive }

/-- The queue without the dead entries whose turn has come. -/
def skipDead (q : TimerQueue) : TimerQueue :=
  { q with backlog := q.backlog.dropWhile fun e => !q.isLive e }

/-- The register without the timer of an effect. -/
def unlist (q : TimerQueue) (key : ActorId × EffectId) : TimerQueue :=
  { q with live := q.live.filter (·.1 != key) }

/-- Schedules a timer, in place of any other of its effect. -/
def schedule (q : TimerQueue) (timer : Timer) (due : Nat) : TimerQueue :=
  let e : Entry := ⟨due, q.nextSeq, timer⟩
  let q' : TimerQueue :=
    { backlog := insert e q.backlog
      live := (e.key, ⟨e.seq, due, timer.kind⟩) :: (q.unlist e.key).live
      nextSeq := q.nextSeq + 1 }
  if (q.find? e.key).isSome then q'.compact else q'

/-- Takes back the timer of an effect. The answer is whether there was one. -/
def cancel (q : TimerQueue) (key : ActorId × EffectId) : TimerQueue × Bool :=
  if (q.find? key).isSome then ((q.unlist key).compact, true) else (q, false)

/-- Takes out the first live timer, provided it is due by `now`. -/
def pop (q : TimerQueue) (now : Nat) : TimerQueue × Option Entry :=
  let q' := q.skipDead
  match q'.backlog with
  | [] => (q', none)
  | e :: rest =>
    if e.due ≤ now then ({ q' with backlog := rest }.unlist e.key, some e) else (q', none)

/-- Takes out up to `max` live timers due by `now`, in firing order. -/
def popDue (q : TimerQueue) (now : Nat) : (max : Nat) → TimerQueue × List Entry
  | 0 => (q, [])
  | max + 1 =>
    match q.pop now with
    | (q', none) => (q', [])
    | (q', some e) =>
      let (q'', es) := q'.popDue now max
      (q'', e :: es)

/-- The moment the first live timer is due, after passing over the dead entries before it. -/
def nextDue (q : TimerQueue) : TimerQueue × Option Nat :=
  let q' := q.skipDead
  (q', q'.backlog.head?.map (·.due))

/-- The moment the timer of an effect is due, if it is one that ends the effect. -/
def expiryOf (q : TimerQueue) (key : ActorId × EffectId) : Option Nat :=
  (q.find? key).bind fun l => if l.kind = .expire then some l.due else none

end TimerQueue

end StatusEffects
