import StatusEffects.Proofs.Queue
import Mathlib.Data.List.Sort

/-!
# The agenda behind a timer queue

A caller sees of a timer queue an agenda: the timers that effects have, one for each effect at most,
in no order.  Timers come out of it by sorting those that are due.  That the queue keeps dead
entries, passes over them and sweeps them out at moments that depend on their number cannot be seen
from any answer.

## Main definitions

* `Agenda` : timers of distinct effects, with the operations of a queue on them.
* `TimerQueue.Call`, `TimerQueue.Answer` : what is asked of a queue and what it answers.
* `TimerQueue.Move` : a call, or upkeep that nobody has asked for.
* `TimerQueue.Refines` : a sound queue whose pending timers are those of an agenda.

## Main statements

* `TimerQueue.popDue_eq` : a batch is the first of the pending timers that are due.
* `TimerQueue.Refines.serve` : a call is answered alike and leaves the queue behind the same agenda.
* `TimerQueue.answers_eq_agenda` : a queue answers as the agenda does, whatever its upkeep.
-/

namespace StatusEffects

/-- Whether an entry does not fire after another one. -/
def Entry.notAfter (x y : Entry) : Bool := !y.before x

theorem Entry.notAfter_iff {x y : Entry} :
    x.notAfter y = true ↔ x.due < y.due ∨ (x.due = y.due ∧ x.seq ≤ y.seq) := by
  simp only [notAfter, Bool.not_eq_true', Bool.eq_false_iff, Ne, before_iff]
  omega

/-- The timers that effects have. -/
structure Agenda where
  /-- The timers, in no particular order. -/
  timers : List Entry := []
  /-- Place of the next timer in the order of scheduling. -/
  nextSeq : Nat := 0
  /-- An effect has at most one timer. -/
  distinct : (timers.map Entry.key).Nodup := by exact List.nodup_nil

namespace Agenda

/-- The agenda with some of its timers. -/
def keep (a : Agenda) (p : Entry → Bool) : Agenda where
  timers := a.timers.filter p
  nextSeq := a.nextSeq
  distinct := a.distinct.sublist (List.filter_sublist.map _)

/-- Puts down a timer, in place of any other of its effect. -/
def schedule (a : Agenda) (timer : Timer) (due : Nat) : Agenda where
  timers := ⟨due, a.nextSeq, timer⟩ :: a.timers.filter (·.key != (timer.actor, timer.effect))
  nextSeq := a.nextSeq + 1
  distinct := by
    refine List.nodup_cons.2 ⟨?_, a.distinct.sublist (List.filter_sublist.map _)⟩
    intro h
    obtain ⟨x, hx, hkey⟩ := List.mem_map.1 h
    have hne : x.key ≠ (timer.actor, timer.effect) := by simpa using List.of_mem_filter hx
    exact hne hkey

/-- Strikes out the timer of an effect. The answer is whether there was one. -/
def cancel (a : Agenda) (k : ActorId × EffectId) : Agenda × Bool :=
  (a.keep (·.key != k), a.timers.any (·.key == k))

/-- The timers due by `now`, by the moment they are due and then as they were scheduled. -/
def dueBy (a : Agenda) (now : Nat) : List Entry :=
  (a.timers.filter fun x => decide (x.due ≤ now)).mergeSort Entry.notAfter

/-- Takes out the first `max` of the timers due by `now`. -/
def popDue (a : Agenda) (now max : Nat) : Agenda × List Entry :=
  let first := (a.dueBy now).take max
  (a.keep fun x => decide (x ∉ first), first)

/-- The least moment at which a timer is due. -/
def nextDue (a : Agenda) : Option Nat := (a.timers.map (·.due)).min?

/-- The moment the timer of an effect is due, if it is one that ends the effect. -/
def expiryOf (a : Agenda) (k : ActorId × EffectId) : Option Nat :=
  (a.timers.find? (·.key == k)).bind fun x =>
    if x.timer.kind = .expire then some x.due else none

/-- Number of timers. -/
def size (a : Agenda) : Nat := a.timers.length

end Agenda

namespace TimerQueue

variable {q q' : TimerQueue} {a : Agenda} {k : ActorId × EffectId} {x y e : Entry}
  {now max due : Nat} {t : Timer}

/-! ### Firing order of the pending timers -/

theorem pairwise_pending (hq : q.Sound) : q.pending.Pairwise fun x y => x.before y = true :=
  hq.ordered.sublist List.filter_sublist

/-- **A batch is the first of the pending timers that are due.**  The others stay. -/
theorem popDue_eq (hq : q.Sound) (now max : Nat) :
    let r := q.popDue now max
    r.1.Sound ∧ r.1.nextSeq = q.nextSeq ∧ q.pending = r.2 ++ r.1.pending ∧
      r.2 = (q.pending.filter fun x => decide (x.due ≤ now)).take max := by
  intro r
  induction max generalizing q with
  | zero => exact ⟨hq, rfl, rfl, rfl⟩
  | succ max ih =>
    simp only [r, popDue]
    cases h : q.pop now with
    | mk q' found =>
      cases found with
      | none =>
        obtain ⟨rfl, -⟩ := pop_none_eq h
        have hlate : (q.pending.filter fun x => decide (x.due ≤ now)) = [] := by
          refine List.filter_eq_nil_iff.2 fun x hx => ?_
          have := hq.pop_none h hx
          simp only [decide_eq_true_eq]
          omega
        exact ⟨hq.skipDead, rfl, (pending_skipDead q).symm, by simp [hlate]⟩
      | some e =>
        obtain ⟨hq', hpending, hdue⟩ := hq.pop_some h
        have hseq : q'.nextSeq = q.nextSeq := by
          obtain ⟨-, -, -, rfl⟩ := pop_some_eq h
          rfl
        obtain ⟨hsound, hnext, hrest, htaken⟩ := ih hq'
        refine ⟨hsound, hnext.trans hseq, ?_, ?_⟩
        · rw [hpending, List.cons_append, ← hrest]
        · rw [hpending, List.filter_cons_of_pos (by simpa using hdue), List.take_succ_cons,
            ← htaken]

/-- The queue is asked for the moment of the first pending timer. -/
theorem nextDue_eq (q : TimerQueue) :
    q.nextDue = (q.skipDead, q.pending.head?.map (·.due)) := by
  have hhead : q.pending.head? = q.skipDead.backlog.head? := by
    rw [← pending_skipDead]
    cases hback : q.skipDead.backlog with
    | nil => simp [pending, hback]
    | cons e rest => rw [pending, hback, List.filter_cons_of_pos (isLive_head_skipDead hback)]; rfl
  rw [hhead]
  rfl

/-! ### Calls -/

/-- What is asked of a queue. -/
inductive Call
  | schedule (timer : Timer) (due : Nat)
  | cancel (k : ActorId × EffectId)
  | popDue (now max : Nat)
  | nextDue
  | expiryOf (k : ActorId × EffectId)
  | size
deriving DecidableEq, Repr

/-- What a call gives back. -/
inductive Answer
  | done
  | found (one : Bool)
  | taken (entries : List Entry)
  | moment (due : Option Nat)
  | count (n : Nat)
deriving DecidableEq, Repr

/-- Serves a call. -/
def serve (q : TimerQueue) : Call → TimerQueue × Answer
  | .schedule timer due => (q.schedule timer due, .done)
  | .cancel k => (q.cancel k).map id .found
  | .popDue now max => (q.popDue now max).map id .taken
  | .nextDue => q.nextDue.map id .moment
  | .expiryOf k => (q, .moment (q.expiryOf k))
  | .size => (q, .count q.size)

/-- A call, or upkeep of the backlog. -/
inductive Move
  | call (c : Call)
  | skipDead
  | compact
deriving DecidableEq, Repr

/-- The call that a move is, if it is one. -/
def Move.call? : Move → Option Call
  | .call c => some c
  | .skipDead | .compact => none

/-- The answers to the calls among some moves. -/
def answers (q : TimerQueue) : List Move → List Answer
  | [] => []
  | .call c :: rest => (q.serve c).2 :: (q.serve c).1.answers rest
  | .skipDead :: rest => q.skipDead.answers rest
  | .compact :: rest => q.compact.answers rest

end TimerQueue

namespace Agenda

/-- Serves a call. -/
def serve (a : Agenda) : TimerQueue.Call → Agenda × TimerQueue.Answer
  | .schedule timer due => (a.schedule timer due, .done)
  | .cancel k => (a.cancel k).map id .found
  | .popDue now max => (a.popDue now max).map id .taken
  | .nextDue => (a, .moment a.nextDue)
  | .expiryOf k => (a, .moment (a.expiryOf k))
  | .size => (a, .count a.size)

/-- The answers to calls. -/
def answers (a : Agenda) : List TimerQueue.Call → List TimerQueue.Answer
  | [] => []
  | c :: rest => (a.serve c).2 :: (a.serve c).1.answers rest

end Agenda

namespace TimerQueue

variable {q q' : TimerQueue} {a : Agenda} {k : ActorId × EffectId} {x y e : Entry}
  {now max due : Nat} {t : Timer}

/-! ### Refinement -/

/-- The queue stands for an agenda: it is sound, and its pending timers are those of the agenda. -/
structure Refines (q : TimerQueue) (a : Agenda) : Prop where
  queue : q.Sound
  same : q.pending.Perm a.timers
  seq : q.nextSeq = a.nextSeq

theorem refines_empty : Refines {} {} := ⟨sound_empty, .refl _, rfl⟩

namespace Refines

/-- Upkeep that leaves the pending timers alone leaves the agenda alone. -/
theorem upkeep (h : Refines q a) (hq : q'.Sound) (hpending : q'.pending = q.pending)
    (hseq : q'.nextSeq = q.nextSeq) : Refines q' a :=
  ⟨hq, hpending ▸ h.same, hseq.trans h.seq⟩

theorem skipDead (h : Refines q a) : Refines q.skipDead a :=
  h.upkeep h.queue.skipDead (pending_skipDead q) rfl

theorem compact (h : Refines q a) : Refines q.compact a :=
  h.upkeep h.queue.compact (pending_compact q) (nextSeq_compact q)

theorem schedule (h : Refines q a) (t : Timer) (due : Nat) :
    Refines (q.schedule t due) (a.schedule t due) where
  queue := h.queue.schedule t due
  same := by
    have hentry : q.scheduled t due = ⟨due, a.nextSeq, t⟩ := by rw [scheduled, h.seq]
    refine (perm_pending_schedule h.queue t due).trans ?_
    rw [hentry]
    exact (h.same.filter _).cons _
  seq := by
    rw [schedule_eq]
    have hseq : (q.enlist (q.scheduled t due)).nextSeq = a.nextSeq + 1 := congrArg (· + 1) h.seq
    split_ifs
    · rw [nextSeq_compact, hseq]
      rfl
    · exact hseq

theorem isSome_find? (h : Refines q a) (k : ActorId × EffectId) :
    (q.find? k).isSome = a.timers.any (·.key == k) := by
  rw [← h.same.any_eq, Bool.eq_iff_iff, isSome_find?_iff h.queue, List.any_eq_true]
  simp only [beq_iff_eq]

theorem cancel (h : Refines q a) (k : ActorId × EffectId) :
    Refines (q.cancel k).1 (a.cancel k).1 where
  queue := h.queue.cancel k
  same := by
    rw [pending_cancel h.queue]
    exact h.same.filter _
  seq := by
    unfold TimerQueue.cancel
    split_ifs
    · exact (nextSeq_compact _).trans h.seq
    · exact h.seq

theorem cancel_found (h : Refines q a) (k : ActorId × EffectId) :
    (q.cancel k).2 = (a.cancel k).2 := by
  have hfound := h.isSome_find? k
  unfold TimerQueue.cancel Agenda.cancel
  split_ifs with hsome
  · exact hsome.symm.trans hfound
  · rw [← hfound]
    exact (Bool.not_eq_true _ ▸ hsome).symm

/-- Sorting the timers that are due puts them in the order in which the queue has them. -/
theorem dueBy_eq (h : Refines q a) (now : Nat) :
    a.dueBy now = q.pending.filter fun x => decide (x.due ≤ now) := by
  have hperm : (a.dueBy now).Perm (q.pending.filter fun x => decide (x.due ≤ now)) :=
    (List.mergeSort_perm _ _).trans (h.same.symm.filter _)
  have hsorted : (a.dueBy now).Pairwise fun x y => x.notAfter y = true := by
    refine List.pairwise_mergeSort (fun x y z => ?_) (fun x y => ?_) _
    · simp only [Entry.notAfter_iff]
      omega
    · simp only [Bool.or_eq_true, Entry.notAfter_iff]
      omega
  have hpending : (q.pending.filter fun x => decide (x.due ≤ now)).Pairwise
      fun x y => x.notAfter y = true := by
    refine ((pairwise_pending h.queue).sublist List.filter_sublist).imp fun {x y} hxy => ?_
    rw [Entry.before_iff] at hxy
    rw [Entry.notAfter_iff]
    omega
  refine List.Perm.eq_of_pairwise (fun x y hx hy hxy hyx => ?_) hsorted hpending hperm
  -- two timers of which neither fires after the other have the same number
  have hx : x ∈ q.backlog := List.mem_of_mem_filter (List.mem_of_mem_filter (hperm.mem_iff.1 hx))
  have hy : y ∈ q.backlog := List.mem_of_mem_filter (List.mem_of_mem_filter hy)
  refine List.inj_on_of_nodup_map h.queue.distinct hx hy ?_
  rw [Entry.notAfter_iff] at hxy hyx
  omega

theorem popDue_taken (h : Refines q a) (now max : Nat) :
    (q.popDue now max).2 = (a.popDue now max).2 := by
  obtain ⟨-, -, -, htaken⟩ := popDue_eq h.queue now max
  rw [htaken, ← h.dueBy_eq]
  rfl

theorem popDue (h : Refines q a) (now max : Nat) :
    Refines (q.popDue now max).1 (a.popDue now max).1 := by
  obtain ⟨hsound, hseq, hsplit, -⟩ := popDue_eq h.queue now max
  refine ⟨hsound, ?_, hseq.trans h.seq⟩
  -- what stays is what was pending and has not been taken
  have hnodup := nodup_pending h.queue
  rw [hsplit, List.nodup_append] at hnodup
  have hstays : q.pending.filter (fun x => decide (x ∉ (q.popDue now max).2)) =
      (q.popDue now max).1.pending := by
    rw [hsplit, List.filter_append, List.filter_eq_nil_iff.2, List.nil_append,
      List.filter_eq_self.2]
    · intro x hx
      simpa using fun htaken => hnodup.2.2 x htaken x hx rfl
    · intro x hx
      simpa using hx
  rw [← hstays, h.popDue_taken]
  exact h.same.filter _

theorem nextDue (h : Refines q a) : q.nextDue.2 = a.nextDue := by
  rw [nextDue_eq]
  unfold Agenda.nextDue
  have hordered := pairwise_pending h.queue
  have hsame := h.same
  cases hpending : q.pending with
  | nil =>
    rw [hpending] at hsame
    rw [List.nil_perm.1 hsame]
    rfl
  | cons e rest =>
    rw [hpending] at hordered hsame
    -- the first in firing order is due before all others
    refine (List.min?_eq_some_iff.2 ⟨?_, fun m hm => ?_⟩).symm
    · exact List.mem_map_of_mem (hsame.subset List.mem_cons_self)
    · obtain ⟨x, hx, rfl⟩ := List.mem_map.1 hm
      rcases List.mem_cons.1 (hsame.symm.subset hx) with rfl | hx
      · exact Nat.le_refl _
      · exact Entry.due_le_of_before (List.rel_of_pairwise_cons hordered hx)

theorem expiryOf (h : Refines q a) (k : ActorId × EffectId) : q.expiryOf k = a.expiryOf k := by
  unfold TimerQueue.expiryOf Agenda.expiryOf
  cases hfind : a.timers.find? (·.key == k) with
  | none =>
    have hnone : q.find? k = none := by
      rw [← Option.not_isSome_iff_eq_none, h.isSome_find?, List.any_eq_true]
      rintro ⟨x, hx, hkey⟩
      exact List.find?_eq_none.1 hfind x hx hkey
    rw [hnone]
    rfl
  | some x =>
    have hmem := h.same.symm.subset (List.mem_of_find?_eq_some hfind)
    have hkey : x.key = k := by simpa using List.find?_some hfind
    have hsome : q.find? k = some x.live := (find?_eq_some_iff h.queue).2 ⟨x, hmem, hkey, rfl⟩
    rw [hsome]
    rfl

theorem size (h : Refines q a) : q.size = a.size := by
  rw [← length_pending h.queue, h.same.length_eq]
  rfl

/-- **A call is answered alike**, and leaves the queue behind the agenda that it leaves. -/
theorem serve (h : Refines q a) (c : Call) :
    (q.serve c).2 = (a.serve c).2 ∧ Refines (q.serve c).1 (a.serve c).1 := by
  cases c with
  | schedule t due => exact ⟨rfl, h.schedule t due⟩
  | cancel k => exact ⟨congrArg Answer.found (h.cancel_found k), h.cancel k⟩
  | popDue now max => exact ⟨congrArg Answer.taken (h.popDue_taken now max), h.popDue now max⟩
  | nextDue => exact ⟨congrArg Answer.moment h.nextDue, h.skipDead⟩
  | expiryOf k => exact ⟨congrArg Answer.moment (h.expiryOf k), h⟩
  | size => exact ⟨congrArg Answer.count h.size, h⟩

/-- From then on the queue answers as the agenda does. -/
theorem answers (h : Refines q a) (moves : List Move) :
    q.answers moves = a.answers (moves.filterMap Move.call?) := by
  induction moves generalizing q a with
  | nil => rfl
  | cons m rest ih =>
    cases m with
    | call c =>
      obtain ⟨hanswer, hnext⟩ := h.serve c
      exact congrArg₂ List.cons hanswer (ih hnext)
    | skipDead => exact ih h.skipDead
    | compact => exact ih h.compact

end Refines

/-- **A timer queue is a plain collection of timers.**  Whatever is asked of it from its beginning,
it gives the answers that an agenda gives, also if its dead entries are passed over and swept out at
other moments than its own. -/
theorem answers_eq_agenda (moves : List Move) :
    ({} : TimerQueue).answers moves = ({} : Agenda).answers (moves.filterMap Move.call?) :=
  refines_empty.answers moves

/-- The timer of the first effect is scheduled anew and then fires behind that of the second. -/
example :
    let first : Timer := ⟨⟨1⟩, ⟨1⟩, .tick, 500, 0⟩
    let second : Timer := ⟨⟨1⟩, ⟨2⟩, .expire, 500, 0⟩
    ({} : TimerQueue).answers [.call (.schedule first 300), .call (.schedule second 500),
      .skipDead, .call (.schedule first 500), .compact, .call .nextDue, .call (.popDue 500 8),
      .call .size] =
    [.done, .done, .done, .moment (some 500), .taken [⟨500, 1, second⟩, ⟨500, 2, first⟩],
      .count 0] := by
  decide

end TimerQueue

end StatusEffects
