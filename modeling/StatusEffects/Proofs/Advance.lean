import StatusEffects.Proofs.Reply
import StatusEffects.Proofs.Timers
import Mathlib.Algebra.Order.BigOperators.Group.List
import Mathlib.Algebra.Order.Ring.Nat

/-!
# Advancing an engine

An engine that is advanced fires its due timers one after the other, and what they ask for may be
due in turn.  Every timer that fires uses up a part of what the pending ones can lead to, so that the
loop ends by itself and the number that bounds it does not matter.  Advancing first to one moment and
then to a later one is therefore the same as advancing to the later one at once.

## Main definitions

* `TimerQueue.weight` : what the pending timers weigh together.
* `TimerQueue.allowance` : the number of timers that the pending ones can lead to up to a moment.

## Main statements

* `Engine.allowance_fire_lt` : a timer that fires uses up some of the allowance.
* `Engine.advanceTo_of_none`, `Engine.advanceTo_of_some` : advancing, one timer at a time.
* `Engine.late_advanceTo` : no timer that is due is left.
* `Engine.advanceTo_advanceTo` : advancing in two slices.
-/

namespace StatusEffects

namespace TimerQueue

variable {q q' : TimerQueue} {e : Entry} {d : Nat}

/-! ### Weights of timers -/

section Weight

variable (w : Entry → Nat)

/-- What the pending timers weigh together. -/
def weight (q : TimerQueue) : Nat := (q.pending.map w).sum

theorem weight_le_of_sublist (h : q'.pending.Sublist q.pending) : q'.weight w ≤ q.weight w :=
  (h.map _).sum_le_sum fun _ _ => Nat.zero_le _

/-- A timer taken out of the queue takes its weight along. -/
theorem weight_of_pop (hq : q.Sound) {now : Nat} (h : q.pop now = (q', some e)) :
    q.weight w = w e + q'.weight w := by
  obtain ⟨-, hpending, -⟩ := hq.pop_some h
  rw [weight, hpending, List.map_cons, List.sum_cons, weight]

theorem weight_schedule_le (hq : q.Sound) (t : Timer) (due : Nat) :
    (q.schedule t due).weight w ≤ w ⟨due, q.nextSeq, t⟩ + q.weight w := by
  have hperm := (perm_pending_schedule hq t due).map w
  rw [weight, hperm.sum_eq, List.map_cons, List.sum_cons]
  exact Nat.add_le_add_left ((List.filter_sublist.map _).sum_le_sum fun _ _ => Nat.zero_le _) _

theorem weight_le {n : Nat} (hq : q.Sound) (h : ∀ x ∈ q.pending, w x ≤ n) :
    q.weight w ≤ n * q.size := by
  have hle : ∀ m ∈ q.pending.map w, m ≤ n := by
    intro m hm
    obtain ⟨x, hx, rfl⟩ := List.mem_map.1 hm
    exact h x hx
  have hsum := List.sum_le_card_nsmul _ n hle
  rwa [List.length_map, length_pending hq, Nat.nsmul_eq_mul, Nat.mul_comm] at hsum

end Weight

/-- The number of timers up to `deadline` that the pending ones can lead to: each of them one in
every millisecond from when it is due. -/
def allowance (q : TimerQueue) (deadline : Nat) : Nat :=
  (q.pending.map fun x => deadline + 1 - x.due).sum

theorem allowance_le (hq : q.Sound) (d : Nat) : q.allowance d ≤ (d + 1) * q.size :=
  weight_le _ hq fun _ _ => Nat.sub_le _ _

theorem allowance_of_pop (hq : q.Sound) {now : Nat} (h : q.pop now = (q', some e)) (d : Nat) :
    q.allowance d = (d + 1 - e.due) + q'.allowance d :=
  weight_of_pop _ hq h

theorem allowance_eq_zero_iff : q.allowance d = 0 ↔ ∀ x ∈ q.pending, d < x.due := by
  simp only [allowance, List.sum_eq_zero_iff, List.mem_map, forall_exists_index, and_imp,
    forall_apply_eq_imp_iff₂]
  exact forall₂_congr fun x _ => by omega

end TimerQueue

namespace Engine

open TimerQueue

variable {g : Engine} {q q' : TimerQueue} {e : Entry} {events : List Event} {asked : Option Timer}
  {a b d moment fuel fuel' : Nat}

/-! ### What a timer uses up -/

theorem pending_cancelEnded_sublist (hq : q.Sound) (events : List Event) :
    (cancelEnded q events).pending.Sublist q.pending := by
  induction events generalizing q with
  | nil => exact .refl _
  | cons ev rest ih =>
    simp only [cancelEnded, List.foldl_cons]
    split_ifs
    · have hcancel := pending_cancel hq (ev.actor, ev.effect.id)
      exact (ih (hq.cancel _)).trans (hcancel ▸ List.filter_sublist)
    · exact ih hq

/-- Only the timer that is asked for adds to what the pending ones weigh. -/
theorem weight_settled_le (w : Entry → Nat) (hq : q.Sound) {n : Nat}
    (hn : ∀ x, asked = some x.timer → x.due = later moment x.timer.delay → x.seq = q.nextSeq →
      w x ≤ n) :
    (settled q events asked moment).weight w ≤ n + q.weight w := by
  have hcancel := weight_le_of_sublist w (pending_cancelEnded_sublist hq events)
  cases asked with
  | none => exact Nat.le_trans hcancel (Nat.le_add_left _ _)
  | some t =>
    have hschedule := weight_schedule_le w (sound_cancelEnded hq events) t (later moment t.delay)
    exact hschedule.trans (Nat.add_le_add (hn _ rfl rfl (nextSeq_cancelEnded q events)) hcancel)

theorem sound_fire (hq : g.queue.Sound) (e : Entry) : (g.fire e).queue.Sound := by
  cases found : g.world.get? e.timer.actor with
  | none =>
    simp only [fire, found]
    exact hq
  | some c =>
    rw [queue_fire found]
    exact sound_settled hq

/-- What a timer asks for is due later, so that no more than the part behind it is allowed anew. -/
theorem allowance_fire_le (hq : g.queue.Sound) (hd : d < lastMoment) :
    (g.fire e).queue.allowance d ≤ (d - e.due) + g.queue.allowance d := by
  cases found : g.world.get? e.timer.actor with
  | none =>
    simp only [fire, found, record]
    omega
  | some c =>
    rw [queue_fire found]
    refine weight_settled_le _ hq fun x ht hx _ => ?_
    cases hanswer : (c.bearer.fire g.settings e.timer).answer with
    | rescheduled next =>
      rw [hanswer] at ht
      obtain rfl := Option.some.inj ht
      have hdelay := (Bearer.tick_of_rescheduled hanswer).2
      simp only [hx, later]
      omega
    | stale | ended =>
      rw [hanswer] at ht
      cases ht

/-- **A timer that fires uses up some of the allowance**. -/
theorem allowance_fire_lt (hq : g.queue.Sound) (hdue : e.due ≤ d) (hd : d < lastMoment) :
    (g.fire e).queue.allowance d < (d + 1 - e.due) + g.queue.allowance d := by
  have hle := allowance_fire_le (e := e) hq hd
  omega

theorem sound_fireNext (hq : g.queue.Sound) (h : g.queue.pop d = (q, some e)) :
    (g.fireNext q e).queue.Sound :=
  sound_fire (g := { g with queue := q, clock := g.clock.advanceTo e.due }) (hq.pop_some h).1 e

theorem allowance_fireNext_lt (hq : g.queue.Sound) (h : g.queue.pop d = (q, some e))
    (hd : d < lastMoment) : (g.fireNext q e).queue.allowance d < g.queue.allowance d := by
  obtain ⟨hq', -, hdue⟩ := hq.pop_some h
  rw [allowance_of_pop hq h]
  exact allowance_fire_lt (g := { g with queue := q, clock := g.clock.advanceTo e.due }) hq' hdue hd

/-- A timer that is due later than `a` neither uses up nor adds to the allowance until then. -/
theorem allowance_fireNext_le (hq : g.queue.Sound) (h : g.queue.pop d = (q, some e))
    (ha : a < lastMoment) : (g.fireNext q e).queue.allowance a ≤ g.queue.allowance a - 1 := by
  obtain ⟨hq', hpending, -⟩ := hq.pop_some h
  by_cases hdue : e.due ≤ a
  · have hlt := allowance_fireNext_lt hq (pop_some_of_due h hdue) ha
    omega
  · -- it was the first of all that are pending
    have hfirst := allowance_eq_zero_iff.2 fun x hx =>
      Nat.lt_of_lt_of_le (Nat.lt_of_not_le hdue) (hq.due_le_of_pop h hx)
    have hle := allowance_fire_le (d := a) (e := e)
      (g := { g with queue := q, clock := g.clock.advanceTo e.due }) hq' ha
    have hrest := allowance_of_pop hq h a
    simp only [fireNext] at hle ⊢
    omega

/-! ### One timer at a time -/

theorem fireAll_of_none (h : g.queue.pop d = (q, none)) (n fuel : Nat) :
    g.fireAll d n fuel = (g, n) := by
  cases fuel with
  | zero => rfl
  | succ fuel => simp only [fireAll, h]

theorem fireAll_of_some (h : g.queue.pop d = (q, some e)) (n fuel : Nat) :
    g.fireAll d n (fuel + 1) = (g.fireNext q e).fireAll d (n + 1) fuel := by
  simp only [fireAll, h]

/-- The timers fired before only add to the count. -/
theorem fireAll_add (g : Engine) (d n fuel : Nat) :
    g.fireAll d n fuel = ((g.fireAll d 0 fuel).1, n + (g.fireAll d 0 fuel).2) := by
  induction fuel generalizing g n with
  | zero => rfl
  | succ fuel ih =>
    cases h : g.queue.pop d with
    | mk q found =>
      cases found with
      | none => rw [fireAll_of_none h, fireAll_of_none h, Nat.add_zero]
      | some e =>
        rw [fireAll_of_some h, fireAll_of_some h, ih _ (n + 1), ih _ (0 + 1), Nat.zero_add,
          Nat.add_assoc]

/-- **The bound of the loop does not matter**, as long as it covers the allowance. -/
theorem fireAll_eq (hq : g.queue.Sound) (hd : d < lastMoment) (n : Nat)
    (h : g.queue.allowance d ≤ fuel) (h' : g.queue.allowance d ≤ fuel') :
    g.fireAll d n fuel = g.fireAll d n fuel' := by
  induction fuel generalizing g n fuel' with
  | zero =>
    cases hpop : g.queue.pop d with
    | mk q found =>
      cases found with
      | none => rw [fireAll_of_none hpop, fireAll_of_none hpop]
      | some e =>
        have hlt := allowance_fireNext_lt hq hpop hd
        omega
  | succ fuel ih =>
    cases hpop : g.queue.pop d with
    | mk q found =>
      cases found with
      | none => rw [fireAll_of_none hpop, fireAll_of_none hpop]
      | some e =>
        have hlt := allowance_fireNext_lt hq hpop hd
        cases fuel' with
        | zero => omega
        | succ fuel' =>
          rw [fireAll_of_some hpop, fireAll_of_some hpop]
          exact ih (sound_fireNext hq hpop) (n + 1) (by omega) (by omega)

/-- Enough turns of the loop leave nothing that is due by `a`, whatever becomes of later timers. -/
theorem late_fireAll (hq : g.queue.Sound) (ha : a < lastMoment) (had : a ≤ d) (n : Nat)
    (h : g.queue.allowance a ≤ fuel) :
    ∀ x ∈ (g.fireAll d n fuel).1.queue.pending, a < x.due := by
  induction fuel generalizing g n with
  | zero => exact allowance_eq_zero_iff.1 (Nat.le_zero.1 h)
  | succ fuel ih =>
    cases hpop : g.queue.pop d with
    | mk q found =>
      cases found with
      | none =>
        rw [fireAll_of_none hpop]
        exact fun x hx => Nat.lt_of_le_of_lt had (hq.pop_none hpop hx)
      | some e =>
        have hle := allowance_fireNext_le hq hpop ha
        rw [fireAll_of_some hpop]
        exact ih (sound_fireNext hq hpop) (n + 1) (by omega)

/-- Where nothing is due only the clock moves. -/
theorem advanceTo_of_none (h : g.queue.pop d = (q, none)) :
    g.advanceTo d = ({ g with clock := g.clock.advanceTo d }, 0) := by
  simp only [advanceTo, fireAll_of_none h]

/-- The first timer that is due fires, and then the engine goes on. -/
theorem advanceTo_of_some (hq : g.queue.Sound) (hd : d < lastMoment)
    (h : g.queue.pop d = (q, some e)) :
    g.advanceTo d =
      (((g.fireNext q e).advanceTo d).1, ((g.fireNext q e).advanceTo d).2 + 1) := by
  have hfuel : g.fireAll d 0 (g.timersUpTo d) =
      (g.fireNext q e).fireAll d 1 ((g.fireNext q e).timersUpTo d) := by
    have hlt := allowance_fireNext_lt hq h hd
    rw [timersUpTo, fireAll_eq hq hd 0 (allowance_le hq d) (Nat.le_succ _), fireAll_of_some h]
    exact fireAll_eq (sound_fireNext hq h) hd _ (Nat.le_of_lt hlt)
      (allowance_le (sound_fireNext hq h) d)
  simp only [advanceTo, hfuel]
  rw [fireAll_add _ d 1]
  simp only [Nat.add_comm]

/-- Induction along the timers that fire while the engine is advanced. -/
@[elab_as_elim]
theorem advanceTo_induction {motive : Engine → Prop} (hd : d < lastMoment) (hq : g.queue.Sound)
    (idle : ∀ g q, g.queue.Sound → g.queue.pop d = (q, none) → motive g)
    (next : ∀ g q e, g.queue.Sound → g.queue.pop d = (q, some e) → motive (g.fireNext q e) →
      motive g) : motive g := by
  induction hn : g.queue.allowance d using Nat.strong_induction_on generalizing g with
  | _ n ih =>
    cases hpop : g.queue.pop d with
    | mk q found =>
      cases found with
      | none => exact idle g q hq hpop
      | some e =>
        have hlt := allowance_fireNext_lt hq hpop hd
        exact next g q e hq hpop (ih _ (hn ▸ hlt) (sound_fireNext hq hpop) rfl)

/-- No timer that is due is left. -/
theorem late_advanceTo (hq : g.queue.Sound) (hd : d < lastMoment) :
    (g.advanceTo d).1.queue.Sound ∧ ∀ x ∈ (g.advanceTo d).1.queue.pending, d < x.due := by
  refine advanceTo_induction hd hq (fun g q hq h => ?_) fun g q e hq h ih => ?_
  · rw [advanceTo_of_none h]
    exact ⟨hq, fun x hx => hq.pop_none h hx⟩
  · rw [advanceTo_of_some hq hd h]
    exact ih

/-! ### The clock -/

theorem clock_fire (g : Engine) (e : Entry) : (g.fire e).clock = g.clock := by
  cases found : g.world.get? e.timer.actor with
  | none =>
    simp only [fire, found]
    rfl
  | some c =>
    simp only [fire, found]
    cases (c.bearer.fire g.settings e.timer).answer <;> rfl

theorem clock_advanceTo_of_le (c : Clock) (h : a ≤ b) :
    (c.advanceTo a).advanceTo b = c.advanceTo b := by
  simp only [Clock.advanceTo]
  split_ifs with hmanual
  · simp only [Clock.mk.injEq, and_true]
    omega
  · rfl

/-- The clock is set to the deadline: the timers that have fired were due before. -/
theorem clock_advanceTo (hq : g.queue.Sound) (hd : d < lastMoment) :
    (g.advanceTo d).1.clock = g.clock.advanceTo d := by
  refine advanceTo_induction hd hq (fun g q hq h => ?_) fun g q e hq h ih => ?_
  · rw [advanceTo_of_none h]
  · obtain ⟨-, -, hdue⟩ := hq.pop_some h
    rw [advanceTo_of_some hq hd h, ih, fireNext, clock_fire, clock_advanceTo_of_le _ hdue]

/-- A clock set forward beforehand makes no difference, where nothing is due by then. -/
theorem advanceTo_setClock (hq : g.queue.Sound) (late : ∀ x ∈ g.queue.pending, a < x.due)
    (hab : a ≤ b) (hb : b < lastMoment) :
    ({ g with clock := g.clock.advanceTo a } : Engine).advanceTo b = g.advanceTo b := by
  generalize hg₁ : ({ g with clock := g.clock.advanceTo a } : Engine) = g₁
  have hqueue : g₁.queue = g.queue := by rw [← hg₁]
  have hset : ∀ {t : Nat}, a ≤ t → g₁.clock.advanceTo t = g.clock.advanceTo t := fun ht => by
    rw [← hg₁, clock_advanceTo_of_le _ ht]
  cases h : g.queue.pop b with
  | mk q found =>
    have h₁ : g₁.queue.pop b = (q, found) := by rw [hqueue, h]
    cases found with
    | none =>
      rw [advanceTo_of_none h, advanceTo_of_none h₁, hset hab, ← hg₁]
    | some e =>
      -- the timer that fires next moves the clock further
      have hmem : e ∈ g.queue.pending := (hq.pop_some h).2.1 ▸ List.mem_cons_self
      have hnext : g₁.fireNext q e = g.fireNext q e := by
        rw [fireNext, hset (Nat.le_of_lt (late e hmem)), ← hg₁]
        rfl
      rw [advanceTo_of_some hq hb h, advanceTo_of_some (hqueue ▸ hq) hb h₁, hnext]

/-- **Advancing in two slices.**  Advancing to a moment and then to a later one is advancing to the
later one, and the timers fired on the way add up. -/
theorem advanceTo_advanceTo (hq : g.queue.Sound) (hab : a ≤ b) (hb : b < lastMoment) :
    ((g.advanceTo a).1.advanceTo b).1 = (g.advanceTo b).1 ∧
      (g.advanceTo a).2 + ((g.advanceTo a).1.advanceTo b).2 = (g.advanceTo b).2 := by
  have ha : a < lastMoment := Nat.lt_of_le_of_lt hab hb
  refine advanceTo_induction ha hq (fun g q hq h => ?_) fun g q e hq h ih => ?_
  · have hset := advanceTo_setClock hq (fun x hx => hq.pop_none h hx) hab hb
    rw [advanceTo_of_none h, hset]
    exact ⟨rfl, Nat.zero_add _⟩
  · rw [advanceTo_of_some hq ha h, advanceTo_of_some hq hb (pop_some_mono h hab)]
    exact ⟨ih.1, by simp only; omega⟩

end Engine

end StatusEffects
