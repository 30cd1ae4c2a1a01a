import StatusEffects.Proofs.Draining
import StatusEffects.Proofs.Timeline

/-!
# Timers for an end are never overdue

An engine that is advanced fires every timer for the end of an effect that is due by then.  This is
so even at the end of time, where an effect that ticks for ever keeps the engine busy until its fuel
is used up.  Timers that fire ask for timers for a tick only, and these come behind all that were
pending before, if they are not due earlier.  So there is a bound to the timers that fire before a
given one.

## Main definitions

* `Entry.lead` : how many timers a pending one can lead to before another one fires.
* `Engine.Op.reach` : the moment a request takes the clock to.

## Main statements

* `Engine.lead_fireNext_lt` : a timer that fires uses up some of the lead over another one.
* `Engine.late_expiry_advanceTo` : no timer for an end is left that is due.
* `Engine.Paced.now_perform` : what the clock shows after a request.
-/

namespace StatusEffects

/-- How many timers an entry can lead to up to `deadline` before `x` fires: one in every millisecond
from when it is due, and none if it comes behind `x`. -/
def Entry.lead (x : Entry) (deadline : Nat) (y : Entry) : Nat :=
  if x.before y then 0 else deadline + 1 - y.due

namespace Engine

open TimerQueue Bearer

variable {g : Engine} {q : TimerQueue} {e x : Entry} {op : Op} {d n fuel : Nat}

/-! ### Timers for an end -/

/-- What a timer asks for is a timer for a tick, and not due at once. -/
theorem tick_of_asked {w : World} {settings : Settings} {t next : Timer}
    (h : nextTimer (w.fire settings t).2.2 = some next) : next.kind = .tick ∧ 0 < next.delay := by
  cases found : w.get? t.actor with
  | none =>
    rw [World.fire_of_get?_none found] at h
    cases h
  | some a =>
    rw [World.fire_of_get? found] at h
    cases hanswer : (a.bearer.fire settings t).answer with
    | rescheduled again =>
      rw [hanswer] at h
      obtain rfl := Option.some.inj h
      exact tick_of_rescheduled hanswer
    | stale | ended =>
      rw [hanswer] at h
      cases h

theorem queue_fireNext (g : Engine) (q : TimerQueue) (e : Entry) :
    (g.fireNext q e).queue = settled q (g.world.fire g.settings e.timer).2.1
      (nextTimer (g.world.fire g.settings e.timer).2.2) e.due :=
  (fire_eq { g with queue := q, clock := g.clock.advanceTo e.due } e).2.2.1

/-- A timer for an end is not asked for by another timer. -/
theorem mem_pending_of_fireNext (hq : q.Sound) (expire : x.timer.kind = .expire)
    (hx : x ∈ (g.fireNext q e).queue.pending) : x ∈ q.pending := by
  rw [queue_fireNext] at hx
  rcases of_mem_settled hq hx with ⟨hx, -⟩ | ⟨t, asked, rfl, -⟩
  · exact hx
  · rw [(tick_of_asked asked).1] at expire
    cases expire

theorem mem_pending_of_fireAll (hq : g.queue.Sound) (expire : x.timer.kind = .expire)
    (hx : x ∈ (g.fireAll d n fuel).1.queue.pending) : x ∈ g.queue.pending := by
  induction fuel generalizing g n with
  | zero => exact hx
  | succ fuel ih =>
    cases due : g.queue.pop d with
    | mk q found =>
      cases found with
      | none => rwa [fireAll_of_none due] at hx
      | some e =>
        obtain ⟨hq', hpending, -⟩ := hq.pop_some due
        rw [fireAll_of_some due] at hx
        have hx := mem_pending_of_fireNext hq' expire (ih (sound_fireNext hq due) hx)
        exact hpending ▸ List.mem_cons_of_mem e hx

/-! ### The lead -/

/-- **A timer that fires uses up some of the lead over another one.**  What it asks for is due
later, or comes behind the other one at the end of time. -/
theorem lead_fireNext_lt (hq : g.queue.Sound) (hd : d ≤ lastMoment)
    (due : g.queue.pop d = (q, some e)) (hx : x ∈ q.pending) (hdue : x.due ≤ d) :
    (g.fireNext q e).queue.weight (x.lead d) < g.queue.weight (x.lead d) := by
  obtain ⟨hq', hpending, hedue⟩ := hq.pop_some due
  have hfirst : e.before x = true := by
    have hordered := hpending ▸ pairwise_pending hq
    exact List.rel_of_pairwise_cons hordered hx
  have hle : (g.fireNext q e).queue.weight (x.lead d) ≤ (d - e.due) + q.weight (x.lead d) := by
    rw [queue_fireNext]
    refine weight_settled_le _ hq' fun y asked hydue hseq => ?_
    have hdelay := (tick_of_asked asked).2
    have hfresh := hq'.fresh x (List.mem_of_mem_filter hx)
    simp only [Entry.lead]
    split_ifs with hbefore
    · exact Nat.zero_le _
    · rw [Entry.before_iff] at hbefore
      simp only [later] at hydue
      omega
  have hlead : x.lead d e = d + 1 - e.due := by
    refine if_neg fun hbefore => ?_
    rw [Entry.before_iff] at hbefore hfirst
    omega
  rw [weight_of_pop _ hq due, hlead]
  omega

theorem late_expiry_fireAll (hq : g.queue.Sound) (hd : d ≤ lastMoment)
    (expire : x.timer.kind = .expire) (hfuel : g.queue.weight (x.lead d) ≤ fuel)
    (hx : x ∈ (g.fireAll d n fuel).1.queue.pending) : d < x.due := by
  by_contra hdue
  rw [Nat.not_lt] at hdue
  induction fuel generalizing g n with
  | zero =>
    have hself : x.lead d x = d + 1 - x.due := if_neg fun h => by
      rw [Entry.before_iff] at h
      omega
    have hzero : x.lead d x = 0 :=
      List.sum_eq_zero_iff.1 (Nat.le_zero.1 hfuel) _ (List.mem_map_of_mem hx)
    omega
  | succ fuel ih =>
    cases due : g.queue.pop d with
    | mk q found =>
      cases found with
      | none =>
        rw [fireAll_of_none due] at hx
        exact Nat.not_lt.2 hdue (hq.pop_none due hx)
      | some e =>
        rw [fireAll_of_some due] at hx
        have hq' := sound_fireNext hq due
        have hpending := mem_pending_of_fireNext (hq.pop_some due).1 expire
          (mem_pending_of_fireAll hq' expire hx)
        have hlt := lead_fireNext_lt hq hd due hpending hdue
        exact ih hq' (by omega) hx

/-- **No timer for an end is left that is due**, be it at the end of time. -/
theorem late_expiry_advanceTo (hq : g.queue.Sound) (hd : d ≤ lastMoment)
    (expire : x.timer.kind = .expire) (hx : x ∈ (g.advanceTo d).1.queue.pending) : d < x.due := by
  have hfuel : g.queue.weight (x.lead d) ≤ g.timersUpTo d := by
    refine weight_le _ hq fun y _ => ?_
    simp only [Entry.lead]
    split_ifs
    · exact Nat.zero_le _
    · exact Nat.sub_le _ _
  exact late_expiry_fireAll hq hd expire hfuel hx

/-! ### The clock -/

/-- The moment a request takes the clock to. -/
def Op.reach : Op → Nat
  | .advanceTo deadline => deadline.toNat
  | _ => 0

namespace Paced

theorem now_fireAll (h : g.Paced) (hd : d ≤ lastMoment) (n fuel : Nat) :
    max (g.fireAll d n fuel).1.now d = max g.now d := by
  induction fuel generalizing g n with
  | zero => rfl
  | succ fuel ih =>
    cases due : g.queue.pop d with
    | mk q found =>
      cases found with
      | none => rw [fireAll_of_none due]
      | some e =>
        have hnow : (g.fireNext q e).now = max g.now e.due :=
          (congrArg Clock.now (clock_fire _ e)).trans (h.now_advanceTo e.due)
        rw [fireAll_of_some due, ih (h.fireNext hd due), hnow, Nat.max_assoc,
          Nat.max_eq_right (h.queue.pop_some due).2.2]

/-- **What the clock shows after a request.** -/
theorem now_perform (h : g.Paced) (paced : ∀ moment, op ≠ .setClock moment) :
    (g.perform op).now = max g.now op.reach := by
  have hsame : (g.perform op).clock = g.clock → op.reach = 0 →
      (g.perform op).now = max g.now op.reach := fun hclock hreach => by
    rw [hreach, Nat.max_eq_left (Nat.zero_le _)]
    exact congrArg Clock.now hclock
  cases op with
  | spawn | locate | revive => exact hsame rfl rfl
  | apply r =>
    refine hsame ?_ rfl
    simp only [Engine.perform, Engine.apply]
    split
    · rfl
    · exact clock_applyTemplate g _ r
  | applySkill caster target skill => exact hsame (clock_applyEach g caster target skill _) rfl
  | dispel actor selector => exact hsame (clock_dispelFor g actor selector .cleanse) rfl
  | cancelBuff requester actor skill => exact hsame (clock_cancelBuff g requester actor skill) rfl
  | death actor => exact hsame (clock_death g actor) rfl
  | remove actor => exact hsame (clock_remove g actor) rfl
  | setClock moment => exact absurd rfl (paced moment)
  | pass ms => exact hsame (by simp [Engine.perform, Clock.pass, h.manual]) rfl
  | advanceTo deadline =>
    have hd : deadline.toNat ≤ lastMoment := Nat.le_pred_of_lt deadline.toNat_lt_size
    have hfire := h.fireAll hd 0 (g.timersUpTo deadline.toNat)
    exact (hfire.now_advanceTo deadline.toNat).trans (h.now_fireAll hd 0 _)
  | drainDue max => exact hsame (clock_drainDue g max.toNat) rfl

theorem now_le_run (h : g.Paced) {ops : List Op} (paced : ∀ moment, .setClock moment ∉ ops) :
    g.now ≤ (g.run ops).now := by
  induction ops generalizing g with
  | nil => exact Nat.le_refl _
  | cons op rest ih =>
    have hop : ∀ moment, op ≠ .setClock moment := fun moment h =>
      paced moment (h ▸ List.mem_cons_self)
    have hrest := ih (h.perform hop) fun moment hmem => paced moment (List.mem_cons_of_mem op hmem)
    rw [h.now_perform hop] at hrest
    exact (Nat.le_max_left _ _).trans hrest

end Paced

end Engine

end StatusEffects
