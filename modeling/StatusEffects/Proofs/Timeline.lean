import StatusEffects.Proofs.Agenda
import StatusEffects.Proofs.Standing
import StatusEffects.Proofs.Waiting

/-!
# The order of time

An engine over a clock moved by hand, which is moved by advancing the engine only, keeps what it has
published and what it has yet to fire on either side of the clock.  A timer tells its events under
the moment it was due, and a request under the moment the clock shows; both come to the same, since
the clock is at the timer when it fires.

## Main definitions

* `Engine.Chronological` : stamps that never decrease, none of them past the clock, and no timer
  before it.
* `Engine.Paced` : a chronological engine over a clock moved by hand.

## Main statements

* `Engine.Paced.perform` : every request but setting the clock keeps an engine paced.
* `Engine.chronological_run` : runs and replays are chronological, and advancing an engine leaves
  nothing that is due.
-/

namespace StatusEffects

namespace Engine

open TimerQueue

variable {g g' : Engine} {q : TimerQueue} {e : Entry} {es : List Entry} {d moment : Nat}

/-- The journal is in the order of time, and the clock lies between it and the pending timers. -/
structure Chronological (g : Engine) : Prop where
  ordered : g.feed.journal.toList.Pairwise fun s t => s.moment ≤ t.moment
  past : ∀ s ∈ g.feed.journal.toList, s.moment ≤ g.now
  ahead : ∀ x ∈ g.queue.pending, g.now ≤ x.due

/-- A chronological engine over a clock moved by hand. -/
structure Paced (g : Engine) : Prop extends g.Chronological where
  queue : g.queue.Sound
  manual : g.clock.manual = true
  bounded : g.now ≤ lastMoment

namespace Paced

/-- Events told under the moment that the clock shows keep the order of time, and so does a timer
that is asked for then. -/
theorem told (h : g.Paced) (events : List Event) (asked : Option Timer)
    (hclock : g'.clock = g.clock)
    (hfeed : g'.feed = g.feed.publishAll g.now events)
    (hqueue : g'.queue = settled g.queue events asked g.now) : g'.Paced := by
  have hnow : g'.now = g.now := congrArg Clock.now hclock
  have hjournal : g'.feed.journal.toList =
      g.feed.journal.toList ++ events.map (.mk g.now) := by
    rw [hfeed, Feed.journal_publishAll]
  have hnew : ∀ s ∈ events.map (Stamped.mk g.now), s.moment = g.now := by
    rintro s hs
    obtain ⟨ev, -, rfl⟩ := List.mem_map.1 hs
    rfl
  refine ⟨⟨?_, fun s hs => ?_, fun x hx => ?_⟩, ?_, ?_, ?_⟩
  · rw [hjournal, List.pairwise_append]
    refine ⟨h.ordered, List.pairwise_of_forall_mem_list fun s hs t ht => ?_, fun s hs t ht => ?_⟩
    · rw [hnew s hs, hnew t ht]
    · rw [hnew t ht]
      exact h.past s hs
  · rw [hjournal] at hs
    rw [hnow]
    rcases List.mem_append.1 hs with hs | hs
    · exact h.past s hs
    · exact (hnew s hs).le
  · rw [hqueue] at hx
    rw [hnow]
    rcases of_mem_settled h.queue hx with ⟨hx, -, -⟩ | ⟨t, -, -, hdue⟩
    · exact h.ahead x hx
    · rw [hdue]
      exact le_later _ h.bounded
  · rw [hqueue]
    exact sound_settled h.queue
  · rw [hclock]
    exact h.manual
  · rw [hnow]
    exact h.bounded

theorem congr (h : g.Paced) (hclock : g'.clock = g.clock) (hfeed : g'.feed = g.feed)
    (hqueue : g'.queue = g.queue) : g'.Paced :=
  h.told [] none hclock (by rw [hfeed, Feed.publishAll_nil]) hqueue

theorem now_advanceTo (h : g.Paced) (moment : Nat) :
    (g.clock.advanceTo moment).now = max g.now moment := by
  simp [Clock.advanceTo, h.manual, now]

/-- The clock may be set forward as long as no timer is left behind. -/
theorem setClock (h : g.Paced) (hmoment : moment ≤ lastMoment)
    (late : ∀ x ∈ g.queue.pending, moment ≤ x.due) :
    ({ g with clock := g.clock.advanceTo moment } : Engine).Paced := by
  have hnow := h.now_advanceTo moment
  refine ⟨⟨h.ordered, fun s hs => ?_, fun x hx => ?_⟩, h.queue, ?_, ?_⟩
  · exact (h.past s hs).trans (g.clock.le_advanceTo moment)
  · exact hnow.le.trans (Nat.max_le.2 ⟨h.ahead x hx, late x hx⟩)
  · simp [Clock.advanceTo, h.manual]
  · exact hnow.le.trans (Nat.max_le.2 ⟨h.bounded, hmoment⟩)

/-! ### Timers -/

theorem take (h : g.Paced) (due : g.queue.pop d = (q, some e)) :
    ({ g with queue := q } : Engine).Paced := by
  obtain ⟨hqueue, hpending, -⟩ := h.queue.pop_some due
  refine ⟨⟨h.ordered, h.past, fun x hx => h.ahead x ?_⟩, hqueue, h.manual, h.bounded⟩
  exact hpending ▸ List.mem_cons_of_mem e hx

/-- A timer that fires at the moment it was due is told of under the moment that the clock shows. -/
theorem fire (h : g.Paced) (hdue : e.due = g.now) : (g.fire e).Paced := by
  obtain ⟨-, hfeed, hqueue, -⟩ := fire_eq g e
  rw [hdue] at hfeed hqueue
  exact h.told _ _ (clock_fire g e) hfeed hqueue

theorem fireNext (h : g.Paced) (hd : d ≤ lastMoment) (due : g.queue.pop d = (q, some e)) :
    (g.fireNext q e).Paced := by
  obtain ⟨-, hpending, hdue⟩ := h.queue.pop_some due
  have hmem : e ∈ g.queue.pending := hpending ▸ List.mem_cons_self
  have hset := (h.take due).setClock (hdue.trans hd) fun x hx =>
    h.queue.due_le_of_pop due (hpending ▸ List.mem_cons_of_mem e hx)
  -- the clock is moved to the timer and not past it
  have hnow : e.due = (g.clock.advanceTo e.due).now := by
    rw [h.now_advanceTo, Nat.max_eq_right (h.ahead e hmem)]
  exact hset.fire hnow

theorem fireAll (h : g.Paced) (hd : d ≤ lastMoment) (n fuel : Nat) :
    (g.fireAll d n fuel).1.Paced := by
  induction fuel generalizing g n with
  | zero => exact h
  | succ fuel ih =>
    cases due : g.queue.pop d with
    | mk q found =>
      cases found with
      | none =>
        rw [fireAll_of_none due]
        exact h
      | some e =>
        rw [fireAll_of_some due]
        exact ih (h.fireNext hd due) (n + 1)

/-- **Advancing keeps the order of time**, up to the end of time. -/
theorem advanceTo (h : g.Paced) (hd : d ≤ lastMoment) : (g.advanceTo d).1.Paced := by
  have hfire := h.fireAll hd 0 (g.timersUpTo d)
  refine hfire.setClock hd fun x hx => ?_
  cases d with
  | zero => exact Nat.zero_le _
  | succ a =>
    -- at the end of time the loop may stop before its timers do, but not before the earlier ones
    have hfuel : g.queue.allowance a ≤ g.timersUpTo (a + 1) :=
      (allowance_le h.queue a).trans (Nat.mul_le_mul_right _ (Nat.le_succ _))
    exact late_fireAll h.queue hd (Nat.le_succ a) 0 hfuel x hx

theorem fires (h : g.Paced) (hdue : ∀ e ∈ es, e.due = g.now) : (es.foldl Engine.fire g).Paced := by
  induction es generalizing g with
  | nil => exact h
  | cons e rest ih =>
    have hnow : (g.fire e).now = g.now := congrArg Clock.now (clock_fire g e)
    refine ih (h.fire (hdue e List.mem_cons_self)) fun x hx => ?_
    rw [hnow]
    exact hdue x (List.mem_cons_of_mem e hx)

/-- What is due by now is due right now, so that a batch tells all of it under this moment. -/
theorem drainDue (h : g.Paced) (max : Nat) : (g.drainDue max).1.Paced := by
  obtain ⟨hqueue, -, hpending, htaken⟩ := popDue_eq h.queue g.now max
  have hrest : ({ g with queue := (g.queue.popDue g.now max).1 } : Engine).Paced := by
    refine ⟨⟨h.ordered, h.past, fun x hx => h.ahead x ?_⟩, hqueue, h.manual, h.bounded⟩
    rw [hpending]
    exact List.mem_append_right _ hx
  have hdue : ∀ e ∈ (g.queue.popDue g.now max).2, e.due = g.now := fun e he => by
    refine Nat.le_antisymm ?_ (h.ahead e (hpending ▸ List.mem_append_left _ he))
    rw [htaken] at he
    simpa using List.of_mem_filter (List.mem_of_mem_take he)
  exact hrest.fires hdue

/-! ### Requests -/

theorem applyTemplate (h : g.Paced) (t : Template) (r : Request) :
    (g.applyTemplate t r).1.Paced := by
  cases passed : g.gate t r with
  | error refusal => rwa [applyTemplate_of_error passed]
  | ok a =>
    obtain ⟨-, hfeed, -⟩ := applyTemplate_of_gate passed
    exact h.told _ _ (clock_applyTemplate g t r) hfeed (queue_applyTemplate passed)

theorem applyEach (h : g.Paced) (caster target : ActorId) (skill : Skill) (ts : List Template) :
    (g.applyEach caster target skill ts).1.Paced := by
  induction ts generalizing g with
  | nil => exact h
  | cons t rest ih => exact ih (h.applyTemplate t _)

theorem dispelFor (h : g.Paced) (actor : ActorId) (selector : Selector) (cause : Cause) :
    (g.dispelFor actor selector cause).1.Paced := by
  simp only [Engine.dispelFor]
  cases g.world.get? actor with
  | none => exact h
  | some a => exact h.told (a.bearer.dispel g.settings selector cause).events none rfl rfl rfl

theorem remove (h : g.Paced) (actor : ActorId) : (g.remove actor).1.Paced := by
  simp only [Engine.remove]
  cases g.world.get? actor with
  | none => exact h
  | some a => exact h.told (a.bearer.clear .actorRemoved).events none rfl rfl rfl

/-- **Every request but setting the clock keeps the order of time.** -/
theorem perform (h : g.Paced) {op : Op} (paced : ∀ moment, op ≠ .setClock moment) :
    (g.perform op).Paced := by
  cases op with
  | spawn | locate | revive => exact h.congr rfl rfl rfl
  | apply r =>
    simp only [Engine.perform, Engine.apply]
    cases g.codex.get? r.template with
    | none => exact h
    | some t => exact h.applyTemplate t r
  | applySkill caster target skill => exact h.applyEach caster target skill _
  | dispel actor selector => exact h.dispelFor actor selector .cleanse
  | cancelBuff requester actor skill =>
    simp only [Engine.perform, cancelBuff]
    split_ifs
    · exact h.dispelFor actor _ _
    · exact h
  | death actor =>
    simp only [Engine.perform, death]
    split_ifs
    · have hdead : ({ g with world := g.world.modifyProfile actor fun p =>
          { p with alive := false } } : Engine).Paced := h.congr rfl rfl rfl
      exact hdead.dispelFor actor _ _
    · exact h
  | remove actor => exact h.remove actor
  | setClock moment => exact absurd rfl (paced moment)
  | pass ms => exact h.congr (by simp [Engine.perform, Clock.pass, h.manual]) rfl rfl
  | advanceTo deadline =>
    exact h.advanceTo (Nat.le_pred_of_lt deadline.toNat_lt_size)
  | drainDue max => exact h.drainDue max.toNat

theorem run (h : g.Paced) {ops : List Op} (paced : ∀ moment, .setClock moment ∉ ops) :
    (g.run ops).Paced := by
  induction ops generalizing g with
  | nil => exact h
  | cons op rest ih =>
    refine ih (h.perform fun moment hop => paced moment ?_) fun moment hmem =>
      paced moment (List.mem_cons_of_mem op hmem)
    exact hop ▸ List.mem_cons_self

end Paced

theorem paced_opened (settings : Settings) (codex : Codex) (start : UInt64) (capacity : Nat) :
    (opened settings codex start true capacity).Paced where
  ordered := .nil
  past _ hs := nomatch hs
  ahead _ hx := nomatch hx
  queue := sound_empty
  manual := rfl
  bounded := Nat.le_pred_of_lt start.toNat_lt_size

theorem paced_run (settings : Settings) (codex : Codex) (start : UInt64) (capacity : Nat)
    {ops : List Op} (paced : ∀ moment, .setClock moment ∉ ops) :
    ((opened settings codex start true capacity).run ops).Paced :=
  (paced_opened settings codex start capacity).run paced

/-- **Time runs one way.**  After every run in which the clock, moved by hand, is moved by advancing
the engine only, the stamps of what has been published never decrease, none of them is past the
clock, and no pending timer is due before the clock; and advancing to any moment but the last leaves
the clock there, or later, and no timer that is due by then.  Every replay without workers is such a
run. -/
theorem chronological_run :
    (∀ (settings : Settings) (codex : Codex) (start : UInt64) (capacity : Nat) (ops : List Op),
      (∀ moment, .setClock moment ∉ ops) →
      let g := (opened settings codex start true capacity).run ops
      g.Chronological ∧ ∀ d : UInt64, d.toNat < lastMoment →
        let g' := g.perform (.advanceTo d)
        g'.now = max g.now d.toNat ∧ ∀ x ∈ g'.queue.pending, d.toNat < x.due) ∧
    ∀ (c : Service.Config) (codex : Codex) (start : UInt64) (roster : List Profile) (s : Service)
      (sc : Scenario), Service.build c (some codex) ⟨start.toNat, true⟩ roster = .ok s →
      c.workers = 0 → (s.replay sc).1.engine.Chronological := by
  constructor
  · intro settings codex start capacity ops paced g
    have hg : g.Paced := paced_run settings codex start capacity paced
    refine ⟨hg.toChronological, fun d hd => ⟨?_, (late_advanceTo hg.queue hd).2⟩⟩
    exact (congrArg Clock.now (clock_advanceTo hg.queue hd)).trans (hg.now_advanceTo d.toNat)
  · intro c codex start roster s sc hbuild hworkers
    obtain ⟨hengine, hidle⟩ := Service.engine_build hbuild
    obtain ⟨ops, hrun, hclock⟩ := Service.exists_run_replay (hidle hworkers) sc
    rw [hrun, hengine, ← run_append]
    refine (paced_run c.settings codex start _ fun moment hmem => ?_).toChronological
    rcases List.mem_append.1 hmem with hmem | hmem
    · obtain ⟨p, -, hp⟩ := List.mem_map.1 hmem
      cases hp
    · exact hclock moment hmem

/-- A hold ticks on both sides of a haste, and its third tick is yet to come. -/
theorem chronological_run_hold :
    let ops : List Op := [.enter 1, .cast 1 3, .advanceTo 700, .cast 1 1, .advanceTo 1200]
    let g := (opened {} trialCodex 0 true 1).run ops
    let c : Service.Config := { workers := 0 }
    g.Chronological ∧ g.feed.journal.toList.map (·.moment) = [0, 500, 700, 1000] ∧ g.now = 1200 ∧
      (g.perform (.advanceTo 1600)).now = 1600 ∧
      (∀ x ∈ (g.perform (.advanceTo 1600)).queue.pending, 1600 < x.due) ∧
      ∃ s, Service.build c (some trialCodex) {} [{ id := ⟨1⟩ }] = .ok s ∧
        (s.replay ⟨"hold", [], [.cast ⟨1⟩ ⟨1⟩ ⟨2⟩ 1 0, .wait 700]⟩).1.engine.Chronological := by
  intro ops g c
  have paced : ∀ moment, .setClock moment ∉ ops := by simp [ops, Op.enter, Op.cast]
  obtain ⟨hg, hadvance⟩ := chronological_run.1 {} trialCodex 0 1 ops paced
  obtain ⟨hnow, hlate⟩ := hadvance 1600 (by decide)
  have hclock : g.now = 1200 := by decide +kernel
  refine ⟨hg, by decide +kernel, hclock, ?_, hlate, _, rfl, ?_⟩
  · change (g.perform (.advanceTo 1600)).now = max g.now 1600 at hnow
    rw [hnow, hclock]
    rfl
  · exact chronological_run.2 c trialCodex 0 [{ id := ⟨1⟩ }] _ _ rfl rfl

end Engine

end StatusEffects
