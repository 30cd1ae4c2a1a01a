import StatusEffects.Engine.View
import StatusEffects.Proofs.Aging
import StatusEffects.Proofs.Purpose

/-!
# The balance of the counts

What an engine counts about its timers is kept apart from what it tells of its effects and from what
it answers to requests, and yet the three agree.  Every timer that fires is counted once, as met or
as stale.  One that meets its effect makes it tick or expire, and so it shows in the log; nothing
that is done on request ever looks like that.

## Main definitions

* `Event.isExpiry`, `Event.isSilentExpiry` : the ends that timers bring about.
* `Metrics.Tallies` : the counts agree with a log.
* `Engine.reportedBy`, `Engine.reportedIn` : the timers that requests report to have fired.
* `Engine.Balanced` : the invariant of engines on the way.

## Main statements

* `Metrics.Tallies.reply` : a timer is counted as its effect answers it.
* `Engine.Balanced.act` : acts keep the balance.
* `Engine.total_run` : the timers that are counted are those that are reported.
* `Engine.balance_run` : the balance after every run.
-/

namespace StatusEffects

/-- Whether the codex has the template under a key and effects of it do not tick. -/
def Codex.isSilent (c : Codex) (id : TemplateId) : Bool := (c.get? id).any fun t => !t.isPeriodic

namespace Event

/-- Whether the event tells that an effect has expired. -/
def isExpiry : Event → Bool
  | .ended _ _ reason => reason == .expired
  | .started _ _ | .refreshed _ _ | .ticked _ _ _ => false

/-- Whether the event tells that an effect has expired which does not tick. -/
def isSilentExpiry (codex : Codex) (ev : Event) : Bool :=
  ev.isExpiry && codex.isSilent ev.effect.template

variable {codex : Codex} {ev : Event}

theorem not_isTick_of_bidden (h : ev.isUnbidden = false) : ev.isTick = false := by
  cases ev with
  | ticked => cases h
  | started | refreshed | ended => rfl

theorem not_isExpiry_of_bidden (h : ev.isUnbidden = false) : ev.isExpiry = false := by
  cases ev with
  | ended => exact h
  | started | refreshed | ticked => rfl

theorem not_isSilentExpiry_of_bidden (h : ev.isUnbidden = false) :
    ev.isSilentExpiry codex = false := by
  simp [isSilentExpiry, not_isExpiry_of_bidden h]

end Event

/-- Effects of a template of the codex tick, or they are silent. -/
theorem Codex.isSilent_eq {codex : Codex} {t : Template} (known : t ∈ codex.templates) :
    codex.isSilent t.id = !t.isPeriodic := by
  have hget : codex.get? t.id = some t := (find?_key_eq_some_iff codex.ids_nodup).2 ⟨known, rfl⟩
  rw [isSilent, hget, Option.any_some]

/-- A timer for an end is for an effect that does not tick. -/
theorem Effect.Serves.silent {unit : UInt64} {codex : Codex} {log : List Event} {x : Timer}
    {e : Effect} (h : e.Serves unit codex log x) (hactive : e.isActive = true)
    (expire : x.kind = .expire) : e.template.isPeriodic = false := by
  cases h with
  | current needed meets =>
    cases hperiodic : e.template.isPeriodic with
    | false => rfl
    | true =>
      rw [timer?_of_periodic hactive hperiodic] at needed
      obtain rfl := Option.some.inj needed
      cases expire.symm.trans meets.kind
  | left needless => exact ((timer?_eq_none_iff hactive).1 needless).1

/-! ### Counts and logs -/

namespace Metrics

variable {codex : Codex} {log more : List Event} {m m' : Metrics} {unit : UInt64} {t : Timer}
  {e : Effect} {r : Reply}

/-- The counts of timers fired, whatever number of timers was pending. -/
def counts (m : Metrics) : Metrics := { m with peak := 0 }

/-- The number of timers fired, whether or not they met their effect. -/
def total (m : Metrics) : Nat := m.fired + m.stale

theorem counts_eq_iff : m'.counts = m.counts ↔ m'.fired = m.fired ∧ m'.stale = m.stale ∧
    m'.rescheduled = m.rescheduled ∧ m'.ended = m.ended := by
  simp [counts]

theorem total_eq_of_counts (h : m'.counts = m.counts) : m'.total = m.total := by
  obtain ⟨hfired, hstale, -, -⟩ := counts_eq_iff.1 h
  rw [total, hfired, hstale, total]

theorem total_record (m : Metrics) (f : Firing) : (m.record f).total = m.total + 1 := by
  cases f with
  | stale => rfl
  | rescheduled | ended => exact Nat.succ_add m.fired m.stale

theorem counts_record (m : Metrics) (f : Firing) : (m.record f).counts = m.counts.record f := by
  cases f <;> rfl

/-- The counts agree with a log.  After a timer that met it an effect has asked for another one or
is over, and has told of a tick or, where it does not tick, of its end. -/
structure Tallies (codex : Codex) (log : List Event) (m : Metrics) : Prop where
  split : m.fired = m.rescheduled + m.ended
  ended : m.ended = log.countP Event.isExpiry
  fired : m.fired = log.countP Event.isTick + log.countP (Event.isSilentExpiry codex)

namespace Tallies

/-- Counts and log go on together: `n` more timers have led to others, and `k` more to an end. -/
theorem append {n k : Nat} (h : m.Tallies codex log)
    (rescheduled : m'.rescheduled = m.rescheduled + n) (ended : m'.ended = m.ended + k)
    (fired : m'.fired = m.fired + (n + k)) (expiries : more.countP Event.isExpiry = k)
    (turns : more.countP Event.isTick + more.countP (Event.isSilentExpiry codex) = n + k) :
    m'.Tallies codex (log ++ more) := by
  obtain ⟨hsplit, hended, hfired⟩ := h
  refine ⟨?_, ?_, ?_⟩
  · omega
  · rw [List.countP_append]
    omega
  · rw [List.countP_append, List.countP_append]
    omega

theorem congr (h : m.Tallies codex log) (same : m'.counts = m.counts) : m'.Tallies codex log := by
  obtain ⟨hfired, -, hrescheduled, hended⟩ := counts_eq_iff.1 same
  exact ⟨by rw [hfired, hrescheduled, hended, h.split], by rw [hended, h.ended],
    by rw [hfired, h.fired]⟩

/-- Events that come about on request are not counted. -/
theorem told (h : m.Tallies codex log) (bidden : ∀ ev ∈ more, ev.isUnbidden = false) :
    m.Tallies codex (log ++ more) := by
  have hnone : ∀ q : Event → Bool, (∀ ev, ev.isUnbidden = false → q ev = false) →
      more.countP q = 0 := fun q hq =>
    List.countP_eq_zero.2 fun ev hev => by simp [hq ev (bidden ev hev)]
  have hexpiries := hnone Event.isExpiry fun _ => Event.not_isExpiry_of_bidden
  have hticks := hnone Event.isTick fun _ => Event.not_isTick_of_bidden
  have hsilent := hnone (Event.isSilentExpiry codex) fun _ => Event.not_isSilentExpiry_of_bidden
  exact h.append (n := 0) (k := 0) rfl rfl rfl hexpiries (by rw [hticks, hsilent])

/-- **A timer is counted as its effect answers it.** -/
theorem reply (h : m.Tallies codex log) (replies : e.Replies unit t r)
    (known : e.template ∈ codex.templates)
    (silent : t.kind = .expire → e.template.isPeriodic = false) (id : ActorId) :
    (m.record r.answer).Tallies codex (log ++ r.events id e) := by
  have htemplate : codex.isSilent e.template.id = !e.template.isPeriodic := Codex.isSilent_eq known
  have hexpiry : ∀ s : Summary, s.template = e.template.id →
      Event.isSilentExpiry codex (.ended id s .expired) = !e.template.isPeriodic := fun s hs => by
    rw [← htemplate, ← hs]
    rfl
  cases replies with
  | stale => exact h.append (n := 0) (k := 0) rfl rfl rfl rfl rfl
  | again => exact h.append (n := 1) (k := 0) rfl rfl rfl rfl rfl
  | last heeded tick _ =>
    -- it is the tick that is counted, as the effect is not silent
    obtain ⟨-, -, hperiodic⟩ := Effect.heeds_iff.1 heeded
    have hticks : Event.isSilentExpiry codex (.ended id e.countTick.summary .expired) = false := by
      rw [hexpiry _ rfl, hperiodic tick, Bool.not_true]
    refine h.append (n := 0) (k := 1) rfl rfl rfl rfl ?_
    simp only [Reply.events, List.countP_cons, hticks]
    rfl
  | ends _ expire =>
    have hsilent : Event.isSilentExpiry codex (.ended id e.summary .expired) = true := by
      rw [hexpiry _ rfl, silent expire, Bool.not_false]
    refine h.append (n := 0) (k := 1) rfl rfl rfl rfl ?_
    simp only [Reply.events, List.countP_cons, hsilent]
    rfl

end Tallies

end Metrics

/-! ### Events that requests bring about -/

namespace Bearer

variable {b : Bearer} {ev : Event} {reason : EndReason} {ids : List EffectId}
  {incoming : Effect} {p : Profile} {settings : Settings}

theorem bidden_dropAll (unexpired : reason ≠ .expired) (h : ev ∈ (b.dropAll reason ids).2) :
    ev.isUnbidden = false := by
  obtain ⟨s, rfl, -⟩ := ended_of_dropAll h
  exact beq_eq_false_iff_ne.2 unexpired

theorem bidden_clear (unexpired : reason ≠ .expired) (h : ev ∈ (b.clear reason).events) :
    ev.isUnbidden = false := by
  obtain ⟨e, -, rfl⟩ := List.mem_map.1 h
  exact beq_eq_false_iff_ne.2 unexpired

theorem bidden_begin (pending : incoming.phase = .pending)
    (h : ev ∈ (b.begin p settings incoming).events) : ev.isUnbidden = false := by
  cases hc : incoming.contribute p b.status with
  | made s =>
    rw [begin_made pending hc] at h
    rw [List.mem_singleton.1 h]
    rfl
  | vetoed =>
    rw [begin_vetoed pending hc] at h
    rw [List.mem_singleton.1 h]
    rfl
  | failed cause =>
    rw [begin_failed pending hc] at h
    rw [List.mem_singleton.1 h]
    rfl

/-- An application has no effect tick or expire. -/
theorem bidden_apply (pending : incoming.phase = .pending)
    (h : ev ∈ (b.apply p settings incoming).events) : ev.isUnbidden = false := by
  rcases b.apply_cases p settings incoming with ⟨_, -, hb⟩ | ⟨x, _, _, rfl, hb⟩ | ⟨-, -, -, hb⟩
  · rw [hb] at h
    cases h
  · rw [hb] at h
    rw [List.mem_singleton.1 h]
    rfl
  · rw [hb] at h
    exact (List.mem_append.1 h).elim (bidden_dropAll (by decide)) (bidden_begin pending)

end Bearer

/-! ### Pending timers -/

namespace TimerQueue

variable {q q' : TimerQueue} {x : Entry} {now : Nat}

theorem size_unlist_le (q : TimerQueue) (k : ActorId × EffectId) : (q.unlist k).size ≤ q.size :=
  List.length_filter_le _ _

theorem size_cancel_le (q : TimerQueue) (k : ActorId × EffectId) :
    (q.cancel k).1.size ≤ q.size := by
  simp only [cancel]
  split
  · have hcompact : (q.unlist k).compact.size = (q.unlist k).size := by
      simp only [compact]
      split <;> rfl
    exact hcompact ▸ q.size_unlist_le k
  · exact Nat.le_refl _

theorem size_pop_le (h : q.pop now = (q', some x)) : q'.size ≤ q.size := by
  obtain ⟨rest, -, -, rfl⟩ := pop_some_eq h
  exact size_unlist_le _ _

end TimerQueue

namespace Engine

open Bearer

variable {g g' : Engine} {taken taken' : List Entry} {x : Entry} {actor : ActorId}

theorem size_cancelEnded_le (q : TimerQueue) (events : List Event) :
    (cancelEnded q events).size ≤ q.size := by
  induction events generalizing q with
  | nil => exact Nat.le_refl _
  | cons ev rest ih =>
    refine (ih _).trans ?_
    dsimp only
    split
    · exact q.size_cancel_le _
    · exact Nat.le_refl _

/-- The peak of the counts is no lower than the number of pending timers. -/
def Peaks (g : Engine) : Prop := g.pendingTimers ≤ g.metrics.peak

theorem peaks_schedule (g : Engine) (t : Timer) (due : Nat) : (g.schedule t due).Peaks :=
  Nat.le_max_right _ _

namespace Peaks

theorem conclude {α : Type} (h : g.Peaks) (actor : ActorId) (moment : Nat) (o : Outcome α) :
    (g.conclude actor moment o).Peaks :=
  (size_cancelEnded_le g.queue o.events).trans h

theorem scheduleFor (h : g.Peaks) (a : Admission) : (g.scheduleFor a).Peaks := by
  simp only [Engine.scheduleFor]
  split
  · exact peaks_schedule _ _ _
  · exact h

theorem reschedule (h : g.Peaks) (moment : Nat) (f : Firing) : (g.reschedule moment f).Peaks := by
  cases f with
  | rescheduled next => exact peaks_schedule _ _ _
  | stale | ended => exact h

theorem record (h : g.Peaks) (f : Firing) : (g.record f).Peaks := by
  cases f <;> exact h

theorem applyTemplate (h : g.Peaks) (t : Template) (r : Request) :
    (g.applyTemplate t r).1.Peaks := by
  simp only [Engine.applyTemplate]
  split
  · exact h
  · have hconclude := fun (a : Actor) => Peaks.conclude
      (g := { g with nextEffect := g.nextEffect + 1 }) h r.target g.now
      (a.bearer.apply a.profile g.settings (g.incoming t r))
    split
    · exact hconclude _
    · exact (hconclude _).scheduleFor _

theorem fire (h : g.Peaks) (x : Entry) : (g.fire x).Peaks := by
  simp only [Engine.fire]
  split
  · exact h.record .stale
  · exact ((h.reschedule x.due _).conclude _ _ _).record _

/-- **Acts keep the peak up.** -/
theorem act (h : g.Peaks) (hact : Act (g, taken) (g', taken')) : g'.Peaks := by
  cases hact with
  | spawn | locate | animate | setClock | pass | sweep => exact h
  | receive _ t r _ => exact h.applyTemplate t r
  | dispel _ actor selector cause =>
    simp only [dispelFor]
    split
    · exact h
    · exact h.conclude _ _ _
  | remove _ actor =>
    simp only [Engine.remove]
    split
    · exact h
    · exact (size_cancelEnded_le g.queue _).trans h
  | take _ _ due => exact (TimerQueue.size_pop_le due).trans h
  | fire _ x => exact h.fire x

end Peaks

/-! ### Acts -/

theorem counts_applyTemplate (g : Engine) (t : Template) (r : Request) :
    (g.applyTemplate t r).1.metrics.counts = g.metrics.counts :=
  (congrArg (·.metrics.counts) (frame_applyTemplate g t r)).trans rfl

theorem metrics_dispelFor (g : Engine) (actor : ActorId) (selector : Selector) (cause : Cause) :
    (g.dispelFor actor selector cause).1.metrics = g.metrics := by
  simp only [dispelFor]
  split <;> rfl

theorem metrics_remove (g : Engine) (actor : ActorId) :
    (g.remove actor).1.metrics = g.metrics := by
  simp only [remove]
  split <;> rfl

theorem counts_fire (g : Engine) (x : Entry) :
    (g.fire x).metrics.counts =
      (g.metrics.record (g.world.fire g.settings x.timer).2.2).counts :=
  (fire_eq g x).2.2.2.trans (Metrics.counts_record _ _).symm

/-- The counts of an engine agree with its log. -/
def Tallied (g : Engine) : Prop := g.metrics.Tallies g.codex g.log

/-- An operation on request leaves the counts alone and tells nothing that is counted. -/
theorem Upshot.tallied {k : ActorId} {w : World} {events : List Event} {asked : Option Timer}
    {moment : Nat} (hu : Upshot k w events asked moment g g') (h : g.Tallied)
    (same : g'.metrics.counts = g.metrics.counts) (bidden : ∀ ev ∈ events, ev.isUnbidden = false) :
    g'.Tallied := by
  rw [Tallied, hu.codex, hu.log_eq]
  exact (h.told bidden).congr same

namespace Tallied

theorem applyTemplate (h : g.Tallied) (hg : g.Sound) {t : Template}
    (known : t ∈ g.codex.templates) (r : Request) : (g.applyTemplate t r).1.Tallied := by
  cases passed : g.gate t r with
  | error refusal => rwa [applyTemplate_of_error passed]
  | ok a =>
    have hpending : (g.incoming t r).phase = .pending := rfl
    exact (upshot_applyTemplate hg known passed).tallied h (counts_applyTemplate g t r)
      fun _ hev => bidden_apply hpending hev

theorem dispelFor (h : g.Tallied) (hg : g.Sound) (actor : ActorId) (selector : Selector)
    (cause : Cause) : (g.dispelFor actor selector cause).1.Tallied := by
  cases found : g.world.get? actor with
  | none =>
    rwa [dispelFor_of_absent found]
  | some a =>
    have hcounts := congrArg Metrics.counts (metrics_dispelFor g actor selector cause)
    exact (upshot_dispelFor hg found selector cause).tallied h hcounts
      fun _ hev => bidden_dropAll (by decide) hev

theorem remove (h : g.Tallied) (hg : g.Sound) (actor : ActorId) :
    (g.remove actor).1.Tallied := by
  cases found : g.world.get? actor with
  | none =>
    rwa [remove_of_absent found]
  | some a =>
    have hcounts := congrArg Metrics.counts (metrics_remove g actor)
    exact (upshot_remove hg found).tallied h hcounts fun _ hev => bidden_clear (by decide) hev

/-- The effect of a timer ticks or expires, or the timer is stale. -/
theorem fire (h : g.Tallied) (ho : Orderly g (x :: taken)) : (g.fire x).Tallied := by
  -- there is an effect to answer the timer, as every timer taken out belongs to one
  obtain ⟨id, e, he, hkey, hserves⟩ := ho.owned x (List.mem_append_right _ List.mem_cons_self)
  obtain ⟨-, hactive, hknown, -⟩ := ho.seated he
  obtain ⟨a, -, -, hfire⟩ := world_fire_of_bears ho.sound he hkey
  have hu := upshot_fire ho.sound x
  have hcounts := counts_fire g x
  rw [hfire] at hu hcounts
  have hreplies := e.replies g.settings.expiryUnit x.timer
  have hreply := Metrics.Tallies.reply h hreplies hknown (hserves.silent hactive) id
  rw [Tallied, hu.codex, hu.log_eq]
  exact hreply.congr hcounts

theorem act (h : g.Tallied) (ho : Orderly g taken) (hact : Act (g, taken) (g', taken')) :
    g'.Tallied := by
  cases hact with
  | spawn | locate | animate | setClock | pass | sweep | take => exact h
  | receive _ t r known => exact h.applyTemplate ho.sound known r
  | dispel _ actor selector cause => exact h.dispelFor ho.sound actor selector cause
  | remove _ actor => exact h.remove ho.sound actor
  | fire => exact h.fire ho

end Tallied

/-- What the counts of an engine are like at any time, also between taking timers out of its queue
and firing them. -/
structure Balanced (g : Engine) (taken : List Entry) : Prop where
  orderly : Orderly g taken
  tallied : g.Tallied
  peaks : g.Peaks

namespace Balanced

/-- **Acts keep the balance.** -/
theorem act (h : Balanced g taken) (hact : Act (g, taken) (g', taken')) : Balanced g' taken' :=
  ⟨h.orderly.act hact, h.tallied.act h.orderly hact, h.peaks.act hact⟩

theorem acts {s s' : Engine × List Entry} (h : Balanced s.1 s.2) (hacts : Acts s s') :
    Balanced s'.1 s'.2 := by
  induction hacts with
  | refl => exact h
  | tail _ hact ih => exact ih.act hact

end Balanced

theorem balanced_opened (settings : Settings) (codex : Codex) (start : UInt64) (manual : Bool)
    (capacity : Nat) : Balanced (opened settings codex start manual capacity) [] where
  orderly := orderly_opened settings codex start manual capacity
  tallied := ⟨rfl, rfl, rfl⟩
  peaks := Nat.le_refl 0

/-! ### Reports -/

/-- The number of timers that a request reports to have fired.  Requests that are not for time
report none. -/
def reportedBy (g : Engine) : Op → Nat
  | .advanceTo deadline => (g.advanceTo deadline.toNat).2
  | .drainDue max => (g.drainDue max.toNat).2
  | _ => 0

/-- The number of timers that are reported to have fired in the course of a list of requests. -/
def reportedIn (g : Engine) : List Op → Nat
  | [] => 0
  | op :: rest => g.reportedBy op + (g.perform op).reportedIn rest

theorem total_applyTemplate (g : Engine) (t : Template) (r : Request) :
    (g.applyTemplate t r).1.metrics.total = g.metrics.total :=
  Metrics.total_eq_of_counts (counts_applyTemplate g t r)

theorem total_applyEach (g : Engine) (caster target : ActorId) (skill : Skill)
    (ts : List Template) :
    (g.applyEach caster target skill ts).1.metrics.total = g.metrics.total := by
  induction ts generalizing g with
  | nil => rfl
  | cons t rest ih => exact (ih _).trans (total_applyTemplate g t _)

theorem total_dispelFor (g : Engine) (actor : ActorId) (selector : Selector) (cause : Cause) :
    (g.dispelFor actor selector cause).1.metrics.total = g.metrics.total :=
  congrArg Metrics.total (metrics_dispelFor g actor selector cause)

theorem total_fire (g : Engine) (x : Entry) :
    (g.fire x).metrics.total = g.metrics.total + 1 :=
  (Metrics.total_eq_of_counts (counts_fire g x)).trans (Metrics.total_record _ _)

theorem total_fires (g : Engine) (es : List Entry) :
    (es.foldl fire g).metrics.total = g.metrics.total + es.length := by
  induction es generalizing g with
  | nil => rfl
  | cons x rest ih =>
    rw [List.foldl_cons, ih, total_fire, List.length_cons]
    omega

theorem total_drainDue (g : Engine) (max : Nat) :
    (g.drainDue max).1.metrics.total = g.metrics.total + (g.drainDue max).2 :=
  total_fires { g with queue := (g.queue.popDue g.now max).1 } _

theorem total_fireAll (g : Engine) (deadline fired fuel : Nat) :
    (g.fireAll deadline fired fuel).1.metrics.total + fired =
      g.metrics.total + (g.fireAll deadline fired fuel).2 := by
  induction fuel generalizing g fired with
  | zero => rfl
  | succ fuel ih =>
    cases due : g.queue.pop deadline with
    | mk queue found =>
      cases found with
      | none => rw [fireAll_of_none due]
      | some x =>
        have hfirst : (g.fireNext queue x).metrics.total = g.metrics.total + 1 :=
          total_fire { g with queue, clock := g.clock.advanceTo x.due } x
        have hrest := ih (g.fireNext queue x) (fired + 1)
        rw [fireAll_of_some due]
        omega

theorem total_advanceTo (g : Engine) (deadline : Nat) :
    (g.advanceTo deadline).1.metrics.total = g.metrics.total + (g.advanceTo deadline).2 :=
  total_fireAll g deadline 0 (g.timersUpTo deadline)

/-- **A request counts the timers that it reports.** -/
theorem total_perform (g : Engine) (op : Op) :
    (g.perform op).metrics.total = g.metrics.total + g.reportedBy op := by
  cases op with
  | spawn | locate | revive | setClock | pass => rfl
  | apply r =>
    simp only [perform, apply, reportedBy]
    split
    · rfl
    · exact total_applyTemplate g _ r
  | applySkill caster target skill => exact total_applyEach g caster target skill _
  | dispel actor selector => exact total_dispelFor g actor selector .cleanse
  | cancelBuff requester actor skill =>
    simp only [perform, cancelBuff, reportedBy]
    split
    · exact total_dispelFor g actor (.skill skill) .voluntary
    · rfl
  | death actor =>
    simp only [perform, death, reportedBy]
    split
    · exact total_dispelFor _ actor .all .death
    · rfl
  | remove actor => exact congrArg Metrics.total (metrics_remove g actor)
  | advanceTo deadline => exact total_advanceTo g deadline.toNat
  | drainDue max => exact total_drainDue g max.toNat

theorem total_run (g : Engine) (ops : List Op) :
    (g.run ops).metrics.total = g.metrics.total + g.reportedIn ops := by
  induction ops generalizing g with
  | nil => rfl
  | cons op rest ih =>
    have hrun : g.run (op :: rest) = (g.perform op).run rest := rfl
    rw [hrun, ih, total_perform, reportedIn, Nat.add_assoc]

/-- **The balance of the counts.**  After every run over an empty world the timers counted as met or
stale are as many as requests have reported to have fired.  Those that met their effect have led to
another timer or to an end, the latter as often as the log tells that an effect has expired; and
they are as many as it has ticks, together with the expiries of effects that do not tick.  No more
timers are pending than the peak says. -/
theorem balance_run (settings : Settings) (codex : Codex) (start : UInt64) (manual : Bool)
    (capacity : Nat) (ops : List Op) :
    let g₀ := opened settings codex start manual capacity
    let g := g₀.run ops
    g₀.reportedIn ops = g.metrics.fired + g.metrics.stale ∧
      g.metrics.fired = g.metrics.rescheduled + g.metrics.ended ∧
      g.metrics.ended = g.log.countP Event.isExpiry ∧
      g.metrics.fired = g.log.countP Event.isTick + g.log.countP (Event.isSilentExpiry codex) ∧
      g.pendingTimers ≤ g.metrics.peak := by
  intro g₀ g
  have hbalanced : Balanced g [] :=
    Balanced.acts (s := (g₀, [])) (balanced_opened settings codex start manual capacity)
      (acts_run g₀ ops)
  have hcodex : g.codex = codex :=
    codex_steps (steps_run (sound_opened settings codex start manual capacity) ops)
  have htotal : g.metrics.total = 0 + g₀.reportedIn ops := total_run g₀ ops
  obtain ⟨hsplit, hended, hfired⟩ := hbalanced.tallied
  rw [hcodex] at hfired
  rw [Nat.zero_add] at htotal
  exact ⟨htotal.symm, hsplit, hended, hfired, hbalanced.peaks⟩

/-- A hold that ticks four times and a haste that expires. -/
example :
    let ops := [.enter 1, .cast 1 3, .cast 1 1, .advanceTo 1000, .pass 500, .drainDue 1,
      .advanceTo 20000]
    (opened {} trialCodex 0 true 1).reportedIn ops = 5 ∧
      ((opened {} trialCodex 0 true 1).run ops).metrics =
        { fired := 5, rescheduled := 3, ended := 2, peak := 2 } := by
  decide +kernel

end Engine

end StatusEffects
