import StatusEffects.Engine.View
import StatusEffects.Proofs.Course
import StatusEffects.Proofs.Generation
import StatusEffects.Proofs.Overdue
import Mathlib.Algebra.Order.Floor.Div

/-!
# The countdown of effects

What clients are told of an effect counts down.  For an effect that ticks it is the number of ticks
that are left, which the effect keeps itself.  For another one it is read off the timer for its
end, in units of duration from now on, where a begun unit counts.  Over a clock that is moved by
advancing the engine only, both agree with the last cast: the timer is due when the duration since
then is over, and it has fired once the clock gets there, so that an effect that is still told of
has some of its duration left.

## Main definitions

* `Engine.remainingOf` : what is told of how long an effect lasts.
* `Engine.LastCast` : the last cast of an effect in the journal.
* `Engine.Underway` : the effect of a cast is borne still and has not been renewed.
* `Engine.Counting` : an engine that counts down what a cast has begun.

## Main statements

* `Engine.Underway.remainingOf_silent`, `Engine.Underway.remainingOf_periodic` : what is told of an
  effect that is under way.
* `Engine.Counting.perform` : requests keep an engine counting.
* `Engine.countdown_run` : what is told of every effect, after every run.
-/

namespace StatusEffects

namespace Cast

variable {c : Cast} {now now' : Nat}

/-! ### The duration of a cast -/

/-- The duration of a cast ends the effect, and does so before time ends. -/
structure Finite (c : Cast) : Prop where
  silent : c.template.isPeriodic = false
  pos : 0 < c.duration
  unit : 0 < c.unit.toNat
  fits : c.moment + c.duration * c.unit.toNat ≤ lastMoment

/-- The units of duration that are left at a moment; a begun one counts. -/
def unitsLeft (c : Cast) (now : Nat) : Nat := (c.endAt - now) ⌈/⌉ c.unit.toNat

theorem unitsLeft_anti (c : Cast) (h : now ≤ now') : c.unitsLeft now' ≤ c.unitsLeft now := by
  simp only [unitsLeft, Nat.ceilDiv_eq_add_pred_div]
  exact Nat.div_le_div_right (by omega)

/-- An effect that goes on has not ticked more often than it is to. -/
theorem Runs.le_duration {m : Nat} {e : Effect} (hr : c.Runs m e) (pos : 0 < c.duration) :
    m ≤ c.duration := by
  have hunfinished := hr.unfinished
  simp only [total] at hunfinished
  split_ifs at hunfinished
  · have hlt : m < 1 := hunfinished.resolve_left id
    omega
  · omega

namespace Finite

theorem endAt_eq (h : c.Finite) : c.endAt = c.moment + c.duration * c.unit.toNat :=
  Nat.min_eq_left h.fits

theorem lt_endAt (h : c.Finite) : c.moment < c.endAt := by
  rw [h.endAt_eq]
  exact Nat.lt_add_of_pos_right (Nat.mul_pos h.pos h.unit)

/-- At the moment of the cast the whole duration is left. -/
theorem unitsLeft_moment (h : c.Finite) : c.unitsLeft c.moment = c.duration := by
  rw [unitsLeft, h.endAt_eq, Nat.add_sub_cancel_left, Nat.mul_comm, ← smul_eq_mul,
    smul_ceilDiv h.unit]

theorem unitsLeft_le (h : c.Finite) (since : c.moment ≤ now) : c.unitsLeft now ≤ c.duration :=
  h.unitsLeft_moment ▸ c.unitsLeft_anti since

/-- As long as the duration is not over a unit is left. -/
theorem unitsLeft_pos (h : c.Finite) (before : now < c.endAt) : 0 < c.unitsLeft now := by
  by_contra hzero
  have hle := (ceilDiv_le_iff_le_mul h.unit).1 (Nat.le_of_not_lt hzero)
  omega

end Finite

/-- What is told to be left of the effect of a cast, at a moment and after a number of ticks. -/
structure Counted (c : Cast) (now ticks left : Nat) : Prop where
  /-- An effect that its duration ends has the units left from now on, a begun one included. -/
  units : c.Finite → left = (c.moment + c.duration * c.unit.toNat - now) ⌈/⌉ c.unit.toNat
  /-- At the moment of the cast that is the whole duration. -/
  whole : c.Finite → now = c.moment → left = c.duration
  pos : c.Finite → 1 ≤ left
  le : c.Finite → left ≤ c.duration
  /-- An effect that ticks has the ticks left that it has not had. -/
  ticks : c.template.isPeriodic = true → left + ticks = c.duration

end Cast

namespace Engine

open Bearer TimerQueue

variable {g g' : Engine} {id : ActorId} {k : EffectId} {c : Cast} {base h : List Stamped}
  {e e' : Effect} {x : Entry} {s : Stamped} {op : Op} {due : Nat}

/-! ### What is told of an effect -/

/-- What is told of how long an effect of an actor lasts: its units of duration, or its ticks. -/
def remainingOf (g : Engine) (id : ActorId) (k : EffectId) : Option Nat :=
  ((g.effects id).find? (·.id == k)).map (·.remaining.toNat)

theorem id_counted (g : Engine) (id : ActorId) (s : Summary) : (g.counted id s).id = s.id := by
  simp only [counted]
  split <;> rfl

theorem remainingOf_of_bears (he : g.Bears id e) :
    g.remainingOf id e.id = some (g.counted id e.summary).remaining.toNat := by
  obtain ⟨b, hb, hget⟩ := he
  obtain ⟨a, found, rfl⟩ := Option.map_eq_some_iff.1 hb
  have hfind : a.bearer.list.effects.find? (·.id == e.id) = some e := hget
  have hkey : ∀ f : Effect, f.summary.id = f.id := fun _ => rfl
  rw [remainingOf, effects, found]
  simp only [EffectList.summaries, List.map_map, List.find?_map, Function.comp_def, id_counted,
    hkey, hfind, Option.map_some]

/-- The moment told for an end is that of a timer for an end. -/
theorem expiryOf_eq_some_iff {q : TimerQueue} (hq : q.Sound) {key : ActorId × EffectId} :
    q.expiryOf key = some due ↔
      ∃ x ∈ q.pending, x.key = key ∧ x.timer.kind = .expire ∧ x.due = due := by
  simp only [expiryOf, Option.bind_eq_some_iff, find?_eq_some_iff hq]
  constructor
  · rintro ⟨-, ⟨x, hx, hkey, rfl⟩, hdue⟩
    split_ifs at hdue with hkind
    exact ⟨x, hx, hkey, hkind, Option.some.inj hdue⟩
  · rintro ⟨x, hx, hkey, hkind, hdue⟩
    exact ⟨x.live, ⟨x, hx, hkey, rfl⟩, by rw [← hdue]; exact if_pos hkind⟩

/-- The units until a moment are counted exactly, unless there are more than a word can count. -/
theorem toNat_unitsUntil (unit : 0 < g.settings.expiryUnit.toNat)
    (fits : (due - g.now) ⌈/⌉ g.settings.expiryUnit.toNat < UInt32.size) :
    (g.unitsUntil due).toNat = (due - g.now) ⌈/⌉ g.settings.expiryUnit.toNat := by
  have hmax : max g.settings.expiryUnit.toNat 1 = g.settings.expiryUnit.toNat :=
    Nat.max_eq_left unit
  have hmin := Nat.min_eq_left (Nat.le_pred_of_lt fits)
  rw [Nat.ceilDiv_eq_add_pred_div] at fits hmin ⊢
  simp only [unitsUntil, hmax]
  rw [show UInt32.size - 1 = UInt32.size.pred from rfl, hmin, UInt32.toNat_ofNat_of_lt' fits]

/-! ### Effects that are under way -/

/-- The effect of a cast is borne still, after the news `h` about it, and has not been renewed. -/
structure Underway (c : Cast) (id : ActorId) (k : EffectId) (base : List Stamped) (g : Engine)
    (e : Effect) (h : List Stamped) : Prop where
  bears : g.Bears id e
  key : e.id = k
  runs : c.Runs h.length e
  news : g.news (id, k) = base ++ h
  beats : h.map Stamped.beat = c.beats h.length
  timers : ∀ x ∈ g.queue.pending, x.key = (id, k) → e.heeds x.timer = true →
    (∃ t, e.timer? c.unit = some t ∧ x.timer.Meets t) ∧ x.due = c.dueAt h.length

/-- An effect that is borne still and has not been renewed is under way. -/
theorem Course.underway (ho : Orderly g []) (hc : Course c id k base g []) (he : g.Bears id e)
    (key : e.id = k) (news : g.news (id, k) = base ++ h)
    (latest : ∀ s ∈ h, s.event.isRefresh = false) : Underway c id k base g e h := by
  cases hc with
  | @runs m f h' bears key' hr news' beats timers =>
    obtain rfl := List.append_cancel_left (news.symm.trans news')
    obtain rfl := he.unique bears (key'.trans key.symm)
    obtain rfl := Cast.length_of_beats beats
    exact ⟨bears, key', hr, news', beats, fun x hx => timers x (List.mem_append_left _ hx)⟩
  | @ended m h' s news' _ ends =>
    -- nothing that has ended is borne
    have hs : s ∈ g.news (id, k) := by
      rw [news']
      exact List.mem_append_right _ (List.mem_append_right _ List.mem_cons_self)
    have hnone := (running_of_bears ho.chronicled he).endReason_eq_none
      (key ▸ mem_history_of_news hs)
    exact absurd hnone ends.endReason_ne_none
  | @renewed h' s news' mem refresh =>
    obtain rfl := List.append_cancel_left (news.symm.trans news')
    rw [latest s mem] at refresh
    cases refresh

namespace Underway

/-- Nothing but ticks has been told of an effect that is under way. -/
theorem not_mem (hu : Underway c id k base g e h)
    (hs : s.event.endReason ≠ none ∨ s.event.isRefresh = true) : s ∉ h := by
  intro hmem
  obtain ⟨htick, hend⟩ := Cast.isTick_of_beats hu.beats hmem
  rcases hs with hs | hs
  · exact hs hend
  · cases hev : s.event with
    | ticked =>
      rw [hev] at hs
      cases hs
    | started | refreshed | ended =>
      rw [hev] at htick
      cases htick

/-- An effect that is under way has been so since the cast. -/
theorem earlier (hsteps : Steps g g') (hc : Course c id k base g [])
    (hu : Underway c id k base g' e' h) : ∃ e h, Underway c id k base g e h := by
  obtain ⟨more, hmore, -⟩ := journal_steps hsteps
  have hnews := hu.news.symm.trans (news_of_journal hmore (id, k))
  cases hc with
  | @runs m e h' bears key hr news beats timers =>
    obtain rfl := Cast.length_of_beats beats
    exact ⟨e, h', bears, key, hr, news, beats, fun x hx => timers x (List.mem_append_left _ hx)⟩
  | @ended m h' s news _ ends =>
    rw [news, List.append_assoc] at hnews
    obtain rfl := List.append_cancel_left hnews
    refine absurd ?_ (hu.not_mem (.inl ends.endReason_ne_none))
    exact List.mem_append_left _ (List.mem_append_right _ List.mem_cons_self)
  | @renewed h' s news mem refresh =>
    rw [news, List.append_assoc] at hnews
    obtain rfl := List.append_cancel_left hnews
    exact absurd (List.mem_append_left _ mem) (hu.not_mem (.inr refresh))

/-- An effect that is ended by its duration has the timer for that. -/
theorem exists_expiry (hu : Underway c id k base g e h) (ho : Orderly g [])
    (hunit : g.settings.expiryUnit = c.unit) (hf : c.Finite) :
    ∃ x ∈ g.queue.pending, x.key = (id, k) ∧ x.timer.kind = .expire ∧ x.due = c.endAt := by
  obtain ⟨t, needed⟩ := Option.isSome_iff_exists.1 (hu.runs.isSome_timer? hf.pos)
  obtain ⟨x, hx, hkey, meets⟩ := exists_timer ho.sound ho.timed hu.bears (hunit ▸ needed)
  rw [List.append_nil] at hx
  rw [hu.key] at hkey
  obtain ⟨-, hdue⟩ := hu.timers x hx hkey (Effect.heeds_of_meets needed meets)
  rw [Cast.dueAt, hf.silent] at hdue
  refine ⟨x, hx, hkey, ?_, hdue⟩
  rcases hu.runs.of_timer? needed with ⟨hperiodic, -⟩ | ⟨-, hkind, -⟩
  · rw [hf.silent] at hperiodic
    cases hperiodic
  · exact meets.kind.trans hkind

/-- **What is told of an effect that its duration ends**: the units of it that are left. -/
theorem remainingOf_silent (hu : Underway c id k base g e h) (ho : Orderly g [])
    (hunit : g.settings.expiryUnit = c.unit) (hf : c.Finite) (since : c.moment ≤ g.now) :
    g.remainingOf id k = some (c.unitsLeft g.now) := by
  have hexpiry := (expiryOf_eq_some_iff ho.timed.queue).2 (hu.exists_expiry ho hunit hf)
  have hfits := Nat.lt_of_le_of_lt (hf.unitsLeft_le since) c.params.duration.toNat_lt
  obtain rfl := hu.key
  rw [remainingOf_of_bears hu.bears, counted]
  simp only [Effect.summary, hexpiry]
  rw [toNat_unitsUntil (hunit ▸ hf.unit) (hunit ▸ hfits), hunit, Cast.unitsLeft]

/-- **What is told of an effect that ticks**: the ticks that are left. -/
theorem remainingOf_periodic (hu : Underway c id k base g e h) (ho : Orderly g [])
    (periodic : c.template.isPeriodic = true) :
    g.remainingOf id k = some (c.duration - h.length) := by
  have hnone : g.queue.expiryOf (id, k) = none := by
    refine Option.eq_none_iff_forall_ne_some.2 fun due hdue => ?_
    obtain ⟨x, hx, hkey, hkind, -⟩ := (expiryOf_eq_some_iff ho.timed.queue).1 hdue
    -- the timer of an effect that ticks is for a tick
    obtain ⟨id', f, hf, hfkey, hserves⟩ := ho.owned x (List.mem_append_left _ hx)
    obtain ⟨rfl, hid⟩ := Prod.mk.inj (hkey.symm.trans hfkey)
    obtain rfl := hu.bears.unique hf (hid.symm.trans hu.key.symm)
    have hneeded : f.timer? g.settings.expiryUnit = some _ :=
      Effect.timer?_of_periodic hu.runs.active (hu.runs.template.symm ▸ periodic)
    cases hserves with
    | current needed meets =>
      obtain rfl := Option.some.inj (hneeded.symm.trans needed)
      have htick := meets.kind
      rw [hkind] at htick
      cases htick
    | left needless =>
      rw [hneeded] at needless
      cases needless
  obtain rfl := hu.key
  rw [remainingOf_of_bears hu.bears, counted]
  simp only [Effect.summary, hnone, hu.runs.remaining]

end Underway

/-! ### Engines that count down -/

/-- An engine in which an effect keeps to the course of its cast, and is gone once its duration is
over. -/
structure Counting (c : Cast) (id : ActorId) (k : EffectId) (base : List Stamped) (g : Engine) :
    Prop where
  paced : g.Paced
  orderly : Orderly g []
  unit : g.settings.expiryUnit = c.unit
  course : Course c id k base g []
  since : c.moment ≤ g.now
  ahead : c.Finite → ∀ e h, Underway c id k base g e h → g.now < c.endAt

namespace Counting

/-- **Requests keep an engine counting**, as long as they do not set the clock. -/
theorem perform (hc : Counting c id k base g) (paced : ∀ moment, op ≠ .setClock moment) :
    Counting c id k base (g.perform op) := by
  have hacts := acts_perform g op
  have hsteps : Steps g (g.perform op) := steps_acts (s := (g, [])) hc.orderly.sound hacts
  have horderly : Orderly (g.perform op) [] := Orderly.acts (s := (g, [])) hc.orderly hacts
  have hunit : (g.perform op).settings.expiryUnit = c.unit := by
    rw [settings_steps hsteps, hc.unit]
  have hnow := hc.paced.now_perform paced
  refine ⟨hc.paced.perform paced, horderly, hunit,
    hc.course.acts (s := (g, [])) hc.orderly hc.unit hacts, ?_, fun hf e h hu => ?_⟩
  · rw [hnow]
    exact hc.since.trans (Nat.le_max_left _ _)
  · obtain ⟨e₀, h₀, hu₀⟩ := hu.earlier hsteps hc.course
    rw [hnow, Nat.max_lt]
    refine ⟨hc.ahead hf e₀ h₀ hu₀, ?_⟩
    cases op with
    | advanceTo deadline =>
      -- the timer for the end is pending still, so that it was not due
      obtain ⟨x, hx, -, expire, hdue⟩ := hu.exists_expiry horderly hunit hf
      have hdeadline := Nat.le_pred_of_lt deadline.toNat_lt_size
      rw [← hdue]
      exact late_expiry_advanceTo hc.paced.queue hdeadline expire hx
    | _ => exact Nat.zero_lt_of_lt hf.lt_endAt

theorem run (hc : Counting c id k base g) {ops : List Op}
    (paced : ∀ moment, .setClock moment ∉ ops) : Counting c id k base (g.run ops) := by
  induction ops generalizing g with
  | nil => exact hc
  | cons op rest ih =>
    refine ih (hc.perform fun moment hop => paced moment ?_) fun moment hmem =>
      paced moment (List.mem_cons_of_mem op hmem)
    exact hop ▸ List.mem_cons_self

end Counting

/-- **A request that publishes a cast has the engine count down.** -/
theorem counting_apply {r : Request} {more : List Stamped} (ho : Orderly g []) (hp : g.Paced)
    (hmore : (g.apply r).1.feed.journal.toList = g.feed.journal.toList ++ more) (hs : s ∈ more)
    (cast : s.event.isCast = true) :
    ∃ t, g.codex.get? r.template = some t ∧ g.now = s.moment ∧
      (0 < (t.resolve r.skill).duration.toNat →
        Counting ⟨t, t.resolve r.skill, s.moment, g.settings.expiryUnit⟩ s.event.actor
          s.event.effect.id ((g.apply r).1.news (s.event.actor, s.event.effect.id))
          (g.apply r).1) := by
  obtain ⟨t, known, hmoment, hcourse⟩ := course_apply ho hmore hs cast
  have hunset : ∀ moment, Op.apply r ≠ .setClock moment := fun _ => Op.noConfusion
  have hnow : (g.apply r).1.now = s.moment := by
    rw [← hmoment]
    exact (hp.now_perform hunset).trans (Nat.max_eq_left (Nat.zero_le _))
  have hacts := acts_apply g r
  refine ⟨t, known, hmoment, fun pos => ⟨hp.perform hunset, Orderly.acts (s := (g, [])) ho hacts,
    ?_, hcourse (.inl pos), hnow.ge, fun hf _ _ _ => ?_⟩⟩
  · rw [settings_steps (steps_acts (s := (g, [])) ho.sound hacts)]
  · rw [hnow]
    exact hf.lt_endAt

/-- **What is told of an effect that is under way counts down.** -/
theorem Counting.counted (hc : Counting c id k base g) (hu : Underway c id k base g e h)
    (pos : 0 < c.duration) :
    ∃ left, g.remainingOf id k = some left ∧ c.Counted g.now h.length left := by
  have htold : g.remainingOf id k = some _ := hu.key ▸ remainingOf_of_bears hu.bears
  have hsilent : c.Finite → _ = c.unitsLeft g.now := fun hf =>
    Option.some.inj (htold.symm.trans (hu.remainingOf_silent hc.orderly hc.unit hf hc.since))
  refine ⟨_, htold, fun hf => ?_, fun hf hnow => ?_, fun hf => ?_, fun hf => ?_, fun periodic => ?_⟩
  · rw [hsilent hf, Cast.unitsLeft, hf.endAt_eq]
  · rw [hsilent hf, hnow, hf.unitsLeft_moment]
  · rw [hsilent hf]
    exact hf.unitsLeft_pos (hc.ahead hf e h hu)
  · rw [hsilent hf]
    exact hf.unitsLeft_le hc.since
  · have hticks := Option.some.inj (htold.symm.trans (hu.remainingOf_periodic hc.orderly periodic))
    rw [hticks, Nat.sub_add_cancel (hu.runs.le_duration pos)]

/-! ### The last cast -/

/-- The last cast of an effect in the journal, between what was published before and since. -/
structure LastCast (g : Engine) (k : EffectId) (earlier : List Stamped) (s : Stamped)
    (rest : List Stamped) : Prop where
  published : g.feed.journal.toList = earlier ++ s :: rest
  key : s.event.effect.id = k
  cast : s.event.isCast = true
  last : ∀ y ∈ rest, y.event.effect.id = k → y.event.isCast = false

/-- An effect that is borne has a last cast, on the actor that bears it. -/
theorem exists_lastCast (ho : Orderly g []) (he : g.Bears id e) :
    ∃ earlier s rest, g.LastCast e.id earlier s rest ∧ s.event.actor = id := by
  have hrunning := running_of_bears ho.chronicled he
  let isLast : Stamped → Bool := fun s => s.event.effect.id == e.id && s.event.isCast
  have hsome : (g.feed.journal.toList.reverse.find? isLast).isSome = true := by
    obtain ⟨summary, later, hhistory, -⟩ := hrunning
    have hmem : Event.started id summary ∈ history e.id g.log := hhistory ▸ List.mem_cons_self
    obtain ⟨hlog, hid⟩ := List.mem_filter.1 hmem
    obtain ⟨s, hs, hev⟩ := List.mem_map.1 hlog
    refine List.find?_isSome.2 ⟨s, List.mem_reverse.2 hs, ?_⟩
    simp only [isLast, hev, hid, Event.isCast, Bool.and_self]
  obtain ⟨s, hfind⟩ := Option.isSome_iff_exists.1 hsome
  obtain ⟨hs, after, before, hreverse, hafter⟩ := List.find?_eq_some_iff_append.1 hfind
  simp only [isLast, Bool.and_eq_true, beq_iff_eq] at hs
  have hjournal : g.feed.journal.toList = before.reverse ++ s :: after.reverse := by
    rw [← List.reverse_reverse g.feed.journal.toList, hreverse]
    simp
  have hmem : s ∈ g.feed.journal.toList := by
    rw [hjournal]
    exact List.mem_append_right _ List.mem_cons_self
  refine ⟨_, s, _, ⟨hjournal, hs.1, hs.2, fun y hy hid => ?_⟩, ?_⟩
  · have hy := hafter y (List.mem_reverse.1 hy)
    simpa [isLast, hid] using hy
  · exact hrunning.actor_of_mem
      (List.mem_filter.2 ⟨List.mem_map_of_mem hmem, beq_iff_eq.2 hs.1⟩)

/-! ### Runs -/

theorem setClock_not_mem_casts {codex : Codex} {ops : List Op}
    (paced : ∀ moment, .setClock moment ∉ ops) (moment : UInt64) :
    .setClock moment ∉ ops.flatMap (Op.casts codex) := by
  intro hmem
  obtain ⟨op, hop, hmem⟩ := List.mem_flatMap.1 hmem
  cases op with
  | applySkill =>
    obtain ⟨t, -, ht⟩ := List.mem_map.1 hmem
    cases ht
  | _ => exact paced moment (List.mem_singleton.1 hmem ▸ hop)

/-- What follows a request that publishes the last cast of an effect counts the effect down. -/
theorem counted_apply {r : Request} {after : List Op} {more rest : List Stamped}
    (ho : Orderly g []) (hp : g.Paced)
    (hmore : (g.apply r).1.feed.journal.toList = g.feed.journal.toList ++ more) (hs : s ∈ more)
    (cast : s.event.isCast = true) (paced : ∀ moment, .setClock moment ∉ after)
    (hrest : ((g.apply r).1.run after).feed.journal.toList =
      (g.apply r).1.feed.journal.toList ++ rest)
    (last : ∀ y ∈ rest, y.event.effect.id = s.event.effect.id → y.event.isCast = false)
    (he : ((g.apply r).1.run after).Bears s.event.actor e) (hid : e.id = s.event.effect.id) :
    ∃ t, g.codex.get? r.template = some t ∧ g.now = s.moment ∧
      (0 < (t.resolve r.skill).duration.toNat → e.template = t ∧
        ∃ left, ((g.apply r).1.run after).remainingOf s.event.actor s.event.effect.id = some left ∧
          Cast.Counted ⟨t, t.resolve r.skill, s.moment, g.settings.expiryUnit⟩
            ((g.apply r).1.run after).now
            ((rest.filter (·.event.effect.id == s.event.effect.id)).countP (·.event.isTick))
            left ∧
          (Cast.Finite ⟨t, t.resolve r.skill, s.moment, g.settings.expiryUnit⟩ →
            ∀ mid later, after = mid ++ later → ∃ left',
              ((g.apply r).1.run mid).remainingOf s.event.actor s.event.effect.id = some left' ∧
              left ≤ left')) := by
  obtain ⟨t, known, hmoment, hcounting⟩ := counting_apply ho hp hmore hs cast
  refine ⟨t, known, hmoment, fun pos => ?_⟩
  have hstart := hcounting pos
  have hend := hstart.run paced
  have hjournal : s ∈ (g.apply r).1.feed.journal.toList := by
    rw [hmore]
    exact List.mem_append_right _ hs
  have hnews := news_of_journal hrest (s.event.actor, s.event.effect.id)
  rw [filter_news hend.orderly.chronicled hrest hjournal] at hnews
  have hu := hend.course.underway hend.orderly he hid hnews fun y hy => by
    obtain ⟨hy, hykey⟩ := List.mem_filter.1 hy
    have hcast := last y hy (beq_iff_eq.1 hykey)
    cases hev : y.event with
    | refreshed =>
      rw [hev] at hcast
      cases hcast
    | started | ticked | ended => rfl
  obtain ⟨left, htold, hcounted⟩ := hend.counted hu pos
  have hticks := List.countP_eq_length.2 fun y hy => (Cast.isTick_of_beats hu.beats hy).1
  rw [← hticks] at hcounted
  refine ⟨hu.runs.template, left, htold, hcounted, fun hf mid later hsplit => ?_⟩
  subst hsplit
  -- it has been under way at every moment since the cast, and the clock has not gone back
  have hmid := hstart.run fun moment h => paced moment (List.mem_append_left _ h)
  rw [run_append] at hu hend htold
  have hlater : ∀ moment, .setClock moment ∉ later := fun moment h =>
    paced moment (List.mem_append_right _ h)
  obtain ⟨e₁, h₁, hu₁⟩ := hu.earlier (steps_run hmid.orderly.sound later) hmid.course
  refine ⟨_, hu₁.remainingOf_silent hmid.orderly hmid.unit hf hmid.since, ?_⟩
  rw [Option.some.inj (htold.symm.trans
    (hu.remainingOf_silent hend.orderly hend.unit hf hend.since))]
  exact Cast.unitsLeft_anti _ (hmid.paced.now_le_run hlater)

/-- **What is told of effects counts down**, after every run over a clock that is moved by advancing
the engine only.  Every effect that is borne has a last cast in the journal, which goes back to a
request for one template at the moment of its stamp.  If the duration of that cast is positive and
ends the effect before time ends, then the units of it are told that are left from now on, a begun
one included: that is the whole duration at the moment of the cast, never more, never nothing, and
never more than at any time since the cast.  If the effect ticks, then the ticks that have been
published since make up the duration together with what is told. -/
theorem countdown_run (settings : Settings) (codex : Codex) (start : UInt64) (capacity : Nat)
    {ops : List Op} (paced : ∀ moment, .setClock moment ∉ ops) {id : ActorId} {e : Effect}
    (he : ((opened settings codex start true capacity).run ops).Bears id e) :
    let g := (opened settings codex start true capacity).run ops
    ∃ earlier s rest before r after t,
      g.LastCast e.id earlier s rest ∧ s.event.actor = id ∧
      ops.flatMap (Op.casts codex) = before ++ .apply r :: after ∧
      codex.get? r.template = some t ∧
      let g₀ := (opened settings codex start true capacity).run before
      g₀.now = s.moment ∧ (g₀.apply r).1.feed.journal.toList = earlier ++ [s] ∧
      (0 < (t.resolve r.skill).duration.toNat → e.template = t ∧
        ∃ left, g.remainingOf id e.id = some left ∧
          Cast.Counted ⟨t, t.resolve r.skill, s.moment, settings.expiryUnit⟩ g.now
            ((rest.filter (·.event.effect.id == e.id)).countP (·.event.isTick)) left ∧
          (Cast.Finite ⟨t, t.resolve r.skill, s.moment, settings.expiryUnit⟩ →
            ∀ mid later, after = mid ++ later → ∃ left',
              ((g₀.apply r).1.run mid).remainingOf id e.id = some left' ∧ left ≤ left')) := by
  intro g
  have hopened := sound_opened settings codex start true capacity
  obtain ⟨earlier, s, rest, hlast, hactor⟩ :=
    exists_lastCast (orderly_run settings codex start true capacity ops) he
  have published : g.feed.journal.toList = earlier ++ s :: rest := hlast.published
  have hkey := hlast.key
  have hruns : (opened settings codex start true capacity).run (ops.flatMap (Op.casts codex)) = g :=
    run_casts hopened ops
  rw [← hruns] at published
  obtain ⟨before, r, after, more, hsplit, hmore, hs, hjournal⟩ :=
    exists_cast hopened (fun _ h => nomatch h) (fun _ hop => ne_applySkill_of_mem_casts hop)
      published hlast.cast
  have hunset : ∀ moment, .setClock moment ∉ before ++ .apply r :: after :=
    hsplit ▸ setClock_not_mem_casts paced
  have hg : (((opened settings codex start true capacity).run before).apply r).1.run after = g := by
    rw [← hruns, hsplit, run_append]
    rfl
  have hrest : ((((opened settings codex start true capacity).run before).apply r).1.run
      after).feed.journal.toList =
        (((opened settings codex start true capacity).run before).apply r).1.feed.journal.toList ++
          rest := by
    rw [hg, ← hruns, published, hjournal, List.append_assoc]
    rfl
  have hsteps := steps_run hopened before
  obtain ⟨t, known, hnow, hcounted⟩ :=
    counted_apply (e := e) (orderly_run settings codex start true capacity before)
      (paced_run settings codex start capacity fun moment h =>
        hunset moment (List.mem_append_left _ h))
      (hjournal.trans hmore) hs hlast.cast
      (fun moment h => hunset moment (List.mem_append_right _ (List.mem_cons_of_mem _ h)))
      hrest (hkey ▸ hlast.last) (by rw [hg, hactor]; exact he) hkey.symm
  rw [codex_steps hsteps] at known
  rw [hg, hactor, hkey, settings_steps hsteps] at hcounted
  exact ⟨earlier, s, rest, before, r, after, t, hlast, hactor, hsplit, known, hnow, hjournal,
    hcounted⟩

/-- A haste of ten seconds has nine of them left after 1.2 seconds, and a hold that has ticked twice
by then has two of its four ticks left. -/
theorem countdown_run_haste :
    let g := (opened {} trialCodex 0 true 1).run [.enter 1, .cast 1 1, .cast 1 3, .advanceTo 1200]
    g.remainingOf ⟨1⟩ ⟨1⟩ = some 9 ∧ g.remainingOf ⟨1⟩ ⟨2⟩ = some 2 ∧
      ∃ c : Cast, c.Finite ∧ c.moment = 0 ∧ c.duration = 10 ∧ ∃ ticks, c.Counted g.now ticks 9 := by
  intro g
  have hleft : g.remainingOf ⟨1⟩ ⟨1⟩ = some 9 := by decide +kernel
  have htemplate : (g.effect? (⟨1⟩, ⟨1⟩)).map (fun e =>
      (e.id, e.template.isPeriodic, e.template.duration)) = some (⟨1⟩, false, 10) := by
    decide +kernel
  obtain ⟨e, he, hkeys⟩ := Option.map_eq_some_iff.1 htemplate
  obtain ⟨hid, hsilent, hten⟩ : e.id = ⟨1⟩ ∧ e.template.isPeriodic = false ∧
      e.template.duration = 10 := by simpa using hkeys
  have paced : ∀ moment, .setClock moment ∉
      ([.enter 1, .cast 1 1, .cast 1 3, .advanceTo 1200] : List Op) := by
    simp [Op.enter, Op.cast]
  obtain ⟨earlier, s, rest, before, r, after, t, hlast, -, -, known, -, -, hcounted⟩ :=
    countdown_run {} trialCodex 0 1 paced (bears_iff.2 (hid.symm ▸ he))
  -- no template of the codex has variants, so that its duration does not depend on the skill
  have hmem := List.mem_of_find?_eq_some known
  have hplain : ∀ t ∈ trialCodex.templates, t.variants = [] ∧ 0 < t.duration.toNat := by
    decide +kernel
  obtain ⟨hvariants, hpos⟩ := hplain t hmem
  have hduration : (t.resolve r.skill).duration = t.duration := by
    simp only [Template.resolve, Template.variantFor?, hvariants]
    split <;> rfl
  obtain ⟨rfl, left, htold, hleft', -⟩ := hcounted (by rwa [hduration])
  rw [hid, hleft] at htold
  obtain rfl := Option.some.inj htold
  have hmoment : s.moment = 0 := by
    have hzero : ∀ s ∈ g.feed.journal.toList, s.event.effect.id = ⟨1⟩ → s.moment = 0 := by
      decide +kernel
    exact hzero s (hlast.published ▸ List.mem_append_right _ List.mem_cons_self)
      (hlast.key.trans hid)
  have hunits : Cast.duration ⟨e.template, e.template.resolve r.skill, s.moment, 1000⟩ = 10 := by
    simp only [Cast.duration, hduration, hten]
    rfl
  refine ⟨hleft, by decide +kernel, _, ⟨hsilent, ?_, ?_, ?_⟩, hmoment, hunits, _, hleft'⟩
  · exact hunits ▸ by decide
  · change 0 < (1000 : UInt64).toNat
    decide
  · change s.moment + Cast.duration _ * (1000 : UInt64).toNat ≤ lastMoment
    rw [hunits, hmoment]
    decide

end Engine

end StatusEffects
