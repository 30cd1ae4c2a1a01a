import StatusEffects.Proofs.Reply
import StatusEffects.Proofs.Timers
import Mathlib.Logic.Function.Basic

/-!
# The order of timers

Timers that are due may be fired in more than one order: one at a time, with whatever they ask for on
the way, or in batches.  Seen effect by effect the order makes no difference.  The standing of an
engine is what is left of it when the order between different effects is forgotten; timers of
different effects commute on it, so that all ways of firing what is due are equally long and end in
the same standing.

## Main definitions

* `World.fire` : what comes of a timer among all actors.
* `Standing`, `Standing.fire` : an engine seen effect by effect, and a timer that fires in it.
* `Standing.Fires` : chains of due timers.
* `Engine.standing` : the standing of an engine.

## Main statements

* `World.fire_comm`, `Standing.fire_comm` : timers of different effects commute.
* `Standing.Fires.of_step` : a chain to the end may begin with any timer that is due.
* `Standing.Fires.unique` : all chains to the end are equally long and have the same end.
* `Engine.standing_fire` : an engine fires a timer as its standing does.
-/

namespace StatusEffects

/-- The effect a timer belongs to. -/
def Timer.key (t : Timer) : ActorId × EffectId := (t.actor, t.effect)

namespace World

variable {w : World} {settings : Settings} {t t₁ t₂ : Timer}

/-- The world after a timer has fired, with what is told and what is answered. -/
def fire (w : World) (settings : Settings) (t : Timer) : World × List Event × Firing :=
  match w.get? t.actor with
  | none => (w, [], .stale)
  | some a =>
    let o := a.bearer.fire settings t
    (w.setBearer t.actor o.bearer, o.events, o.answer)

theorem fire_of_get? {a : Actor} (found : w.get? t.actor = some a) :
    w.fire settings t = (w.setBearer t.actor (a.bearer.fire settings t).bearer,
      (a.bearer.fire settings t).events, (a.bearer.fire settings t).answer) := by
  simp only [fire, found]

theorem fire_of_get?_none (absent : w.get? t.actor = none) :
    w.fire settings t = (w, [], .stale) := by
  simp only [fire, absent]

/-- The other actors are as they were. -/
theorem get?_fire_of_ne {k : ActorId} (h : k ≠ t.actor) :
    (w.fire settings t).1.get? k = w.get? k := by
  cases found : w.get? t.actor with
  | none => rw [fire_of_get?_none found]
  | some a =>
    rw [fire_of_get? found]
    exact get?_setBearer_of_ne h

/-- **Timers of different effects may fire in either order.** -/
theorem fire_comm (w : World) (settings : Settings) (h : t₁.key ≠ t₂.key) :
    ((w.fire settings t₁).1.fire settings t₂).2 = (w.fire settings t₂).2 ∧
      ((w.fire settings t₁).1.fire settings t₂).1 =
        ((w.fire settings t₂).1.fire settings t₁).1 := by
  by_cases hactor : t₁.actor = t₂.actor
  · have heffect : t₁.effect ≠ t₂.effect := fun he => h (Prod.ext hactor he)
    cases found : w.get? t₁.actor with
    | none =>
      have found₂ := hactor ▸ found
      rw [fire_of_get?_none found, fire_of_get?_none found₂, fire_of_get?_none found]
      exact ⟨rfl, rfl⟩
    | some a =>
      have found₂ := hactor ▸ found
      obtain ⟨hevents, hanswer, hbearer⟩ := a.bearer.fire_comm settings heffect
      have hget₂ : (w.fire settings t₁).1.get? t₂.actor =
          some { a with bearer := (a.bearer.fire settings t₁).bearer } := by
        rw [fire_of_get? found, ← hactor]
        exact get?_setBearer_self found
      have hget₁ : (w.fire settings t₂).1.get? t₁.actor =
          some { a with bearer := (a.bearer.fire settings t₂).bearer } := by
        rw [fire_of_get? found₂, hactor]
        exact get?_setBearer_self found₂
      rw [fire_of_get? hget₁, fire_of_get? hget₂, fire_of_get? found, fire_of_get? found₂]
      simp only [hevents, hanswer, hbearer, hactor, setBearer_setBearer, and_self]
  · cases found₁ : w.get? t₁.actor with
    | none =>
      have hgone : (w.fire settings t₂).1.get? t₁.actor = none := by
        rw [get?_fire_of_ne hactor, found₁]
      rw [fire_of_get?_none found₁, fire_of_get?_none hgone]
      exact ⟨rfl, rfl⟩
    | some a =>
      have hget : (w.fire settings t₂).1.get? t₁.actor = some a := by
        rw [get?_fire_of_ne hactor, found₁]
      cases found₂ : w.get? t₂.actor with
      | none =>
        have hgone : (w.fire settings t₁).1.get? t₂.actor = none := by
          rw [get?_fire_of_ne (Ne.symm hactor), found₂]
        rw [fire_of_get?_none hgone, fire_of_get?_none found₂]
        exact ⟨rfl, rfl⟩
      | some c =>
        have hget' : (w.fire settings t₁).1.get? t₂.actor = some c := by
          rw [get?_fire_of_ne (Ne.symm hactor), found₂]
        rw [fire_of_get? hget, fire_of_get? hget', fire_of_get? found₁, fire_of_get? found₂]
        exact ⟨rfl, setBearer_comm hactor _ _⟩

end World

/-! ### Standings -/

/-- An engine seen effect by effect: the actors, the timer that each effect has with the moment it is
due, what has been told of each effect, and the counts. -/
structure Standing where
  world : World
  slot : ActorId × EffectId → Option (Nat × Timer)
  told : ActorId × EffectId → List Stamped
  counts : Metrics

theorem Metrics.record_comm (m : Metrics) (f₁ f₂ : Firing) :
    (m.record f₁).record f₂ = (m.record f₂).record f₁ := by
  cases f₁ <;> cases f₂ <;> rfl

namespace Standing

variable {settings : Settings} {d due due₁ due₂ m n : Nat} {t t₁ t₂ : Timer} {s s₁ s₂ s' : Standing}

/-- The timer that is asked for in answer to one that was due at a moment. -/
def next (due : Nat) (f : Firing) : Option (Nat × Timer) :=
  (Bearer.nextTimer f).map fun t => (later due t.delay, t)

/-- A timer that was due at a moment fires. -/
def fire (settings : Settings) (s : Standing) (due : Nat) (t : Timer) : Standing :=
  let (world, events, answer) := s.world.fire settings t
  { world
    slot := Function.update s.slot t.key (next due answer)
    told := Function.update s.told t.key (s.told t.key ++ events.map (.mk due))
    counts := s.counts.record answer }

/-- **Timers of different effects commute.** -/
theorem fire_comm (s : Standing) (h : t₁.key ≠ t₂.key) :
    (s.fire settings due₁ t₁).fire settings due₂ t₂ =
      (s.fire settings due₂ t₂).fire settings due₁ t₁ := by
  obtain ⟨hanswer₂, hworld⟩ := s.world.fire_comm settings h
  obtain ⟨hanswer₁, -⟩ := s.world.fire_comm settings h.symm
  simp only [fire, hanswer₁, hanswer₂, hworld, Function.update_of_ne h, Function.update_of_ne h.symm,
    Standing.mk.injEq, true_and]
  exact ⟨Function.update_comm h _ _ _, Function.update_comm h _ _ _, Metrics.record_comm _ _ _⟩

/-- A timer that is due by `d` fires. -/
inductive Step (settings : Settings) (d : Nat) (s : Standing) : Standing → Prop
  | fire {due : Nat} {t : Timer} (waits : s.slot t.key = some (due, t)) (now : due ≤ d) :
      Step settings d s (s.fire settings due t)

/-- A number of timers that are due by `d` fire. -/
inductive Fires (settings : Settings) (d : Nat) : Standing → Nat → Standing → Prop
  | nil (s : Standing) : Fires settings d s 0 s
  | cons {s s₁ s' : Standing} {n : Nat} (first : Step settings d s s₁)
      (rest : Fires settings d s₁ n s') : Fires settings d s (n + 1) s'

/-- No timer is due by `d`. -/
def Settled (d : Nat) (s : Standing) : Prop :=
  ∀ t due, s.slot t.key = some (due, t) → d < due

theorem Settled.not_step (hs : s.Settled d) : ¬ s.Step settings d s' := by
  rintro ⟨waits, now⟩
  have hlate := hs _ _ waits
  omega

/-- Two timers that are due are the same, or may be fired one after the other either way. -/
theorem Step.diamond (h₁ : s.Step settings d s₁) (h₂ : s.Step settings d s₂) :
    s₁ = s₂ ∨ ∃ s', s₁.Step settings d s' ∧ s₂.Step settings d s' := by
  obtain @⟨due₁, t₁, waits₁, now₁⟩ := h₁
  obtain @⟨due₂, t₂, waits₂, now₂⟩ := h₂
  by_cases hkey : t₁.key = t₂.key
  · rw [hkey, waits₂] at waits₁
    cases waits₁
    exact .inl rfl
  · -- the timer that comes second still waits once the first has fired
    have hwaits₁ : (s.fire settings due₂ t₂).slot t₁.key = some (due₁, t₁) := by
      rw [← waits₁]
      exact Function.update_of_ne hkey _ _
    have hwaits₂ : (s.fire settings due₁ t₁).slot t₂.key = some (due₂, t₂) := by
      rw [← waits₂]
      exact Function.update_of_ne (Ne.symm hkey) _ _
    exact .inr ⟨_, .fire hwaits₂ now₂, fire_comm s hkey ▸ .fire hwaits₁ now₁⟩

namespace Fires

theorem eq_of_zero (h : s.Fires settings d 0 s') : s = s' := by
  cases h
  rfl

/-- **A chain to the end may begin with any timer that is due.** -/
theorem of_step (h : s.Fires settings d n s') (hs' : s'.Settled d) (h₁ : s.Step settings d s₁) :
    ∃ m, n = m + 1 ∧ s₁.Fires settings d m s' := by
  induction h generalizing s₁ with
  | nil => exact absurd h₁ hs'.not_step
  | @cons s s₂ s' n first rest ih =>
    rcases first.diamond h₁ with rfl | ⟨s₃, h₂, h₃⟩
    · exact ⟨n, rfl, rest⟩
    · -- the rest may begin with the timer that both have yet to fire
      obtain ⟨m, rfl, hm⟩ := ih hs' h₂
      exact ⟨m + 1, rfl, .cons h₃ hm⟩

/-- A chain to the end goes on from wherever another chain has got to. -/
theorem of_fires (h : s.Fires settings d n s') (hs' : s'.Settled d)
    (h₁ : s.Fires settings d m s₁) : ∃ k, n = m + k ∧ s₁.Fires settings d k s' := by
  induction h₁ generalizing n with
  | nil => exact ⟨n, (Nat.zero_add n).symm, h⟩
  | @cons _ _ _ j first _ ih =>
    obtain ⟨k, rfl, hk⟩ := h.of_step hs' first
    obtain ⟨l, rfl, hl⟩ := ih hk
    exact ⟨l, by omega, hl⟩

/-- **All chains to the end are equally long and have the same end.** -/
theorem unique (h₁ : s.Fires settings d m s₁) (hs₁ : s₁.Settled d)
    (h₂ : s.Fires settings d n s₂) (hs₂ : s₂.Settled d) : m = n ∧ s₁ = s₂ := by
  obtain ⟨k, rfl, hk⟩ := h₂.of_fires hs₂ h₁
  cases hk with
  | nil => exact ⟨rfl, rfl⟩
  | cons first _ => exact absurd first hs₁.not_step

end Fires

end Standing

/-! ### The standing of an engine -/

namespace Engine

open Standing

variable {g : Engine} {q : TimerQueue} {x y : Entry} {taken : List Entry} {k : ActorId × EffectId}
  {events : List Event} {asked : Option Timer} {moment : Nat}

/-- What a standing keeps of an entry. -/
def place (x : Entry) : Nat × Timer := (x.due, x.timer)

/-- What has been published about an effect of an actor. -/
def news (g : Engine) (k : ActorId × EffectId) : List Stamped :=
  g.feed.journal.toList.filter fun s => (s.event.actor, s.event.effect.id) == k

/-- The standing of an engine, with the timers taken out of its queue that are yet to be fired. -/
def standing (g : Engine) (taken : List Entry) : Standing where
  world := g.world
  slot k := ((g.queue.pending ++ taken).find? (·.key == k)).map place
  told := g.news
  counts := { g.metrics with peak := 0 }

theorem nodup_keys (ht : Timed g taken) :
    ((g.queue.pending ++ taken).map Entry.key).Nodup := by
  rw [List.map_append, List.nodup_append]
  refine ⟨TimerQueue.nodup_keys_pending ht.queue, ht.distinct, ?_⟩
  rintro k hk k' hk' rfl
  obtain ⟨x, hx, hxk⟩ := List.mem_map.1 hk
  obtain ⟨y, hy, hyk⟩ := List.mem_map.1 hk'
  exact ht.apart x hx y hy (hxk.trans hyk.symm)

/-- The timer an effect has is the one in the queue or in the batch. -/
theorem slot_eq_some_iff (ht : Timed g taken) {p : Nat × Timer} :
    (g.standing taken).slot k = some p ↔
      p ∈ (g.queue.pending ++ taken).map place ∧ p.2.key = k := by
  simp only [standing, Option.map_eq_some_iff, List.mem_map,
    find?_key_eq_some_iff (nodup_keys ht)]
  constructor
  · rintro ⟨x, ⟨hx, hkey⟩, rfl⟩
    exact ⟨⟨x, hx, rfl⟩, hkey⟩
  · rintro ⟨⟨x, hx, rfl⟩, hkey⟩
    exact ⟨x, ⟨hx, hkey⟩, rfl⟩

/-- An operation on one effect, whose timer is not in the queue, leaves the other timers there. -/
theorem mem_place_settled (hq : q.Sound) (hpending : ∀ y ∈ q.pending, y.key ≠ k)
    (hevents : ∀ ev ∈ events, (ev.actor, ev.effect.id) = k)
    (hasked : ∀ t, asked = some t → t.key = k) {p : Nat × Timer} :
    p ∈ (settled q events asked moment).pending.map place ↔
      p ∈ q.pending.map place ∨ asked.map (fun t => (later moment t.delay, t)) = some p := by
  have hkept : ∀ y, y ∈ (cancelEnded q events).pending ↔ y ∈ q.pending := fun y => by
    rw [mem_pending_cancelEnded hq]
    refine and_iff_left_of_imp fun hy ev hev _ heq => hpending y hy ?_
    rw [← heq, hevents ev hev]
  cases asked with
  | none => simp [settled, hkept]
  | some t =>
    have hmem : ∀ y, y ∈ (settled q events (some t) moment).pending ↔
        y = (cancelEnded q events).scheduled t (later moment t.delay) ∨ y ∈ q.pending := fun y => by
      rw [settled, TimerQueue.mem_pending_schedule (sound_cancelEnded hq events), hkept]
      refine or_congr_right (and_iff_left_of_imp fun hy heq => hpending y hy ?_)
      rw [heq, ← hasked t rfl]
      rfl
    simp only [List.mem_map, hmem, Option.map_some, Option.some.injEq]
    constructor
    · rintro ⟨y, rfl | hy, rfl⟩
      · exact .inr rfl
      · exact .inl ⟨y, hy, rfl⟩
    · rintro (⟨y, hy, rfl⟩ | rfl)
      · exact ⟨y, .inr hy, rfl⟩
      · exact ⟨_, .inl rfl, rfl⟩

/-- What an engine makes of a timer is what its world makes of it. -/
theorem fire_eq (g : Engine) (x : Entry) :
    let f := g.world.fire g.settings x.timer
    (g.fire x).world = f.1 ∧ (g.fire x).feed = g.feed.publishAll x.due f.2.1 ∧
      (g.fire x).queue = settled g.queue f.2.1 (Bearer.nextTimer f.2.2) x.due ∧
      { (g.fire x).metrics with peak := 0 } =
        ({ g.metrics with peak := 0 } : Metrics).record f.2.2 := by
  intro f
  cases found : g.world.get? x.timer.actor with
  | none =>
    have hf : f = (g.world, [], .stale) := World.fire_of_get?_none found
    simp only [fire, found, hf, Feed.publishAll_nil]
    exact ⟨rfl, rfl, rfl, rfl⟩
  | some a =>
    have hf : f = _ := World.fire_of_get? found
    have hqueue := queue_fire found
    generalize ho : a.bearer.fire g.settings x.timer = o at hf hqueue
    rw [hf]
    refine ⟨?_, ?_, hqueue, ?_⟩
    all_goals
      simp only [fire, found, ho]
      cases o.answer <;> rfl

/-- What is told of the timer is told of its effect, and a timer that it asks for is for it too. -/
theorem about_fire (hg : g.Sound) (x : Entry) :
    let f := g.world.fire g.settings x.timer
    (∀ ev ∈ f.2.1, (ev.actor, ev.effect.id) = x.key) ∧
      ∀ t, Bearer.nextTimer f.2.2 = some t → t.key = x.key := by
  intro f
  cases found : g.world.get? x.timer.actor with
  | none =>
    have hf : f = (g.world, [], .stale) := World.fire_of_get?_none found
    rw [hf]
    exact ⟨fun _ h => (nomatch h), fun _ h => nomatch h⟩
  | some a =>
    have hf : f = _ := World.fire_of_get? found
    have hb := hg.bearer found
    rw [hf]
    refine ⟨fun ev hev => ?_, fun t ht => ?_⟩
    · obtain ⟨hactor, heffect⟩ := Bearer.events_fire hev
      exact Prod.ext (hactor.trans hb.owner) heffect
    · have hactor := (hb.attended_fire g.settings x.timer).actor t ht
      exact Prod.ext hactor (Bearer.effect_of_nextTimer ht)

/-- The timer that has fired gives way to the one that is asked for, and the others stay. -/
theorem slot_fire (ht : Timed g (x :: taken)) (hg : g.Sound) :
    ((g.fire x).standing taken).slot =
      Function.update (g.standing (x :: taken)).slot x.key
        (next x.due (g.world.fire g.settings x.timer).2.2) := by
  obtain ⟨hevents, hasked⟩ := about_fire hg x
  obtain ⟨-, -, hqueue, -⟩ := fire_eq g x
  generalize g.world.fire g.settings x.timer = f at hevents hasked hqueue
  have hpending : ∀ y ∈ g.queue.pending, y.key ≠ x.key := fun y hy =>
    ht.apart y hy x List.mem_cons_self
  have hdistinct := ht.distinct
  rw [List.map_cons, List.nodup_cons] at hdistinct
  have hmem : ∀ p, p ∈ ((g.fire x).queue.pending ++ taken).map place ↔
      p ∈ (g.queue.pending ++ taken).map place ∨ next x.due f.2.2 = some p := fun p => by
    rw [List.map_append, List.mem_append, hqueue, mem_place_settled ht.queue hpending hevents hasked,
      List.map_append, List.mem_append, next]
    tauto
  funext k
  refine Option.ext fun p => ?_
  rw [slot_eq_some_iff (ht.fire hg), hmem]
  by_cases hk : k = x.key
  · subst hk
    rw [Function.update_self]
    constructor
    · rintro ⟨hp | hp, hkey⟩
      · obtain ⟨y, hy, rfl⟩ := List.mem_map.1 hp
        rcases List.mem_append.1 hy with hy | hy
        · exact absurd hkey (hpending y hy)
        · exact absurd (List.mem_map.2 ⟨y, hy, hkey⟩) hdistinct.1
      · exact hp
    · intro hp
      refine ⟨.inr hp, ?_⟩
      obtain ⟨t, htasked, rfl⟩ := Option.map_eq_some_iff.1 hp
      exact hasked t htasked
  · rw [Function.update_of_ne hk, slot_eq_some_iff ht]
    have hcons : p ∈ (g.queue.pending ++ x :: taken).map place ↔
        p = place x ∨ p ∈ (g.queue.pending ++ taken).map place := by
      rw [(List.perm_middle.map place).mem_iff, List.map_cons, List.mem_cons]
    rw [hcons]
    constructor
    · rintro ⟨hp | hp, hkey⟩
      · exact ⟨.inr hp, hkey⟩
      · obtain ⟨t, htasked, rfl⟩ := Option.map_eq_some_iff.1 hp
        exact absurd (hkey.symm.trans (hasked t htasked)) hk
    · rintro ⟨rfl | hp, hkey⟩
      · exact absurd hkey.symm hk
      · exact ⟨.inl hp, hkey⟩

theorem news_of_feed {g' : Engine} (h : g'.feed = g.feed.publishAll moment events)
    (k : ActorId × EffectId) :
    g'.news k = g.news k ++
      (events.filter fun ev => (ev.actor, ev.effect.id) == k).map (.mk moment) := by
  simp only [news, h, Feed.journal_publishAll, List.filter_append, List.filter_map]
  rfl

/-- What is told of the timer adds to what has been told of its effect. -/
theorem news_fire (hg : g.Sound) (x : Entry) :
    (g.fire x).news = Function.update g.news x.key
      (g.news x.key ++ (g.world.fire g.settings x.timer).2.1.map (.mk x.due)) := by
  obtain ⟨hevents, -⟩ := about_fire hg x
  obtain ⟨-, hfeed, -, -⟩ := fire_eq g x
  funext k
  rw [news_of_feed hfeed]
  by_cases hk : k = x.key
  · subst hk
    rw [Function.update_self, List.filter_eq_self.2 fun ev hev => beq_iff_eq.2 (hevents ev hev)]
  · have hother : (g.world.fire g.settings x.timer).2.1.filter
        (fun ev => (ev.actor, ev.effect.id) == k) = [] := by
      rw [List.filter_eq_nil_iff]
      intro ev hev
      simpa [hevents ev hev] using Ne.symm hk
    rw [Function.update_of_ne hk, hother, List.map_nil, List.append_nil]

/-- **An engine fires a timer as its standing does.** -/
theorem standing_fire (ht : Timed g (x :: taken)) (hg : g.Sound) :
    (g.fire x).standing taken =
      (g.standing (x :: taken)).fire g.settings x.due x.timer := by
  obtain ⟨hworld, -, -, hcounts⟩ := fire_eq g x
  have hparts : (g.fire x).standing taken =
      ⟨(g.fire x).world, ((g.fire x).standing taken).slot, (g.fire x).news,
        { (g.fire x).metrics with peak := 0 }⟩ := rfl
  rw [hparts, hworld, slot_fire ht hg, news_fire hg x, hcounts]
  rfl

end Engine

end StatusEffects
