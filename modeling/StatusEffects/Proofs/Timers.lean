import StatusEffects.Proofs.Attended
import StatusEffects.Proofs.Queue
import StatusEffects.Proofs.Step

/-!
# Timers of running effects

Lists of effects and queue are changed apart from each other, and a batch of timers is in neither
the queue nor the past while it is fired; still every effect that asks for a timer has one, in the
queue or in the batch.

## Main definitions

* `Engine.settled` : the queue once an operation has been concluded.
* `Engine.Timed` : the queue is sound and every effect that asks for a timer has one.

## Main statements

* `Engine.Timed.attended` : operations that attend to timers keep an engine timed.
* `Engine.Timed.act` : acts keep an engine timed.
* `Engine.timers_run` : after every run each effect that asks for a timer has exactly one.
-/

namespace StatusEffects

namespace Engine

/-! ### The queue after an operation -/

section Queue

variable {q : TimerQueue} {events : List Event} {asked : Option Timer} {moment : Nat} {x : Entry}

/-- The queue once the timers of the effects that ended are cancelled and another is asked for. -/
def settled (q : TimerQueue) (events : List Event) (asked : Option Timer) (moment : Nat) :
    TimerQueue :=
  match asked with
  | some t => (cancelEnded q events).schedule t (later moment t.delay)
  | none => cancelEnded q events

theorem cancelEnded_eq_self (h : ∀ ev ∈ events, ev.endReason = none) :
    cancelEnded q events = q := by
  induction events with
  | nil => rfl
  | cons ev rest ih =>
    have hstep : cancelEnded q (ev :: rest) = cancelEnded q rest := by
      simp [cancelEnded, h ev List.mem_cons_self]
    rw [hstep, ih fun y hy => h y (.tail _ hy)]

theorem sound_cancelEnded (hq : q.Sound) (events : List Event) : (cancelEnded q events).Sound := by
  induction events generalizing q with
  | nil => exact hq
  | cons ev rest ih =>
    simp only [cancelEnded, List.foldl_cons]
    split_ifs
    · exact ih (hq.cancel _)
    · exact ih hq

theorem nextSeq_cancelEnded (q : TimerQueue) (events : List Event) :
    (cancelEnded q events).nextSeq = q.nextSeq := by
  induction events generalizing q with
  | nil => rfl
  | cons ev rest ih =>
    simp only [cancelEnded, List.foldl_cons]
    split_ifs
    · exact (ih _).trans (TimerQueue.nextSeq_cancel q _)
    · exact ih q

/-- The ends that are told cancel the timers of their effects. -/
theorem mem_pending_cancelEnded (hq : q.Sound) :
    x ∈ (cancelEnded q events).pending ↔ x ∈ q.pending ∧
      ∀ ev ∈ events, ev.endReason.isSome = true → (ev.actor, ev.effect.id) ≠ x.key := by
  induction events generalizing q with
  | nil => simp [cancelEnded]
  | cons ev rest ih =>
    by_cases hend : ev.endReason.isSome = true
    · have hstep : cancelEnded q (ev :: rest) =
          cancelEnded (q.cancel (ev.actor, ev.effect.id)).1 rest := by
        simp [cancelEnded, hend]
      have hne : (x.key != (ev.actor, ev.effect.id)) = true ↔ (ev.actor, ev.effect.id) ≠ x.key :=
        bne_iff_ne.trans ne_comm
      rw [hstep, ih (hq.cancel _), TimerQueue.pending_cancel hq, List.mem_filter, hne, and_assoc,
        List.forall_mem_cons]
      simp only [hend, true_imp_iff]
    · have hstep : cancelEnded q (ev :: rest) = cancelEnded q rest := by
        simp [cancelEnded, hend]
      rw [hstep, ih hq]
      simp [hend]

theorem sound_settled (hq : q.Sound) : (settled q events asked moment).Sound := by
  cases asked with
  | none => exact sound_cancelEnded hq events
  | some t => exact (sound_cancelEnded hq events).schedule t _

/-- A timer that no end cancels stays, unless another one is asked for in its place. -/
theorem mem_settled (hq : q.Sound) (hx : x ∈ q.pending)
    (hends : ∀ ev ∈ events, ev.endReason.isSome = true → (ev.actor, ev.effect.id) ≠ x.key)
    (hasked : ∀ t, asked = some t → x.key ≠ (t.actor, t.effect)) :
    x ∈ (settled q events asked moment).pending := by
  have hkept := (mem_pending_cancelEnded hq).2 ⟨hx, hends⟩
  cases asked with
  | none => exact hkept
  | some t =>
    exact (TimerQueue.mem_pending_schedule (sound_cancelEnded hq events)).2
      (.inr ⟨hkept, hasked t rfl⟩)

/-- The timer that is asked for is pending. -/
theorem exists_settled (hq : q.Sound) {t : Timer} (h : asked = some t) :
    ∃ y ∈ (settled q events asked moment).pending, y.timer = t := by
  subst h
  exact ⟨_, (TimerQueue.mem_pending_schedule (sound_cancelEnded hq events)).2 (.inl rfl), rfl⟩

/-- A timer in the queue was there before and nothing has become of it, or it is the one that is
asked for. -/
theorem of_mem_settled (hq : q.Sound) (hx : x ∈ (settled q events asked moment).pending) :
    (x ∈ q.pending ∧
      (∀ ev ∈ events, ev.endReason.isSome = true → (ev.actor, ev.effect.id) ≠ x.key) ∧
      ∀ t, asked = some t → x.key ≠ (t.actor, t.effect)) ∨
    ∃ t, asked = some t ∧ x.timer = t ∧ x.due = later moment t.delay := by
  cases asked with
  | none =>
    obtain ⟨hx, hends⟩ := (mem_pending_cancelEnded hq).1 hx
    exact .inl ⟨hx, hends, fun _ h => nomatch h⟩
  | some t =>
    rcases (TimerQueue.mem_pending_schedule (sound_cancelEnded hq events)).1 hx with rfl | ⟨hx, hk⟩
    · exact .inr ⟨t, rfl, rfl, rfl⟩
    · obtain ⟨hx, hends⟩ := (mem_pending_cancelEnded hq).1 hx
      refine .inl ⟨hx, hends, fun t' ht' => ?_⟩
      rwa [← Option.some.inj ht']

end Queue

variable {g g' : Engine} {id : ActorId} {a : Actor} {t : Template} {r : Request}

theorem queue_applyTemplate (passed : g.gate t r = .ok a) :
    let o := a.bearer.apply a.profile g.settings (g.incoming t r)
    (g.applyTemplate t r).1.queue =
      settled g.queue o.events (Bearer.timerAsked o.answer) g.now := by
  intro o
  have ho : o = a.bearer.apply a.profile g.settings (g.incoming t r) := rfl
  simp only [applyTemplate, passed, ← ho]
  cases hanswer : o.answer with
  | error refusal => rfl
  | ok x =>
    simp only [scheduleFor, Bearer.timerAsked]
    cases x.timer <;> rfl

theorem queue_fire {e : Entry} (found : g.world.get? e.timer.actor = some a) :
    let o := a.bearer.fire g.settings e.timer
    (g.fire e).queue = settled g.queue o.events (Bearer.nextTimer o.answer) e.due := by
  intro o
  have ho : o = a.bearer.fire g.settings e.timer := rfl
  simp only [fire, found, ← ho]
  cases hanswer : o.answer with
  | stale => rfl
  | ended reason => rfl
  | rescheduled again =>
    -- no end is told here, so that it does not matter which comes first
    have hnone := (Bearer.of_fire_rescheduled hanswer).2
    have hqueue : ∀ q : TimerQueue, cancelEnded q o.events = q := fun q =>
      cancelEnded_eq_self hnone
    simp only [settled, Bearer.nextTimer, hqueue]
    exact hqueue _

/-! ### The invariant -/

/-- The queue of the engine is sound, no effect has two timers in the queue and in the batch that is
being fired, and each that asks for one has it. -/
structure Timed (g : Engine) (taken : List Entry) : Prop where
  queue : g.queue.Sound
  distinct : (taken.map Entry.key).Nodup
  apart : ∀ x ∈ g.queue.pending, ∀ y ∈ taken, x.key ≠ y.key
  served : ∀ id b, g.world.bearer? id = some b → ∀ e ∈ b.list.effects, ∀ t,
    e.timer? g.settings.expiryUnit = some t → ∃ x ∈ g.queue.pending ++ taken, x.timer.Meets t

namespace Timed

variable {taken taken' : List Entry} {b : Bearer}

theorem key_eq {x : Entry} {t : Timer} (h : x.timer.Meets t) : x.key = (t.actor, t.effect) := by
  rw [Entry.key, h.actor, h.effect]

/-- An effect has at most one timer in the queue and the batch. -/
theorem unique (ht : Timed g taken) {x y : Entry} (hx : x ∈ g.queue.pending ++ taken)
    (hy : y ∈ g.queue.pending ++ taken) (h : x.key = y.key) : x = y := by
  rcases List.mem_append.1 hx with hx | hx <;> rcases List.mem_append.1 hy with hy | hy
  · exact TimerQueue.eq_of_key_eq ht.queue hx hy h
  · exact absurd h (ht.apart x hx y hy)
  · exact absurd h.symm (ht.apart y hy x hx)
  · exact List.inj_on_of_nodup_map ht.distinct hx hy h

/-- Nothing that matters to timers has changed. -/
theorem congr (ht : Timed g taken) (hsettings : g'.settings = g.settings)
    (hqueue : g'.queue.Sound) (hpending : g'.queue.pending = g.queue.pending)
    (hworld : ∀ id b, g'.world.bearer? id = some b →
      g.world.bearer? id = some b ∨ b.list.effects = []) : Timed g' taken where
  queue := hqueue
  distinct := ht.distinct
  apart := by
    rw [hpending]
    exact ht.apart
  served id b hb e he t hasked := by
    rcases hworld id b hb with hb | hnil
    · rw [hpending]
      rw [hsettings] at hasked
      exact ht.served id b hb e he t hasked
    · rw [hnil] at he
      cases he

/-- An operation on what an actor bears has been concluded: its ends have cancelled timers, the
timer it asks for is queued, and the batch has lost at most the timer that has fired. -/
structure Concluded {α : Type} (id : ActorId) (o : Outcome α) (fired asked : Option Timer)
    (moment : Nat) (g : Engine) (taken : List Entry) (g' : Engine) (taken' : List Entry) :
    Prop where
  settings : g'.settings = g.settings
  queue : g'.queue = settled g.queue o.events asked moment
  self : ∀ b, g'.world.bearer? id = some b → b = o.bearer
  others : ∀ k, k ≠ id → g'.world.bearer? k = g.world.bearer? k
  batch : taken'.Sublist taken
  spent : ∀ y ∈ taken, y ∈ taken' ∨ (fired = some y.timer ∧ y.timer.actor = id)
  place : ∀ t, asked = some t → ∀ y ∈ taken', (t.actor, t.effect) ≠ y.key

section Attended

variable {α : Type} {o : Outcome α} {fired asked : Option Timer} {moment : Nat}

/-- Between batches nothing has to be said about them. -/
theorem Concluded.idle (hsettings : g'.settings = g.settings)
    (hqueue : g'.queue = settled g.queue o.events asked moment)
    (hself : ∀ b, g'.world.bearer? id = some b → b = o.bearer)
    (hothers : ∀ k, k ≠ id → g'.world.bearer? k = g.world.bearer? k) :
    Concluded id o none asked moment g [] g' [] :=
  ⟨hsettings, hqueue, hself, hothers, .refl _, by simp, by simp⟩

/-- A timer is still there if no end has cancelled it, none was asked for in its place and it is not
the one that has fired. -/
theorem Concluded.mem (hc : Concluded id o fired asked moment g taken g' taken')
    (ht : Timed g taken) {x : Entry} (hx : x ∈ g.queue.pending ++ taken)
    (hends : ∀ ev ∈ o.events, ev.endReason.isSome = true → (ev.actor, ev.effect.id) ≠ x.key)
    (hasked : ∀ t, asked = some t → x.key ≠ (t.actor, t.effect))
    (hfired : ¬ (fired = some x.timer ∧ x.timer.actor = id)) :
    x ∈ g'.queue.pending ++ taken' := by
  rw [hc.queue]
  rcases List.mem_append.1 hx with hx | hx
  · exact List.mem_append_left _ (mem_settled ht.queue hx hends hasked)
  · exact List.mem_append_right _ ((hc.spent x hx).resolve_right hfired)

/-- The effects of the actor have their timers. -/
theorem served_self (ht : Timed g taken)
    (hc : Concluded id o fired asked moment g taken g' taken')
    (found : g.world.get? id = some a)
    (ho : Bearer.Attended g.settings.expiryUnit id fired asked a.bearer o) {e : Effect} {t : Timer}
    (he : e ∈ o.bearer.list.effects) (hneeded : e.timer? g.settings.expiryUnit = some t) :
    ∃ x ∈ g'.queue.pending ++ taken', x.timer.Meets t := by
  rcases ho.kept e he with hasked | ⟨he, hplaced, hends, hfired⟩
  · obtain ⟨y, hy, hyt⟩ := exists_settled ht.queue (hasked.symm.trans hneeded)
    rw [hc.queue]
    exact ⟨y, List.mem_append_left _ hy, hyt ▸ ⟨rfl, rfl, rfl, rfl⟩⟩
  · obtain ⟨x, hx, hmeets⟩ := ht.served id _ (World.bearer?_of_get? found) e he t hneeded
    have heffect : x.key.2 = e.id := by
      rw [key_eq hmeets]
      exact (Effect.of_timer? hneeded).2.1
    refine ⟨x, hc.mem ht hx (fun ev hev hend heq => ?_) (fun t' ht' heq => ?_) ?_, hmeets⟩
    · exact hends ev hev hend ((congrArg Prod.snd heq).trans heffect)
    · exact hplaced t' ht' ((congrArg Prod.snd heq).symm.trans heffect)
    · exact fun h => hfired _ t h.1 hneeded hmeets

/-- The effects of the other actors keep theirs. -/
theorem served_other (ht : Timed g taken) (hg : g.Sound)
    (hc : Concluded id o fired asked moment g taken g' taken')
    (ho : Bearer.Attended g.settings.expiryUnit id fired asked a.bearer o) {k : ActorId}
    (hk : k ≠ id) (hb : g.world.bearer? k = some b) {e : Effect} {t : Timer}
    (he : e ∈ b.list.effects) (hneeded : e.timer? g.settings.expiryUnit = some t) :
    ∃ x ∈ g'.queue.pending ++ taken', x.timer.Meets t := by
  obtain ⟨x, hx, hmeets⟩ := ht.served k b hb e he t hneeded
  have hactor : x.key.1 = k := by
    rw [key_eq hmeets, ← ((hg k b hb).seated e he).target]
    exact (Effect.of_timer? hneeded).1
  refine ⟨x, hc.mem ht hx (fun ev hev _ heq => hk ?_) (fun t' ht' heq => hk ?_) ?_, hmeets⟩
  · exact hactor.symm.trans ((congrArg Prod.fst heq).symm.trans (ho.events ev hev))
  · exact hactor.symm.trans ((congrArg Prod.fst heq).trans (ho.actor t' ht'))
  · exact fun h => hk (hactor.symm.trans h.2)

/-- **Operations that attend to timers keep an engine timed.** -/
theorem attended (ht : Timed g taken) (hg : g.Sound) (found : g.world.get? id = some a)
    (ho : Bearer.Attended g.settings.expiryUnit id fired asked a.bearer o)
    (hc : Concluded id o fired asked moment g taken g' taken') : Timed g' taken' where
  queue := hc.queue ▸ sound_settled ht.queue
  distinct := ht.distinct.sublist (hc.batch.map _)
  apart x hx y hy := by
    rw [hc.queue] at hx
    rcases of_mem_settled ht.queue hx with ⟨hx, -, -⟩ | ⟨t, hasked, rfl, -⟩
    · exact ht.apart x hx y (hc.batch.subset hy)
    · exact hc.place _ hasked y hy
  served k b hb e he t hneeded := by
    rw [hc.settings] at hneeded
    by_cases hk : k = id
    · subst hk
      rw [hc.self b hb] at he
      exact ht.served_self hc found ho he hneeded
    · rw [hc.others k hk] at hb
      exact ht.served_other hg hc ho hk hb he hneeded

end Attended

theorem eq_of_setBearer (found : g.world.get? id = some a)
    (hworld : g'.world = g.world.setBearer id b) :
    (∀ c, g'.world.bearer? id = some c → c = b) ∧
      ∀ k, k ≠ id → g'.world.bearer? k = g.world.bearer? k := by
  constructor
  · intro c hc
    rw [hworld, World.bearer?_setBearer found, if_pos rfl] at hc
    exact (Option.some.inj hc).symm
  · intro k hk
    rw [hworld, World.bearer?_setBearer found, if_neg hk]

theorem applyTemplate (ht : Timed g []) (hg : g.Sound) (known : t ∈ g.codex.templates) :
    Timed (g.applyTemplate t r).1 [] := by
  cases passed : g.gate t r with
  | error refusal => rwa [applyTemplate_of_error passed]
  | ok a =>
    have found := get?_of_gate passed
    obtain ⟨hworld, -, hsettings⟩ := applyTemplate_of_gate passed
    obtain ⟨hself, hothers⟩ := eq_of_setBearer found hworld
    have ho := (hg.bearer found).attended_apply (incoming_incoming known) a.profile g.settings
    exact ht.attended hg found ho (.idle hsettings (queue_applyTemplate passed) hself hothers)

theorem dispelFor (ht : Timed g []) (hg : g.Sound) (actor : ActorId) (selector : Selector)
    (cause : Cause) : Timed (g.dispelFor actor selector cause).1 [] := by
  simp only [Engine.dispelFor]
  cases found : g.world.get? actor with
  | none => exact ht
  | some a =>
    have ho := (hg.bearer found).attended_dispel g.settings selector cause
    have hworld : (g.conclude actor g.now (a.bearer.dispel g.settings selector cause)).world =
        g.world.setBearer actor (a.bearer.dispel g.settings selector cause).bearer := rfl
    have hqueue : (g.conclude actor g.now (a.bearer.dispel g.settings selector cause)).queue =
        settled g.queue (a.bearer.dispel g.settings selector cause).events none g.now := rfl
    obtain ⟨hself, hothers⟩ := eq_of_setBearer found hworld
    exact ht.attended hg found ho (.idle rfl hqueue hself hothers)

theorem remove (ht : Timed g []) (hg : g.Sound) (actor : ActorId) :
    Timed (g.remove actor).1 [] := by
  simp only [Engine.remove]
  cases found : g.world.get? actor with
  | none => exact ht
  | some a =>
    have ho := (hg.bearer found).attended_clear g.settings .actorRemoved
    have hqueue : cancelEnded g.queue (a.bearer.clear .actorRemoved).events =
        settled g.queue (a.bearer.clear .actorRemoved).events none g.now := rfl
    -- nobody is left under the key, and so nobody needs a timer under it
    refine ht.attended hg found ho (.idle rfl hqueue (fun b hb => ?_) fun k hk => ?_)
    · simp [settle, World.bearer?_remove] at hb
    · simp [settle, World.bearer?_remove, hk]

/-- A timer is taken from the queue into the batch. -/
theorem take (ht : Timed g taken) {now : Nat} {queue : TimerQueue} {e : Entry}
    (due : g.queue.pop now = (queue, some e)) : Timed { g with queue } (taken ++ [e]) := by
  obtain ⟨hqueue, hpending, -⟩ := ht.queue.pop_some due
  have hmem : e ∈ g.queue.pending := hpending ▸ List.mem_cons_self
  have hkeys := TimerQueue.nodup_keys_pending ht.queue
  rw [hpending, List.map_cons, List.nodup_cons] at hkeys
  refine ⟨hqueue, ?_, fun x hx y hy => ?_, fun id b hb f hf t hasked => ?_⟩
  · rw [List.map_append, List.nodup_append]
    refine ⟨ht.distinct, List.nodup_singleton _, ?_⟩
    rintro k hk k' hk' rfl
    obtain ⟨y, hy, hye⟩ := List.mem_map.1 hk
    exact ht.apart e hmem y hy ((List.mem_singleton.1 hk').symm.trans hye.symm)
  · rcases List.mem_append.1 hy with hy | hy
    · exact ht.apart x (hpending ▸ List.mem_cons_of_mem _ hx) y hy
    · rw [List.mem_singleton.1 hy]
      exact fun hxe => hkeys.1 (hxe ▸ List.mem_map_of_mem hx)
  · obtain ⟨x, hx, hmeets⟩ := ht.served id b hb f hf t hasked
    refine ⟨x, ?_, hmeets⟩
    rw [hpending] at hx
    simp only [List.cons_append, List.mem_cons, List.mem_append, List.not_mem_nil, or_false]
      at hx ⊢
    rcases hx with hx | hx | hx
    · exact .inr (.inr hx)
    · exact .inl hx
    · exact .inr (.inl hx)

/-- Of the batch only the timer that has fired is needed no more. -/
theorem fire {e : Entry} (ht : Timed g (e :: taken)) (hg : g.Sound) : Timed (g.fire e) taken := by
  have hdistinct := ht.distinct
  rw [List.map_cons, List.nodup_cons] at hdistinct
  cases found : g.world.get? e.timer.actor with
  | none =>
    -- whoever it was for has left the world
    have hfire : g.fire e = g.record .stale := by simp [Engine.fire, found]
    rw [hfire]
    refine ⟨ht.queue, hdistinct.2, fun x hx y hy => ht.apart x hx y (.tail _ hy),
      fun id b hb f hf t hasked => ?_⟩
    obtain ⟨x, hx, hmeets⟩ := ht.served id b hb f hf t hasked
    refine ⟨x, ?_, hmeets⟩
    rcases List.mem_append.1 hx with hx | hx
    · exact List.mem_append_left _ hx
    · rcases List.mem_cons.1 hx with rfl | hx
      · have htarget := ((hg id b hb).seated f hf).target
        have hid : x.timer.actor = id := by
          rw [hmeets.actor, (Effect.of_timer? hasked).1, htarget]
        rw [hid] at found
        have hgone : g.world.bearer? id = some b := hb
        rw [World.bearer?_eq_none.2 found] at hgone
        cases hgone
      · exact List.mem_append_right _ hx
  | some a =>
    have ho := (hg.bearer found).attended_fire g.settings e.timer
    have hworld : (g.fire e).world =
        g.world.setBearer e.timer.actor (a.bearer.fire g.settings e.timer).bearer := by
      simp only [Engine.fire, found]
      cases (a.bearer.fire g.settings e.timer).answer <;> rfl
    have hsettings : (g.fire e).settings = g.settings := by
      simp only [Engine.fire, found]
      cases (a.bearer.fire g.settings e.timer).answer <;> rfl
    obtain ⟨hself, hothers⟩ := eq_of_setBearer found hworld
    refine ht.attended hg found ho ⟨hsettings, queue_fire found, hself, hothers,
      List.sublist_cons_self e taken, fun y hy => ?_, fun t hasked y hy => ?_⟩
    · rcases List.mem_cons.1 hy with rfl | hy
      · exact .inr ⟨rfl, rfl⟩
      · exact .inl hy
    · -- the next timer is for the same effect, and no other of the batch is
      rw [ho.actor t hasked, Bearer.effect_of_nextTimer hasked]
      exact fun hkey => hdistinct.1 (List.mem_map.2 ⟨y, hy, hkey.symm⟩)

/-- **Acts keep an engine timed.** -/
theorem act (ht : Timed g taken) (hg : g.Sound) (h : Act (g, taken) (g', taken')) :
    Timed g' taken' := by
  cases h with
  | spawn _ p =>
    refine ht.congr rfl ht.queue rfl fun id b hb => ?_
    cases known : g.world.get? p.id with
    | none =>
      simp only [Engine.spawn, World.bearer?_spawn_new known] at hb
      split_ifs at hb
      · obtain rfl := Option.some.inj hb
        exact .inr rfl
      · exact .inl hb
    | some a =>
      simp only [Engine.spawn, World.spawn_known known] at hb
      rw [World.bearer?_modifyProfile fun _ _ => rfl] at hb
      exact .inl hb
  | locate => exact ht.congr rfl ht.queue rfl fun _ _ hb => .inl hb
  | receive _ t r known => exact ht.applyTemplate hg known
  | dispel _ actor selector cause => exact ht.dispelFor hg actor selector cause
  | animate _ actor alive =>
    refine ht.congr rfl ht.queue rfl fun id b hb => .inl ?_
    have keeps : ∀ p : Profile, p.id = actor → ({ p with alive } : Profile).id = actor :=
      fun _ h => h
    rwa [World.bearer?_modifyProfile keeps] at hb
  | remove _ actor => exact ht.remove hg actor
  | setClock => exact ht.congr rfl ht.queue rfl fun _ _ hb => .inl hb
  | pass => exact ht.congr rfl ht.queue rfl fun _ _ hb => .inl hb
  | sweep =>
    exact ht.congr rfl ht.queue.skipDead (TimerQueue.pending_skipDead _) fun _ _ hb => .inl hb
  | take _ _ due => exact ht.take due
  | fire _ e => exact ht.fire hg

theorem acts {s s' : Engine × List Entry} (ht : Timed s.1 s.2) (hg : s.1.Sound) (h : Acts s s') :
    Timed s'.1 s'.2 := by
  induction h with
  | refl => exact ht
  | @tail s₁ s₂ hacts hact ih =>
    have hg₁ : s₁.1.Sound := hg.steps (steps_acts hg hacts)
    exact ih.act hg₁ hact

end Timed

theorem timed_opened (settings : Settings) (codex : Codex) (start : UInt64) (manual : Bool)
    (capacity : Nat) : Timed (opened settings codex start manual capacity) [] where
  queue := TimerQueue.sound_empty
  distinct := .nil
  apart _ hx := nomatch hx
  served _ _ hb := nomatch hb

theorem timed_run (settings : Settings) (codex : Codex) (start : UInt64) (manual : Bool)
    (capacity : Nat) (ops : List Op) :
    Timed ((opened settings codex start manual capacity).run ops) [] :=
  Timed.acts (s := (_, [])) (timed_opened settings codex start manual capacity)
    (sound_opened settings codex start manual capacity) (acts_run _ ops)

/-- **No timer is lost.**  After every run over an empty world each active effect that asks for a
timer has exactly one live timer under its key.  The one live entry of the backlog behind it is of
the kind the effect asks for and of its present generation, and it is given out by every batch that
is taken once it is due and that has room for all live timers. -/
theorem timers_run (settings : Settings) (codex : Codex) (start : UInt64) (manual : Bool)
    (capacity : Nat) (ops : List Op) {id : ActorId} {a : Actor} {e : Effect} {t : Timer}
    (found : ((opened settings codex start manual capacity).run ops).world.get? id = some a)
    (he : e ∈ a.bearer.list.effects) (asked : e.timer? settings.expiryUnit = some t) :
    let q := ((opened settings codex start manual capacity).run ops).queue
    ∃ x, (q.live.filter (·.1 == (id, e.id))) = [((id, e.id), x.live)] ∧
      (q.backlog.filter fun y => y.key == (id, e.id) && q.isLive y) = [x] ∧
      x.timer.kind = t.kind ∧ x.timer.generation = e.generation ∧
      ∀ now max, x.due ≤ now → q.size ≤ max → x ∈ (q.popDue now max).2 := by
  intro q
  have hopened := sound_opened settings codex start manual capacity
  have hsteps := steps_run hopened ops
  have ht := timed_run settings codex start manual capacity ops
  have hq : q.Sound := ht.queue
  have hbearer := World.bearer?_of_get? found
  have hsettings : ((opened settings codex start manual capacity).run ops).settings = settings :=
    settings_steps hsteps
  rw [← hsettings] at asked
  obtain ⟨x, hx, hmeets⟩ := ht.served id _ hbearer e he t asked
  have hx : x ∈ q.pending := by simpa using hx
  obtain ⟨hactor, heffect, hgeneration, -⟩ := Effect.of_timer? asked
  have htarget := ((hopened.steps hsteps id _ hbearer).seated e he).target
  have hkey : x.key = (id, e.id) := by
    rw [Timed.key_eq hmeets, hactor, heffect, htarget]
  have hfind : q.find? (id, e.id) = some x.live :=
    (TimerQueue.find?_eq_some_iff hq).2 ⟨x, hx, hkey, rfl⟩
  refine ⟨x, TimerQueue.filter_live_eq hq hfind, ?_, hmeets.kind,
    hmeets.generation.trans hgeneration, fun now max => TimerQueue.mem_popDue hq hx⟩
  have hsingle := TimerQueue.filter_pending_eq hq hx
  rw [hkey, TimerQueue.pending, List.filter_filter] at hsingle
  exact hsingle

/-- A hold that has ticked twice waits for its next tick. -/
theorem timers_run_hold :
    let g := (opened {} trialCodex 0 true 1).run [.enter 1, .cast 1 3, .advanceTo 1000]
    ∃ a e t, g.world.get? ⟨1⟩ = some a ∧ e ∈ a.bearer.list.effects ∧ e.ticks = 2 ∧
      e.timer? 1000 = some t ∧
      ∃ x, (g.queue.backlog.filter fun y => y.key == (⟨1⟩, ⟨1⟩) && g.queue.isLive y) = [x] ∧
        x.timer.kind = .tick ∧ x.timer.generation = 0 := by
  refine ⟨_, _, _, rfl, .head _, rfl, rfl, ?_⟩
  obtain ⟨x, -, hback, hkind, hgeneration, -⟩ := @timers_run {} trialCodex 0 true 1
    [.enter 1, .cast 1 3, .advanceTo 1000] ⟨1⟩ _ _ _ rfl (.head _) rfl
  exact ⟨x, hback, hkind, hgeneration⟩

end Engine

end StatusEffects
