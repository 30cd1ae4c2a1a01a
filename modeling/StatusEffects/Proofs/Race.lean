import StatusEffects.Proofs.Generation
import StatusEffects.Proofs.Upshot
import Mathlib.Data.List.Perm.Basic

/-!
# Racing timers

Workers take batches of timers out of the queue and fire them later, one at a time, while requests
and other workers go on.  A timer that has been taken is out of reach for whoever ends or renews its
effect; when it fires in the end it is told from a timer that counts by the generation it carries.
So at any time there is for every effect that needs a timer exactly one of its generation, in the
queue or in some hand, and whatever comes too late changes nothing.

## Main definitions

* `Race`, `Race.Move` : an engine with the timers in its workers' hands, and what may happen next.
* `Engine.current` : the timers of one generation of an effect.
* `Engine.Raced` : the invariant of races.
* `Engine.Origin` : where an effect that is borne after an operation comes from.

## Main statements

* `Engine.Raced.settle` : operations keep the invariant whatever is in other hands.
* `Engine.Raced.fire` : so do timers that fire, in whatever order.
* `Engine.Raced.act` : acts on some of the timers taken keep it for all of them.
* `Engine.fire_of_unheeded` : a timer that its effect does not heed is only counted.
* `Race.race_run` : at most one end, exactly one timer that counts, and late timers without effect.
-/

namespace StatusEffects

namespace Engine

open Bearer History

variable {g g' : Engine} {id k : ActorId} {a : Actor} {e e' : Effect} {x y : Entry} {t : Timer}
  {taken taken' spent rest es : List Entry} {events : List Event} {asked : Option Timer}
  {moment : Nat} {key : ActorId × EffectId} {generation : UInt32}

/-! ### Timers of one generation -/

/-- The timers of one generation of an effect. -/
def current (key : ActorId × EffectId) (generation : UInt32) (es : List Entry) : List Entry :=
  es.filter fun x => x.key == key && x.timer.generation == generation

theorem mem_current :
    x ∈ current key generation es ↔ x ∈ es ∧ x.key = key ∧ x.timer.generation = generation := by
  simp [current]

theorem current_append (es fs : List Entry) :
    current key generation (es ++ fs) = current key generation es ++ current key generation fs :=
  List.filter_append es fs

theorem current_eq_nil (h : ∀ x ∈ es, x.key = key → x.timer.generation ≠ generation) :
    current key generation es = [] := by
  refine List.eq_nil_iff_forall_not_mem.2 fun x hx => ?_
  obtain ⟨hx, hkey, hgeneration⟩ := mem_current.1 hx
  exact h x hx hkey hgeneration

section Settled

variable {q : TimerQueue}

/-- An effect of which no end is told, and for which no timer is asked, keeps its timers. -/
theorem current_settled_kept (hq : q.Sound)
    (untold : ∀ ev ∈ events, ev.endReason.isSome = true → (ev.actor, ev.effect.id) ≠ key)
    (unasked : ∀ t, asked = some t → (t.actor, t.effect) ≠ key) :
    (current key generation (settled q events asked moment).pending).Perm
      (current key generation q.pending) := by
  have hq' : (settled q events asked moment).Sound := sound_settled hq
  -- neither has duplicates, so they need only have the same members
  refine (List.perm_ext_iff_of_nodup ((TimerQueue.nodup_pending hq').filter _)
    ((TimerQueue.nodup_pending hq).filter _)).2 fun x => ?_
  rw [← current, ← current, mem_current, mem_current]
  refine and_congr_left fun ⟨hkey, _⟩ => ⟨fun hx => ?_, fun hx => ?_⟩
  · rcases of_mem_settled hq hx with ⟨hx, -, -⟩ | ⟨t, hasked, htimer, -⟩
    · exact hx
    · refine absurd ?_ (unasked t hasked)
      rw [← htimer]
      exact hkey
  · exact mem_settled hq hx (fun ev hev hend => hkey ▸ untold ev hev hend)
      fun t hasked => hkey ▸ (unasked t hasked).symm

/-- The timer that is asked for is the only one of its effect in the queue. -/
theorem current_settled_asked (hq : q.Sound) (hasked : asked = some t) :
    ∃ x : Entry, x.timer = t ∧ current (t.actor, t.effect) t.generation
      (settled q events asked moment).pending = [x] := by
  have hq' : (settled q events asked moment).Sound := sound_settled hq
  obtain ⟨x, hx, rfl⟩ : ∃ x ∈ (settled q events asked moment).pending, x.timer = t :=
    exists_settled hq hasked
  refine ⟨x, rfl, TimerQueue.filter_eq_singleton (TimerQueue.nodup_pending hq') hx ?_ ?_⟩
  · simp [Entry.key]
  · intro y hy hcurrent
    exact TimerQueue.eq_of_key_eq hq' hy hx (beq_iff_eq.1 (Bool.and_eq_true_iff.1 hcurrent).1)

end Settled

/-! ### The invariant -/

/-- What an engine is like while timers are in its workers' hands.  Each timer, in the queue or
taken, is of a generation that its effect has or has had, and an effect has those timers of its
present generation that it needs. -/
structure Raced (g : Engine) (taken : List Entry) : Prop where
  sound : g.Sound
  chronicled : Chronicled g.nextEffect g.shown g.log
  dated : g.Dated
  queue : g.queue.Sound
  known : ∀ x ∈ g.queue.pending ++ taken, history x.timer.effect g.log ≠ [] ∧
    ∃ n ≤ renewals x.timer.effect g.log, x.timer.generation = UInt32.ofNat n
  served : ∀ id e, g.Bears id e →
    ((current (id, e.id) e.generation (g.queue.pending ++ taken)).map (·.timer)).Perm
      (e.timer? g.settings.expiryUnit).toList

/-- No effect has been renewed more often than generations can count. -/
def Bounded (g : Engine) : Prop := ∀ k, renewals k g.log < UInt32.size

theorem Bounded.of_steps (hbound : g'.Bounded) (h : Steps g g') : g.Bounded := by
  intro k
  obtain ⟨more, hmore⟩ := log_steps h
  have hle := renewals_le_append k g.log more
  have hlt := hbound k
  rw [hmore] at hlt
  omega

/-- Where an effect comes from that is borne after an operation, which has told `events` and asked
for the timer `asked`, while the timers `spent` were used up and the timers `rest` were in other
hands. -/
inductive Origin (g : Engine) (events : List Event) (asked : Option Timer)
    (spent rest : List Entry) (k : ActorId) (e : Effect) : Prop
  /-- It was borne before and is left alone. -/
  | kept (bears : g.Bears k e)
      (untold : ∀ ev ∈ events, ev.endReason.isSome = true → (ev.actor, ev.effect.id) ≠ (k, e.id))
      (unasked : ∀ t, asked = some t → (t.actor, t.effect) ≠ (k, e.id))
      (unspent : ∀ y ∈ spent, y.key = (k, e.id) → y.timer.generation ≠ e.generation)
  /-- It asks for a timer, and of those there are none is of its generation. -/
  | anew (asks : e.timer? g.settings.expiryUnit = asked)
      (outdated : ∀ y ∈ g.queue.pending ++ rest, y.key = (k, e.id) →
        y.timer.generation ≠ e.generation)

namespace Raced

/-- Nothing that matters to timers has changed, except in whose hands they are. -/
theorem congr (hr : Raced g taken) (hsteps : Steps g g') (hq : g'.queue.Sound)
    (hlog : g'.log = g.log) (hbears : ∀ id e, g'.Bears id e → g.Bears id e)
    (hperm : (g'.queue.pending ++ taken').Perm (g.queue.pending ++ taken)) : Raced g' taken' where
  sound := hr.sound.steps hsteps
  chronicled := chronicled_steps hr.sound hr.chronicled hsteps
  dated := dated_steps hr.sound hr.chronicled hr.dated hsteps
  queue := hq
  known x hx := by
    rw [hlog]
    exact hr.known x (hperm.mem_iff.1 hx)
  served id e he := by
    rw [settings_steps hsteps]
    exact ((hperm.filter _).map _).trans (hr.served id e (hbears id e he))

/-- Timers that are known stay so, and one that is asked for is of the generation of its effect. -/
theorem known_settled (hr : Raced g (spent ++ rest)) (hsteps : Steps g g')
    (hqueue : g'.queue = settled g.queue events asked moment)
    (asks : ∀ t, asked = some t →
      ∃ k e, g'.Bears k e ∧ e.timer? g.settings.expiryUnit = some t)
    (hx : x ∈ g'.queue.pending ++ rest) :
    history x.timer.effect g'.log ≠ [] ∧
      ∃ n ≤ renewals x.timer.effect g'.log, x.timer.generation = UInt32.ofNat n := by
  have hold : x ∈ g.queue.pending ++ (spent ++ rest) → history x.timer.effect g'.log ≠ [] ∧
      ∃ n ≤ renewals x.timer.effect g'.log, x.timer.generation = UInt32.ofNat n := by
    intro hx
    obtain ⟨htold, n, hn, hgeneration⟩ := hr.known x hx
    obtain ⟨more, hmore⟩ := log_steps hsteps
    rw [hmore]
    refine ⟨?_, n, Nat.le_trans hn (renewals_le_append _ _ more), hgeneration⟩
    rw [history, List.filter_append]
    exact List.append_ne_nil_of_left_ne_nil htold _
  rcases List.mem_append.1 hx with hx | hx
  · rw [hqueue] at hx
    rcases of_mem_settled hr.queue hx with ⟨hx, -, -⟩ | ⟨t, hasked, rfl, -⟩
    · exact hold (List.mem_append_left _ hx)
    · obtain ⟨k, e, he, hneeded⟩ := asks _ hasked
      obtain ⟨-, heffect, hgeneration, -⟩ := Effect.of_timer? hneeded
      have hc := chronicled_steps hr.sound hr.chronicled hsteps
      rw [heffect]
      refine ⟨fun hnil => ?_, _, Nat.le_refl _, hgeneration.trans ?_⟩
      · exact not_running_nil (hnil ▸ running_of_bears hc he)
      · exact dated_steps hr.sound hr.chronicled hr.dated hsteps k e he
  · exact hold (List.mem_append_right _ (List.mem_append_right _ hx))

/-- An effect has the timers that it needs, wherever it comes from. -/
theorem served_settled (hr : Raced g (spent ++ rest)) (hg' : g'.Sound)
    (hqueue : g'.queue = settled g.queue events asked moment) (he : g'.Bears k e)
    (origin : Origin g events asked spent rest k e) :
    ((current (k, e.id) e.generation (g'.queue.pending ++ rest)).map (·.timer)).Perm
      (e.timer? g.settings.expiryUnit).toList := by
  rw [hqueue, current_append]
  cases origin with
  | kept bears untold unasked unspent =>
    have hserved := hr.served k e bears
    rw [current_append, current_append, current_eq_nil unspent, List.nil_append] at hserved
    exact (((current_settled_kept hr.queue untold unasked).append_right _).map _).trans hserved
  | anew asks outdated =>
    have hrest : current (k, e.id) e.generation rest = [] :=
      current_eq_nil fun y hy => outdated y (List.mem_append_right _ hy)
    rw [hrest, List.append_nil, asks]
    cases hasked : asked with
    | none =>
      have hpending : current (k, e.id) e.generation (settled g.queue events none moment).pending =
          [] := by
        refine current_eq_nil fun y hy => outdated y (List.mem_append_left _ ?_)
        exact ((mem_pending_cancelEnded hr.queue).1 hy).1
      rw [hpending]
      exact .refl _
    | some t =>
      obtain ⟨hactor, heffect, hgeneration, -⟩ := Effect.of_timer? (asks.trans hasked)
      obtain ⟨x, rfl, hone⟩ : ∃ x : Entry, x.timer = t ∧ current (t.actor, t.effect) t.generation
          (settled g.queue events (some t) moment).pending = [x] :=
        current_settled_asked hr.queue rfl
      obtain ⟨b, hb, hget⟩ := he
      have htarget := ((hg' k b hb).seated e (EffectList.mem_of_get? hget)).target
      rw [hactor, heffect, hgeneration, htarget] at hone
      rw [hone]
      exact .refl _

/-- **Operations keep the invariant**, whatever is in other hands. -/
theorem settle (hr : Raced g (spent ++ rest)) (hsteps : Steps g g')
    (hqueue : g'.queue = settled g.queue events asked moment)
    (origin : ∀ k e, g'.Bears k e → Origin g events asked spent rest k e)
    (asks : ∀ t, asked = some t →
      ∃ k e, g'.Bears k e ∧ e.timer? g.settings.expiryUnit = some t) : Raced g' rest where
  sound := hr.sound.steps hsteps
  chronicled := chronicled_steps hr.sound hr.chronicled hsteps
  dated := dated_steps hr.sound hr.chronicled hr.dated hsteps
  queue := hqueue ▸ sound_settled hr.queue
  known _ hx := hr.known_settled hsteps hqueue asks hx
  served k e he := by
    rw [settings_steps hsteps]
    exact hr.served_settled (hr.sound.steps hsteps) hqueue he (origin k e he)

/-! ### Requests -/

/-- Of an effect that has been told about and is borne now, an earlier state was borne. -/
theorem exists_bears (hr : Raced g taken) (hsteps : Steps g g') (he' : g'.Bears k e')
    (htold : history e'.id g.log ≠ []) : ∃ e, g.Bears k e ∧ e.id = e'.id := by
  obtain ⟨more, hmore⟩ := log_steps hsteps
  have hc' := chronicled_steps hr.sound hr.chronicled hsteps
  have hrun := running_of_bears hc' he'
  rw [hmore, history, List.filter_append] at hrun
  -- the history of a running effect was that of a running effect before
  have hbefore : Running k (history e'.id g.log) := by
    obtain ⟨s, later, heq, hall⟩ := hrun
    cases hhistory : history e'.id g.log with
    | nil => exact absurd hhistory htold
    | cons ev early =>
      rw [history] at hhistory
      rw [hhistory, List.cons_append] at heq
      obtain ⟨rfl, rfl⟩ := List.cons.inj heq
      exact ⟨s, early, rfl, fun y hy => hall y (List.mem_append_left _ hy)⟩
  have hshown := (hr.chronicled.recorded e'.id).running_iff.1 hbefore
  obtain ⟨a, found, e, he, hid, -⟩ := (hosts_iff hr.sound k e'.id).2 hshown
  exact ⟨e, bears_of_mem hr.sound found he, hid⟩

/-- An effect that is still borne has not been told to have ended. -/
theorem not_ended (hr : Raced g taken) (hsteps : Steps g g') (hlog : g'.log = g.log ++ events)
    (he' : g'.Bears k e') {ev : Event} (hev : ev ∈ history e'.id events) : ev.endReason = none := by
  have hrun := running_of_bears (chronicled_steps hr.sound hr.chronicled hsteps) he'
  rw [hlog, history, List.filter_append] at hrun
  exact hrun.endReason_eq_none (List.mem_append_right _ hev)

/-- Timers of an effect that has been renewed since are not of its generation. -/
theorem outdated (hr : Raced g taken) (hsteps : Steps g g') (hbound : g'.Bounded)
    (he' : g'.Bears k e') (hlater : renewals e'.id g.log < renewals e'.id g'.log)
    (hx : x ∈ g.queue.pending ++ taken) (heffect : x.timer.effect = e'.id) :
    x.timer.generation ≠ e'.generation := by
  obtain ⟨-, n, hn, hgeneration⟩ := hr.known x hx
  have hdated := dated_steps hr.sound hr.chronicled hr.dated hsteps k e' he'
  have hlt : renewals e'.id g'.log < UInt32.size := hbound e'.id
  rw [heffect] at hn
  rw [hgeneration, hdated]
  intro heq
  -- neither number of renewals wraps around, so equal generations are equal numbers
  have hnat := congrArg UInt32.toNat heq
  rw [UInt32.toNat_ofNat_of_lt' (by omega), UInt32.toNat_ofNat_of_lt' hlt] at hnat
  omega

/-- **Where the effects come from** that an actor bears after a request. -/
theorem origin_request {α : Type} {o : Outcome α} (hr : Raced g taken) (hsteps : Steps g g')
    (hbound : g'.Bounded) (found : g.world.get? id = some a)
    (hfares : ∀ e ∈ a.bearer.list.effects, Fares g.settings.expiryUnit asked a.bearer o e)
    (hattended : Attended g.settings.expiryUnit id none asked a.bearer o)
    (hlog : g'.log = g.log ++ o.events) (he' : g'.Bears id e')
    (hmem : e' ∈ o.bearer.list.effects) (hget : o.bearer.list.get? e'.id = some e') :
    Origin g o.events asked [] taken id e' := by
  by_cases hborne : ∃ e ∈ a.bearer.list.effects, e.id = e'.id
  · obtain ⟨e, he, hid⟩ := hborne
    cases hfares e he with
    | kept stays told unasked =>
      rw [hid, hget, Option.some.injEq] at stays
      subst stays
      refine .kept (bears_of_mem hr.sound found he) (fun ev hev _ hkey => ?_)
        (fun t ht hkey => unasked t ht (congrArg Prod.snd hkey)) fun _ h => nomatch h
      have heffect : ev.effect.id = e'.id := congrArg Prod.snd hkey
      exact List.filter_eq_nil_iff.1 told ev hev (beq_iff_eq.2 heffect)
    | parted _ told _ =>
      rw [hid] at told
      have hend := hr.not_ended hsteps hlog he' (told ▸ List.mem_cons_self)
      cases hend
    | renewed stays told asks =>
      rw [hid, hget, Option.some.injEq] at stays
      refine .anew (stays ▸ asks.symm) fun y hy hkey => ?_
      refine hr.outdated hsteps hbound he' ?_ hy (congrArg Prod.snd hkey)
      rw [hlog, told, renewals_refreshed _ _ (stays ▸ rfl)]
      exact Nat.lt_succ_self _
  · -- an effect that was not there before has no timers yet
    rcases hattended.kept e' hmem with hasked | ⟨hmem, -⟩
    · refine .anew hasked fun y hy hkey => ?_
      have heffect : y.timer.effect = e'.id := congrArg Prod.snd hkey
      obtain ⟨e, he, hid⟩ := hr.exists_bears hsteps he' (heffect ▸ (hr.known y hy).1)
      exact absurd ⟨e, mem_of_bears found he, hid⟩ hborne
    · exact absurd ⟨e', hmem, rfl⟩ hborne

/-- **Requests keep the invariant.** -/
theorem request {α : Type} {o : Outcome α} {w : World} (hr : Raced g taken) (hsteps : Steps g g')
    (hbound : g'.Bounded) (found : g.world.get? id = some a)
    (hfares : ∀ e ∈ a.bearer.list.effects, Fares g.settings.expiryUnit asked a.bearer o e)
    (hattended : Attended g.settings.expiryUnit id none asked a.bearer o)
    (hu : Upshot id w o.events asked moment g g')
    (hself : ∀ b, g'.world.bearer? id = some b → b = o.bearer)
    (hothers : ∀ k, k ≠ id → g'.world.bearer? k = g.world.bearer? k)
    (asks : ∀ t, asked = some t →
      ∃ k e, g'.Bears k e ∧ e.timer? g.settings.expiryUnit = some t) : Raced g' taken := by
  have hr' : Raced g ([] ++ taken) := hr
  refine hr'.settle hsteps hu.queue (fun k e' he' => ?_) asks
  by_cases hk : k = id
  · subst hk
    have he := he'
    obtain ⟨b, hb, hget⟩ := he
    obtain rfl := hself b hb
    exact hr.origin_request hsteps hbound found hfares hattended hu.log_eq he'
      (EffectList.mem_of_get? hget) hget
  · obtain ⟨b, hb, hget⟩ := he'
    rw [hothers k hk] at hb
    refine .kept ⟨b, hb, hget⟩ (fun ev hev _ hkey => hk ?_) (fun t ht hkey => hk ?_)
      fun _ h => nomatch h
    · exact (congrArg Prod.fst hkey).symm.trans (hu.about ev hev)
    · exact (congrArg Prod.fst hkey).symm.trans (hu.asks t ht)

theorem applyTemplate {r : Request} {t : Template} (hr : Raced g taken)
    (known : t ∈ g.codex.templates) (hbound : (g.applyTemplate t r).1.Bounded) :
    Raced (g.applyTemplate t r).1 taken := by
  cases passed : g.gate t r with
  | error refusal => rwa [applyTemplate_of_error passed]
  | ok a =>
    have found := get?_of_gate passed
    have hb := hr.sound.bearer found
    have hin := incoming_incoming (r := r) known
    have hu := upshot_applyTemplate hr.sound known passed
    obtain ⟨hself, hothers⟩ := Timed.eq_of_setBearer found hu.world
    refine hr.request (steps_applyTemplate hr.sound known) hbound found
      (fun e he => hb.fares_apply hin he a.profile g.settings)
      (hb.attended_apply hin a.profile g.settings) hu hself hothers fun t ht => ?_
    obtain ⟨e, hget, hasked, -⟩ := hb.asks_apply hin ht
    exact ⟨r.target, e, (bears_setBearer found hu.world).1 e hget, hasked⟩

theorem dispelFor (hr : Raced g taken) (actor : ActorId) (selector : Selector) (cause : Cause)
    (hbound : (g.dispelFor actor selector cause).1.Bounded) :
    Raced (g.dispelFor actor selector cause).1 taken := by
  cases found : g.world.get? actor with
  | none =>
    unfold Engine.dispelFor
    rw [found]
    exact hr
  | some a =>
    have hb := hr.sound.bearer found
    have hu := upshot_dispelFor hr.sound found selector cause
    obtain ⟨hself, hothers⟩ := Timed.eq_of_setBearer found hu.world
    exact hr.request (steps_dispelFor g actor selector cause) hbound found
      (fun e he => hb.fares_dispel he g.settings selector cause)
      (hb.attended_dispel g.settings selector cause) hu hself hothers fun _ h => nomatch h

theorem remove (hr : Raced g taken) (actor : ActorId) (hbound : (g.remove actor).1.Bounded) :
    Raced (g.remove actor).1 taken := by
  cases found : g.world.get? actor with
  | none =>
    unfold Engine.remove
    rw [found]
    exact hr
  | some a =>
    have hb := hr.sound.bearer found
    have hu := upshot_remove hr.sound found
    refine hr.request (steps_remove g actor) hbound found (fun e he => hb.fares_clear he)
      (hb.attended_clear g.settings .actorRemoved) hu (fun b hb => ?_) (fun k hk => ?_)
      fun _ h => nomatch h
    · rw [hu.world, World.bearer?_remove, if_pos rfl] at hb
      cases hb
    · rw [hu.world, World.bearer?_remove, if_neg hk]

end Raced

/-! ### Timers that fire -/

/-- **A timer that its effect does not heed is only counted**, as is one whose effect or actor is
gone. -/
theorem fire_of_unheeded
    (h : ∀ e, g.Bears x.timer.actor e → e.id = x.timer.effect → e.heeds x.timer = false) :
    g.fire x = g.record .stale := by
  unfold fire
  cases found : g.world.get? x.timer.actor with
  | none => rfl
  | some a =>
    have hstale : a.bearer.fire g.settings x.timer = ⟨a.bearer, [], .stale⟩ := by
      cases hget : a.bearer.list.get? x.timer.effect with
      | none => exact Bearer.fire_of_get?_none hget
      | some e =>
        have hid := EffectList.id_of_get? hget
        have hunheeded := h e ⟨_, World.bearer?_of_get? found, hid ▸ hget⟩ hid
        rw [Bearer.fire_of_get? hget, Effect.reply, hunheeded]
        rfl
    simp only [hstale, reschedule, conclude, Engine.settle, World.setBearer_bearer found,
      Feed.publishAll_nil]
    rfl

namespace Raced

/-- The timers of a generation are none, or the one that the effect needs. -/
theorem current_eq (hr : Raced g taken) (he : g.Bears id e)
    (hx : x ∈ current (id, e.id) e.generation (g.queue.pending ++ taken)) :
    current (id, e.id) e.generation (g.queue.pending ++ taken) = [x] ∧
      e.timer? g.settings.expiryUnit = some x.timer := by
  have hserved := hr.served id e he
  cases hneeded : e.timer? g.settings.expiryUnit with
  | none =>
    rw [hneeded] at hserved
    rw [List.map_eq_nil_iff.1 hserved.eq_nil] at hx
    cases hx
  | some t =>
    rw [hneeded] at hserved
    obtain ⟨y, hone, rfl⟩ := List.map_eq_singleton_iff.1 (List.perm_singleton.1 hserved)
    rw [hone] at hx ⊢
    rw [List.mem_singleton.1 hx]
    exact ⟨rfl, rfl⟩

/-- A timer of the present generation of its effect is heeded. -/
theorem heeds_of_current (hr : Raced g taken) (he : g.Bears id e)
    (hx : x ∈ g.queue.pending ++ taken) (hkey : x.key = (id, e.id))
    (hgeneration : x.timer.generation = e.generation) : e.heeds x.timer = true :=
  Effect.heeds_of_meets (hr.current_eq he (mem_current.2 ⟨hx, hkey, hgeneration⟩)).2
    ⟨rfl, rfl, rfl, rfl⟩

/-- A timer that is not heeded is of no effect's generation, and is not missed. -/
theorem fire_unheeded (hr : Raced g ([x] ++ rest))
    (h : ∀ e, g.Bears x.timer.actor e → e.id = x.timer.effect → e.heeds x.timer = false) :
    Raced (g.fire x) rest := by
  have hsteps := steps_fire g x
  rw [fire_of_unheeded h] at hsteps ⊢
  have hqueue : (g.record .stale).queue = settled g.queue [] none 0 := rfl
  refine hr.settle hsteps hqueue (fun k e he => ?_) fun _ ht => nomatch ht
  refine .kept he (fun _ hev => nomatch hev) (fun _ ht => nomatch ht) fun y hy hkey hcurrent => ?_
  obtain rfl := List.mem_singleton.1 hy
  have hheeds := hr.heeds_of_current he (List.mem_append_right _ List.mem_cons_self) hkey hcurrent
  have hactor : y.timer.actor = k := congrArg Prod.fst hkey
  rw [h e (hactor ▸ he) (congrArg Prod.snd hkey).symm] at hheeds
  cases hheeds

/-- A timer leaves the effects that it is not for as they were. -/
theorem bears_of_fire (hkey : x.key ≠ (k, e.id)) (he : (g.fire x).Bears k e) : g.Bears k e := by
  rwa [bears_iff, ← effect?_fire_of_ne g (Ne.symm hkey), ← bears_iff]

/-- No timer is left of the generation of which one has fired. -/
theorem ne_generation (hr : Raced g ([x] ++ rest)) (he : g.Bears id e) (hkey : x.key = (id, e.id))
    (hgeneration : x.timer.generation = e.generation) :
    ∀ y ∈ g.queue.pending ++ rest, y.key = (id, e.id) → y.timer.generation ≠ e.generation := by
  intro y hy hykey hcurrent
  have hperm : (g.queue.pending ++ ([x] ++ rest)).Perm (x :: (g.queue.pending ++ rest)) :=
    List.perm_middle
  obtain ⟨hone, -⟩ := hr.current_eq he
    (mem_current.2 ⟨hperm.mem_iff.2 List.mem_cons_self, hkey, hgeneration⟩)
  -- a second one would be counted next to the one that has fired
  have hlength := (hperm.filter fun y => y.key == (id, e.id) &&
    y.timer.generation == e.generation).length_eq
  rw [List.filter_cons_of_pos (by simp [hkey, hgeneration])] at hlength
  have hpos := List.length_pos_of_mem (mem_current.2 ⟨hy, hykey, hcurrent⟩)
  unfold current at hone hpos
  rw [hone, List.length_cons, List.length_nil, List.length_cons] at hlength
  omega

/-- An effect that is borne after its timer has been heeded has ticked and asked for the next. -/
theorem origin_fired (hr : Raced g ([x] ++ rest)) (he : g.Bears id e) (hkey : x.key = (id, e.id))
    (hheeds : e.heeds x.timer = true) (he' : (g.fire x).Bears id e') (hid : e'.id = e.id) :
    Origin g (g.world.fire g.settings x.timer).2.1
      (nextTimer (g.world.fire g.settings x.timer).2.2) [x] rest id e' := by
  have hgeneration : x.timer.generation = e.generation := (Effect.heeds_iff.1 hheeds).1.symm
  have hsteps := steps_fire g x
  obtain ⟨hworld, hfeed, -, -⟩ := fire_eq g x
  obtain ⟨a, found, hget, hfire⟩ := world_fire_of_bears hr.sound he hkey
  have hlog := log_publishAll g.feed x.due (g.world.fire g.settings x.timer).2.1
  rw [← hfeed] at hlog
  rw [hfire] at hworld hlog ⊢
  have hreplies := e.replies g.settings.expiryUnit x.timer
  generalize e.reply g.settings.expiryUnit x.timer = r at hworld hlog hreplies ⊢
  cases hreplies with
  | stale unheeded =>
    rw [hheeds] at unheeded
    cases unheeded
  | again _ _ _ _ asked =>
    obtain ⟨b, hb, hget'⟩ := he'
    obtain rfl := (Timed.eq_of_setBearer found hworld).1 b hb
    have hticked : (a.bearer.list.update e.id e.countTick).get? e.id = some e.countTick :=
      get?_update_self hget rfl
    rw [hid] at hget'
    obtain rfl := Option.some.inj (hticked.symm.trans hget')
    have hne := hr.ne_generation he hkey hgeneration
    exact .anew asked hne
  -- an effect of which the end is told is not borne any more
  | last =>
    have hend : Event.ended id e.countTick.summary .expired ∈
        history e'.id (Reply.events id e (.last e.countTick)) :=
      List.mem_filter.2 ⟨List.mem_cons_of_mem _ List.mem_cons_self, beq_iff_eq.2 hid.symm⟩
    cases hr.not_ended hsteps hlog he' hend
  | ends =>
    have hend : Event.ended id e.summary .expired ∈ history e'.id (Reply.events id e .ends) :=
      List.mem_filter.2 ⟨List.mem_cons_self, beq_iff_eq.2 hid.symm⟩
    cases hr.not_ended hsteps hlog he' hend

/-- **A timer that fires keeps the invariant**, whoever holds it. -/
theorem fire (hr : Raced g ([x] ++ rest)) : Raced (g.fire x) rest := by
  by_cases hheeded : ∃ e, g.Bears x.timer.actor e ∧ e.id = x.timer.effect ∧
      e.heeds x.timer = true
  · obtain ⟨e, he, hid, hheeds⟩ := hheeded
    have hkey : x.key = (x.timer.actor, e.id) := Prod.ext rfl hid.symm
    obtain ⟨hworld, -, hqueue, -⟩ := fire_eq g x
    obtain ⟨htold, hasked⟩ := about_fire hr.sound x
    refine hr.settle (steps_fire g x) hqueue (fun k e' he' => ?_) fun t ht => ?_
    · by_cases hsame : x.key = (k, e'.id)
      · obtain ⟨rfl, hid'⟩ := Prod.mk.inj (hsame.symm.trans hkey)
        exact hr.origin_fired he hkey hheeds he' hid'
      · refine .kept (bears_of_fire hsame he') (fun ev hev _ hev' => hsame ?_)
          (fun t ht ht' => hsame ?_) fun y hy hykey => absurd ?_ hsame
        · exact (htold ev hev).symm.trans hev'
        · exact (hasked t ht).symm.trans ht'
        · rw [List.mem_singleton.1 hy] at hykey
          exact hykey
    · -- the effect that has ticked asks for its next timer
      obtain ⟨b, hb, -⟩ := he
      obtain ⟨a, found, -⟩ := Option.map_eq_some_iff.1 hb
      rw [World.fire_of_get? found] at hworld ht
      obtain ⟨f, hget, hneeded⟩ := asks_fire ht
      exact ⟨x.timer.actor, f, (bears_setBearer found hworld).1 f hget, hneeded⟩
  · refine hr.fire_unheeded fun e he hid => ?_
    by_contra hheeds
    exact hheeded ⟨e, he, hid, by simpa using hheeds⟩

/-! ### Acts -/

/-- A timer passes from the queue into a worker's hands. -/
theorem take {now : Nat} {queue : TimerQueue} (hr : Raced g (taken ++ rest))
    (due : g.queue.pop now = (queue, some x)) : Raced { g with queue } (taken ++ [x] ++ rest) := by
  obtain ⟨hqueue, hpending, -⟩ := hr.queue.pop_some due
  refine hr.congr (.single (.quiet rfl)) hqueue rfl (fun _ _ he => he) ?_
  have hsplit : queue.pending ++ (taken ++ [x] ++ rest) = queue.pending ++ taken ++ x :: rest := by
    simp only [List.append_assoc, List.singleton_append]
  rw [hpending, hsplit, List.cons_append, ← List.append_assoc]
  exact List.perm_middle

/-- **Acts on some of the timers taken keep the invariant for all of them.** -/
theorem act (hr : Raced g (taken ++ rest)) (h : Act (g, taken) (g', taken'))
    (hbound : g'.Bounded) : Raced g' (taken' ++ rest) := by
  have hsteps := steps_act hr.sound h
  cases h with
  | spawn _ p =>
    refine hr.congr hsteps hr.queue rfl (fun id e he => ?_) (.refl _)
    obtain ⟨b, hb, hget⟩ := he
    cases known : g.world.get? p.id with
    | none =>
      simp only [Engine.spawn, World.bearer?_spawn_new known] at hb
      split_ifs at hb
      · obtain rfl := Option.some.inj hb
        cases hget
      · exact ⟨b, hb, hget⟩
    | some a =>
      simp only [Engine.spawn, World.spawn_known known] at hb
      rw [World.bearer?_modifyProfile fun _ _ => rfl] at hb
      exact ⟨b, hb, hget⟩
  | locate => exact hr.congr hsteps hr.queue rfl (fun _ _ he => he) (.refl _)
  | receive _ t r known => exact hr.applyTemplate known hbound
  | dispel _ actor selector cause => exact hr.dispelFor actor selector cause hbound
  | animate _ actor alive =>
    refine hr.congr hsteps hr.queue rfl (fun id e he => ?_) (.refl _)
    have keeps : ∀ p : Profile, p.id = actor → ({ p with alive } : Profile).id = actor :=
      fun _ h => h
    exact bears_congr (World.bearer?_modifyProfile keeps).symm he
  | remove _ actor => exact hr.remove actor hbound
  | setClock => exact hr.congr hsteps hr.queue rfl (fun _ _ he => he) (.refl _)
  | pass => exact hr.congr hsteps hr.queue rfl (fun _ _ he => he) (.refl _)
  | sweep =>
    refine hr.congr hsteps hr.queue.skipDead rfl (fun _ _ he => he) ?_
    rw [TimerQueue.pending_skipDead]
  | take _ _ due => exact hr.take due
  | fire _ e =>
    have hr' : Raced g ([e] ++ (taken' ++ rest)) := hr
    exact hr'.fire

theorem acts {s s' : Engine × List Entry} (hr : Raced s.1 (s.2 ++ rest)) (h : Acts s s')
    (hbound : s'.1.Bounded) : Raced s'.1 (s'.2 ++ rest) := by
  induction h with
  | refl => exact hr
  | @tail s₁ s₂ hacts hact ih =>
    have hsteps := steps_act (hr.sound.steps (steps_acts hr.sound hacts)) hact
    -- renewals only add up, so that the bound in the end is one all along
    exact (ih (hbound.of_steps hsteps)).act hact hbound

end Raced

theorem raced_opened (settings : Settings) (codex : Codex) (start : UInt64) (manual : Bool)
    (capacity : Nat) : Raced (opened settings codex start manual capacity) [] where
  sound := sound_opened settings codex start manual capacity
  chronicled := chronicled_opened settings codex start manual capacity
  dated _ _ he := by
    obtain ⟨b, hb, -⟩ := he
    cases hb
  queue := TimerQueue.sound_empty
  known _ hx := nomatch hx
  served _ _ he := by
    obtain ⟨b, hb, -⟩ := he
    cases hb

/-! ### Overtaken timers -/

/-- An effect whose end or renewal has been told since does not heed the timers of before. -/
theorem Raced.overtaken {ev : Event} (hr : Raced g taken) (hsteps : Steps g g')
    (hbound : g'.Bounded) (hlog : g'.log = g.log ++ events)
    (hx : x ∈ g.queue.pending ++ taken) (hev : ev ∈ events)
    (heffect : ev.effect.id = x.timer.effect)
    (hnews : ev.endReason.isSome = true ∨ ev.isRefresh = true)
    (he' : g'.Bears id e') (hid : e'.id = x.timer.effect) : e'.heeds x.timer = false := by
  have hsame : ev.effect.id = e'.id := heffect.trans hid.symm
  have hnone := hr.not_ended hsteps hlog he' (List.mem_filter.2 ⟨hev, beq_iff_eq.2 hsame⟩)
  have hrefresh : ev.isRefresh = true := hnews.resolve_left (by simp [hnone])
  have hlater : renewals e'.id g.log < renewals e'.id g'.log := by
    have hpos := renewals_pos_of_mem hev hrefresh
    rw [hlog, renewals_append, ← hsame]
    omega
  have hne := hr.outdated hsteps hbound he' hlater hx hid.symm
  by_contra hheeds
  have hheeds : e'.heeds x.timer = true := by simpa using hheeds
  exact hne (Effect.heeds_iff.1 hheeds).1.symm

end Engine

/-! ### Races -/

/-- An engine and the timers in its workers' hands. -/
structure Race where
  engine : Engine
  taken : List Entry := []

namespace Race

open Engine

/-- What may happen next.  A worker takes a batch of timers at once, and fires them one by one. -/
inductive Move where
  | perform (op : Op)
  /-- A worker takes timers that are due by a moment out of the queue. -/
  | pop (now max : UInt64)
  /-- One of the timers in the workers' hands fires. -/
  | fire (place : Nat)

/-- The race after a move. -/
def step (s : Race) : Move → Race
  | .perform op => { s with engine := s.engine.perform op }
  | .pop now max =>
    let (queue, batch) := s.engine.queue.popDue now.toNat max.toNat
    ⟨{ s.engine with queue }, s.taken ++ batch⟩
  | .fire place =>
    match s.taken[place]? with
    | none => s
    | some x => ⟨s.engine.fire x, s.taken.eraseIdx place⟩

/-- The race after a list of moves. -/
def run (s : Race) (moves : List Move) : Race := moves.foldl step s

variable {s : Race}

theorem steps_step (hs : s.engine.Sound) (move : Move) : Steps s.engine (s.step move).engine := by
  cases move with
  | perform op => exact steps_acts (s := (s.engine, [])) hs (acts_perform s.engine op)
  | pop now max => exact .single (.quiet rfl)
  | fire place =>
    simp only [step]
    cases s.taken[place]? with
    | none => exact .refl
    | some x => exact steps_fire s.engine x

theorem steps_run (hs : s.engine.Sound) (moves : List Move) :
    Steps s.engine (s.run moves).engine := by
  induction moves generalizing s with
  | nil => exact .refl
  | cons move rest ih =>
    have hfirst := steps_step hs move
    exact hfirst.trans (ih (hs.steps hfirst))

/-- **A move keeps the invariant.** -/
theorem raced_step (hr : Raced s.engine s.taken) (move : Move)
    (hbound : (s.step move).engine.Bounded) :
    Raced (s.step move).engine (s.step move).taken := by
  cases move with
  | perform op =>
    exact Raced.acts (s := (s.engine, [])) hr (acts_perform s.engine op) hbound
  | pop now max =>
    have hacts := acts_popDue s.engine s.taken now.toNat max.toNat
    rw [← List.append_nil s.taken] at hr
    have hr' := Raced.acts (s := (s.engine, s.taken)) hr hacts hbound
    rw [List.append_nil] at hr'
    exact hr'
  | fire place =>
    simp only [step] at hbound ⊢
    cases found : s.taken[place]? with
    | none => exact hr
    | some x =>
      obtain ⟨hplace, rfl⟩ := List.getElem?_eq_some_iff.1 found
      have hperm := List.getElem_cons_eraseIdx_perm hplace
      have hr' : Raced s.engine ([s.taken[place]] ++ s.taken.eraseIdx place) :=
        hr.congr .refl hr.queue rfl (fun _ _ he => he) (hperm.append_left _)
      exact hr'.fire

theorem raced_run (hr : Raced s.engine s.taken) (moves : List Move)
    (hbound : (s.run moves).engine.Bounded) :
    Raced (s.run moves).engine (s.run moves).taken := by
  induction moves generalizing s with
  | nil => exact hr
  | cons move rest ih =>
    have hsteps := steps_step hr.sound move
    have hfirst := hbound.of_steps (steps_run (hr.sound.steps hsteps) rest)
    exact ih (raced_step hr move hfirst) hbound

/-- **Racing timers are harmless.**  Take any run of an engine over an empty world in which requests,
workers that take timers and single timers that fire come in any order, and let no effect be renewed
more often than generations can count.  Nothing is told of an effect after its end, and so it ends
once.  An effect that needs a timer has exactly one of its present generation, in the queue or in
some hand.  A timer that was in some hand when its effect ended or was renewed, or whose actor has
left, changes nothing when it fires: it is only counted as stale. -/
theorem race_run (settings : Settings) (codex : Codex) (start : UInt64) (manual : Bool)
    (capacity : Nat) (before moves : List Move) :
    let s₀ := Race.run { engine := opened settings codex start manual capacity } before
    let s := s₀.run moves
    (∀ earlier ev later, s.engine.log = earlier ++ ev :: later → ev.endReason.isSome = true →
      ∀ ev' ∈ later, ev'.effect.id ≠ ev.effect.id) ∧
    ((∀ k, renewals k s.engine.log < UInt32.size) →
      (∀ id e t, s.engine.Bears id e → e.timer? settings.expiryUnit = some t →
        ∃ x, current (id, e.id) e.generation (s.engine.queue.pending ++ s.taken) = [x] ∧
          x.timer = t) ∧
      ∀ x ∈ s₀.taken,
        ((∃ ev ∈ s.engine.log.drop s₀.engine.log.length, ev.effect.id = x.timer.effect ∧
            (ev.endReason.isSome = true ∨ ev.isRefresh = true)) ∨
          s.engine.world.get? x.timer.actor = none) →
        s.engine.fire x =
          { s.engine with
            metrics := { s.engine.metrics with stale := s.engine.metrics.stale + 1 } }) := by
  intro s₀ s
  have hopened := raced_opened settings codex start manual capacity
  have hsteps₀ : Steps (opened settings codex start manual capacity) s₀.engine :=
    steps_run (s := { engine := _ }) hopened.sound before
  have hs₀ : s₀.engine.Sound := hopened.sound.steps hsteps₀
  have hsteps : Steps s₀.engine s.engine := steps_run hs₀ moves
  refine ⟨fun earlier ev later hlog hend ev' hev' hsame => ?_, fun hbound => ⟨?_, ?_⟩⟩
  · have hc := chronicled_steps hopened.sound hopened.chronicled (hsteps₀.trans hsteps)
    have hrecorded := hc.recorded ev.effect.id
    rw [hlog, List.append_cons, history, List.filter_append] at hrecorded
    have hmem : ev ∈ (earlier ++ [ev]).filter (·.effect.id == ev.effect.id) := by simp
    have hnil := hrecorded.eq_nil_of_ended hmem (Option.isSome_iff_ne_none.1 hend)
    exact List.filter_eq_nil_iff.1 hnil ev' hev' (beq_iff_eq.2 hsame)
  · intro id e t he hneeded
    have hr : Raced s.engine s.taken :=
      raced_run (raced_run (s := { engine := _ }) hopened before (Bounded.of_steps hbound hsteps))
        moves hbound
    have hsettings : s.engine.settings = settings := settings_steps (hsteps₀.trans hsteps)
    have hserved := hr.served id e he
    rw [hsettings, hneeded] at hserved
    exact List.map_eq_singleton_iff.1 (List.perm_singleton.1 hserved)
  · intro x hx hovertaken
    have hr₀ : Raced s₀.engine s₀.taken :=
      raced_run (s := { engine := _ }) hopened before (Bounded.of_steps hbound hsteps)
    obtain ⟨more, hlog⟩ := log_steps hsteps
    refine fire_of_unheeded fun e he hid => ?_
    rcases hovertaken with ⟨ev, hev, heffect, hnews⟩ | absent
    · rw [hlog, List.drop_left] at hev
      exact hr₀.overtaken hsteps hbound hlog (List.mem_append_right _ hx) hev heffect hnews he hid
    · obtain ⟨b, hb, -⟩ := he
      rw [World.bearer?_eq_none.2 absent] at hb
      cases hb

/-- A hold is renewed while the timer of its first tick is in a worker's hand. -/
theorem race_run_renewed :
    let s₀ := Race.run { engine := opened {} trialCodex 0 true 4 }
      [.perform (.enter 1), .perform (.cast 1 3), .perform (.setClock 500), .pop 500 8]
    let s := s₀.run [.perform (.cast 1 3)]
    (∀ k, renewals k s.engine.log < UInt32.size) ∧
    (∃ e t, s.engine.Bears ⟨1⟩ e ∧ e.timer? 1000 = some t ∧ t.generation = 1 ∧
      ∃ y, current (⟨1⟩, e.id) e.generation (s.engine.queue.pending ++ s.taken) = [y] ∧
        y.timer = t) ∧
    ∃ x ∈ s₀.taken, x ∈ s.taken ∧ x.timer.generation = 0 ∧
      s.engine.fire x =
        { s.engine with
          metrics := { s.engine.metrics with stale := s.engine.metrics.stale + 1 } } := by
  intro s₀ s
  have hlength : s.engine.log.length = 2 := rfl
  have hbound : ∀ k, renewals k s.engine.log < UInt32.size := by
    intro k
    have hle := renewals_le_length k s.engine.log
    exact Nat.lt_of_le_of_lt (hlength ▸ hle) (by decide)
  obtain ⟨-, hrace⟩ := race_run {} trialCodex 0 true 4
    [.perform (.enter 1), .perform (.cast 1 3), .perform (.setClock 500), .pop 500 8]
    [.perform (.cast 1 3)]
  obtain ⟨hserved, hstale⟩ := hrace hbound
  obtain ⟨b, e, t, hb, hget, hid, hneeded, hgeneration⟩ : ∃ b e t,
      s.engine.world.bearer? ⟨1⟩ = some b ∧ b.list.get? ⟨1⟩ = some e ∧ e.id = ⟨1⟩ ∧
        e.timer? 1000 = some t ∧ t.generation = 1 := ⟨_, _, _, rfl, rfl, rfl, rfl, rfl⟩
  have he : s.engine.Bears ⟨1⟩ e := ⟨b, hb, hid.symm ▸ hget⟩
  refine ⟨hbound, ⟨e, t, he, hneeded, hgeneration, hserved ⟨1⟩ e t he hneeded⟩, ?_⟩
  exact ⟨_, .head _, .head _, rfl, hstale _ (.head _) (.inl ⟨_, .head _, rfl, .inr rfl⟩)⟩

end Race

end StatusEffects
