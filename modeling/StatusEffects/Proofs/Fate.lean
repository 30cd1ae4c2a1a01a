import StatusEffects.Proofs.Chronicle
import StatusEffects.Proofs.Standing

/-!
# What becomes of a running effect

An operation leaves a running effect alone, ends it before its time, renews it, or fires its timer.
With each of these goes what is published about the effect and which of its timers are left.  Every
act of an engine is described here once, first for one bearer and then for the engine; what holds of
a running effect along a run follows from the four ways alone.

## Main definitions

* `Bearer.Fares` : what an operation on request makes of a running effect.
* `Engine.Bears`, `Engine.effect?` : an actor bears an effect; the effect under a key.
* `Engine.Deed` : what an act comes down to.
* `Engine.Fate` : what an act makes of a running effect, of its news and of its timers.

## Main statements

* `Bearer.Sound.fares_apply`, `Bearer.Sound.fares_dispel`, `Bearer.Sound.fares_clear` : the
  operations on request.
* `Engine.deed_act` : every act is a deed.
* `Engine.Deed.fate`, `Engine.Deed.fresh` : the fate of an effect, and where timers come from.
-/

namespace StatusEffects

namespace Bearer

variable {codex : Codex} {next : Nat} {id : ActorId} {b : Bearer} {p : Profile}
  {settings : Settings} {incoming e : Effect} {k : EffectId} {reason : EndReason} {unit : UInt64}
  {asked : Option Timer}

/-- What an operation on request makes of a running effect, where `asked` is the timer it asks
for. -/
inductive Fares {α : Type} (unit : UInt64) (asked : Option Timer) (b : Bearer) (o : Outcome α)
    (e : Effect) : Prop
  /-- It is left alone. -/
  | kept (stays : o.bearer.list.get? e.id = some e) (told : history e.id o.events = [])
      (unasked : ∀ t, asked = some t → t.effect ≠ e.id)
  /-- It ends before its time. -/
  | parted {reason : EndReason} (unexpired : reason ≠ .expired)
      (told : history e.id o.events = [.ended b.owner e.summary reason])
      (unasked : ∀ t, asked = some t → t.effect ≠ e.id)
  /-- It is renewed and asks for the timer that it needs from now on. -/
  | renewed {params : Params} {adopt : Bool}
      (stays : o.bearer.list.get? e.id = some (e.refresh params adopt))
      (told : o.events = [.refreshed b.owner (e.refresh params adopt).summary])
      (asks : asked = (e.refresh params adopt).timer? unit)

/-! ### Removals -/

/-- Among the ends of several effects there is one for each of them. -/
theorem history_ends {es : List Effect} (h : (es.map (·.id)).Nodup) (he : e ∈ es)
    (p : Effect → Bool) (id : ActorId) (reason : EndReason) :
    history e.id ((es.filter p).map fun x => .ended id x.summary reason) =
      if p e then [.ended id e.summary reason] else [] := by
  have hfilter : history e.id ((es.filter p).map fun x => .ended id x.summary reason) =
      (es.filter fun x => x.id == e.id && p x).map fun x => .ended id x.summary reason := by
    simp only [history, List.filter_map, List.filter_filter]
    rfl
  rw [hfilter]
  have hsame : ∀ x ∈ es, (x.id == e.id && p x) = true → x = e := fun x hx hpx =>
    List.inj_on_of_nodup_map h hx he (by simpa using (Bool.and_eq_true_iff.1 hpx).1)
  split_ifs with hp
  · rw [TimerQueue.filter_eq_singleton h.of_map he (by simp [hp]) hsame]
    rfl
  · rw [List.filter_eq_nil_iff.2, List.map_nil]
    rintro x hx hpx
    obtain rfl := hsame x hx hpx
    exact hp (Bool.and_eq_true_iff.1 hpx).2

/-- Where the effects that pass a test end, the others are left alone. -/
theorem Sound.dropAll_cases (hb : b.Sound codex next id) (he : e ∈ b.list.effects)
    (reason : EndReason) (parting : reason.isParting = true) (p : Effect → Bool) :
    let o := b.dropAll reason ((b.list.effects.filter p).map (·.id))
    (o.1.list.get? e.id = some e ∧ history e.id o.2 = []) ∨
      history e.id o.2 = [.ended b.owner e.summary reason] := by
  intro o
  have hevents := hb.events_dropAll parting (List.filter_sublist (p := p) (l := b.list.effects))
  have htold : history e.id o.2 = if p e then [.ended id e.summary reason] else [] := by
    rw [← history_ends hb.keys he p id reason, ← hevents]
  by_cases hp : p e
  · rw [if_pos hp, ← hb.owner] at htold
    exact .inr htold
  · rw [if_neg hp] at htold
    refine .inl ⟨?_, htold⟩
    have hstays : e ∈ o.1.list.effects := by
      rw [hb.effects_dropAll_filter reason parting]
      exact List.mem_filter.2 ⟨he, by simpa using hp⟩
    exact (hb.turns (turns_dropAll b parting _)).get?_of_mem hstays

theorem Sound.fares_dispel (hb : b.Sound codex next id) (he : e ∈ b.list.effects)
    (settings : Settings) (selector : Selector) (cause : Cause) :
    Fares unit none b (b.dispel settings selector cause) e := by
  rcases hb.dropAll_cases he .dispelled rfl fun e =>
      selector.selects e && cause.permits e.template settings with ⟨stays, told⟩ | told
  · exact .kept stays told fun _ h => nomatch h
  · exact .parted (by decide) told fun _ h => nomatch h

theorem Sound.fares_clear (hb : b.Sound codex next id) (he : e ∈ b.list.effects) :
    Fares unit none b (b.clear .actorRemoved) e := by
  have htold := history_ends hb.keys he (fun _ => true) b.owner .actorRemoved
  rw [List.filter_true, if_pos rfl] at htold
  exact .parted (by decide) htold fun _ h => nomatch h

/-! ### Applications -/

/-- An effect that begins, or fails to, concerns no other. -/
theorem begin_frame (hp : incoming.phase = .pending) (hk : k ≠ incoming.id) (b : Bearer)
    (p : Profile) (settings : Settings) :
    (b.begin p settings incoming).bearer.list.get? k = b.list.get? k ∧
      history k (b.begin p settings incoming).events = [] := by
  have hkey : (incoming.id == k) = false := beq_eq_false_iff_ne.2 hk.symm
  cases hc : incoming.contribute p b.status with
  | made s =>
    rw [begin_made hp hc]
    refine ⟨?_, by simp [history, Event.effect, Effect.summary, hkey]⟩
    simp [EffectList.get?, List.find?_append, begun, hkey]
  | vetoed =>
    rw [begin_vetoed hp hc]
    exact ⟨rfl, by simp [history, Event.effect, Effect.summary, hkey]⟩
  | failed cause =>
    rw [begin_failed hp hc]
    exact ⟨rfl, by simp [history, Event.effect, Effect.summary, hkey]⟩

/-- An effect that begins asks for its own timer. -/
theorem asks_begin (hp : incoming.phase = .pending) (absent : b.list.get? incoming.id = none)
    {t : Timer} (h : timerAsked (b.begin p settings incoming).answer = some t) :
    ∃ e, (b.begin p settings incoming).bearer.list.get? e.id = some e ∧
      e.timer? settings.expiryUnit = some t ∧ e.target = incoming.target ∧ e.id = incoming.id := by
  cases hc : incoming.contribute p b.status with
  | made s =>
    rw [begin_made hp hc] at h ⊢
    refine ⟨b.begun incoming, ?_, h, rfl, rfl⟩
    have hnone : b.list.effects.find? (·.id == incoming.id) = none := absent
    simp [EffectList.get?, List.find?_append, begun, hnone]
  | vetoed =>
    rw [begin_vetoed hp hc] at h
    cases h
  | failed cause =>
    rw [begin_failed hp hc] at h
    cases h

theorem Sound.get?_incoming (hb : b.Sound codex next id)
    (hin : incoming.Incoming codex next id) : b.list.get? incoming.id = none := by
  refine List.find?_eq_none.2 fun e he => ?_
  simpa using hb.ne_incoming hin he

/-- **What an application makes of the running effects.** -/
theorem Sound.fares_apply (hb : b.Sound codex next id) (hin : incoming.Incoming codex next id)
    (he : e ∈ b.list.effects) (p : Profile) (settings : Settings) :
    let o := b.apply p settings incoming
    Fares settings.expiryUnit (timerAsked o.answer) b o e := by
  intro o
  have hget := hb.get?_of_mem he
  rcases b.apply_cases p settings incoming with ⟨_, -, h⟩ | ⟨x, _, found, rfl, h⟩ | ⟨-, -, -, h⟩
  · simp only [o, h]
    exact .kept hget rfl fun _ h => nomatch h
  · have hx := hb.get?_of_mem (List.mem_of_find?_eq_some found)
    rw [hb.renew_eq_update found] at h
    simp only [o, h]
    by_cases hid : x.id = e.id
    · obtain rfl : x = e := Option.some.inj (hx.symm.trans (hid ▸ hget))
      exact .renewed (get?_update_self hx rfl) rfl rfl
    · refine .kept ?_ ?_ fun t ht => ?_
      · have hne : ∀ y : Effect, (y.id == x.id) = true → (y.id == e.id) = false := fun y hy =>
          not_beq_of_beq hid y hy
        have hrenewed : ((x.refresh incoming.params settings.refreshAdoptsEnchant).id == e.id) =
            false := beq_eq_false_iff_ne.2 hid
        rw [← hget]
        exact find?_updateFirst_of_disjoint (fun y hy => ⟨hne y hy, hrenewed⟩) _
      · have hkey : (x.id == e.id) = false := beq_eq_false_iff_ne.2 hid
        simp [history, Event.effect, Effect.summary, Effect.refresh, hkey]
      · rw [(Effect.of_timer? ht).2.1]
        exact hid
  · have hne := hb.ne_incoming hin he
    have hlosses := hb.dropAll_cases he .superseded rfl (EffectList.isRival incoming)
    rw [← EffectList.rivals_eq] at hlosses
    have hb₁ := hb.turns (turns_dropAll b (show EndReason.isParting .superseded = true from rfl)
      (b.list.rivals incoming))
    obtain ⟨hframe, huntold⟩ := begin_frame hin.pending hne
      (b.dropAll .superseded (b.list.rivals incoming)).1 p settings
    have ho : o = b.replace p settings incoming (b.list.rivals incoming) := h
    have hunasked : ∀ t, timerAsked o.answer = some t → t.effect ≠ e.id := fun t ht => by
      rw [ho] at ht
      obtain ⟨f, -, hasked, -, hid⟩ := asks_begin hin.pending (hb₁.get?_incoming hin) ht
      rw [(Effect.of_timer? hasked).2.1, hid]
      exact hne.symm
    have hhistory : history e.id o.events =
        history e.id (b.dropAll .superseded (b.list.rivals incoming)).2 := by
      simp only [ho, replace, history, List.filter_append] at huntold ⊢
      rw [huntold, List.append_nil]
    rcases hlosses with ⟨stays, told⟩ | told
    · refine .kept ?_ (hhistory.trans told) hunasked
      rw [ho]
      exact hframe.trans stays
    · exact .parted (by decide) (hhistory.trans told) hunasked

/-- **Where an application asks for a timer**, it is the one that an effect needs which it leaves. -/
theorem Sound.asks_apply (hb : b.Sound codex next id) (hin : incoming.Incoming codex next id)
    {t : Timer} (h : timerAsked (b.apply p settings incoming).answer = some t) :
    ∃ e, (b.apply p settings incoming).bearer.list.get? e.id = some e ∧
      e.timer? settings.expiryUnit = some t ∧ e.target = id := by
  rcases b.apply_cases p settings incoming with ⟨_, -, h'⟩ | ⟨x, _, found, rfl, h'⟩ | ⟨-, -, -, h'⟩
  · rw [h'] at h
    cases h
  · have hx := hb.get?_of_mem (List.mem_of_find?_eq_some found)
    rw [hb.renew_eq_update found] at h'
    rw [h'] at h ⊢
    exact ⟨x.refresh incoming.params settings.refreshAdoptsEnchant, get?_update_self hx rfl, h,
      (hb.seated x (EffectList.mem_of_get? hx)).target⟩
  · rw [h'] at h ⊢
    have hb₁ := hb.turns (turns_dropAll b (show EndReason.isParting .superseded = true from rfl)
      (b.list.rivals incoming))
    obtain ⟨e, hget, hasked, htarget, -⟩ := asks_begin hin.pending (hb₁.get?_incoming hin) h
    exact ⟨e, hget, hasked, htarget.trans hin.target⟩

/-- A timer that is asked for in answer to another one is needed by the effect that has ticked. -/
theorem asks_fire {t next : Timer} (h : nextTimer (b.fire settings t).answer = some next) :
    ∃ e, (b.fire settings t).bearer.list.get? e.id = some e ∧
      e.timer? settings.expiryUnit = some next := by
  cases found : b.list.get? t.effect with
  | none =>
    rw [fire_of_get?_none found] at h
    cases h
  | some e =>
    have hid := EffectList.id_of_get? found
    rw [fire_of_get? found] at h ⊢
    have hreplies := e.replies settings.expiryUnit t
    generalize e.reply settings.expiryUnit t = r at h hreplies ⊢
    cases hreplies with
    | stale | last | ends => cases h
    | again _ _ _ _ asked =>
      obtain rfl := Option.some.inj h
      exact ⟨e.countTick, get?_update_self (hid.symm ▸ found) rfl, asked⟩

end Bearer

namespace Engine

open Bearer

variable {g g' : Engine} {taken taken' : List Entry} {id k : ActorId} {e : Effect} {x : Entry}
  {a : Actor} {t : Template} {r : Request}

/-- An actor bears an effect. -/
def Bears (g : Engine) (id : ActorId) (e : Effect) : Prop :=
  ∃ b, g.world.bearer? id = some b ∧ b.list.get? e.id = some e

/-- The effect under a key. -/
def effect? (g : Engine) (k : ActorId × EffectId) : Option Effect :=
  (g.world.bearer? k.1).bind (·.list.get? k.2)

theorem bears_iff : g.Bears id e ↔ g.effect? (id, e.id) = some e := by
  simp only [Bears, effect?, Option.bind_eq_some_iff]

theorem bears_congr (h : g'.world.bearer? id = g.world.bearer? id) (he : g.Bears id e) :
    g'.Bears id e := by
  obtain ⟨b, hb, hget⟩ := he
  exact ⟨b, h.trans hb, hget⟩

theorem mem_of_bears (found : g.world.get? id = some a) (he : g.Bears id e) :
    e ∈ a.bearer.list.effects := by
  obtain ⟨b, hbearer, hget⟩ := he
  rw [World.bearer?_of_get? found, Option.some.injEq] at hbearer
  exact EffectList.mem_of_get? (hbearer ▸ hget)

theorem bears_of_mem (hg : g.Sound) (found : g.world.get? id = some a)
    (he : e ∈ a.bearer.list.effects) : g.Bears id e :=
  ⟨_, World.bearer?_of_get? found, (hg.bearer found).get?_of_mem he⟩

theorem bears_iff_mem (hg : g.Sound) (found : g.world.get? id = some a) :
    g.Bears id e ↔ e ∈ a.bearer.list.effects :=
  ⟨mem_of_bears found, bears_of_mem hg found⟩

/-- An effect that needs a timer has it in the queue or in the batch. -/
theorem exists_timer {needed : Timer} (hg : g.Sound) (ht : Timed g taken) (he : g.Bears id e)
    (h : e.timer? g.settings.expiryUnit = some needed) :
    ∃ x ∈ g.queue.pending ++ taken, x.key = (id, e.id) ∧ x.timer.Meets needed := by
  obtain ⟨b, hb, hget⟩ := he
  have hmem := EffectList.mem_of_get? hget
  obtain ⟨x, hx, hmeets⟩ := ht.served id b hb e hmem needed h
  obtain ⟨hactor, heffect, -⟩ := Effect.of_timer? h
  refine ⟨x, hx, ?_, hmeets⟩
  rw [Timed.key_eq hmeets, hactor, heffect, ((hg id b hb).seated e hmem).target]

/-- What an act comes down to. -/
inductive Deed (g : Engine) (taken : List Entry) (g' : Engine) (taken' : List Entry) : Prop
  /-- It does not concern the running effects. -/
  | idle (bears : ∀ id e, g.Bears id e → g'.Bears id e) (feed : g'.feed = g.feed)
      (metrics : g'.metrics = g.metrics)
      (timers : ∀ x, x ∈ g'.queue.pending ++ taken' → x ∈ g.queue.pending ++ taken)
  /-- It concerns the effects of one actor, while no timer is being fired. -/
  | request {α : Type} {id : ActorId} {a : Actor} {o : Outcome α} {asked : Option Timer}
      (found : g.world.get? id = some a)
      (fares : ∀ e ∈ a.bearer.list.effects, Fares g.settings.expiryUnit asked a.bearer o e)
      (asks : ∀ t, asked = some t →
        t.actor = id ∧ ∃ e, g'.Bears id e ∧ e.timer? g.settings.expiryUnit = some t)
      (self : ∀ e, o.bearer.list.get? e.id = some e → g'.Bears id e)
      (others : ∀ k e, k ≠ id → g.Bears k e → g'.Bears k e)
      (events : ∀ ev ∈ o.events, ev.actor = id)
      (feed : g'.feed = g.feed.publishAll g.now o.events)
      (stale : g'.metrics.stale = g.metrics.stale)
      (queue : g'.queue = settled g.queue o.events asked g.now)
      (before : taken = []) (after : taken' = [])
  /-- A timer fires. -/
  | fire {x : Entry} (first : taken = x :: taken') (fired : g' = g.fire x)

/-! ### Acts as deeds -/

theorem deed_of_bearer? (bearer : ∀ id, g'.world.bearer? id = g.world.bearer? id)
    (feed : g'.feed = g.feed) (metrics : g'.metrics = g.metrics)
    (timers : ∀ x, x ∈ g'.queue.pending ++ taken' → x ∈ g.queue.pending ++ taken) :
    Deed g taken g' taken' :=
  .idle (fun id _ he => bears_congr (bearer id) he) feed metrics timers

theorem deed_spawn (g : Engine) (p : Profile) : Deed g [] (g.spawn p) [] := by
  refine .idle (fun id e he => ?_) rfl rfl fun _ hx => hx
  cases known : g.world.get? p.id with
  | none =>
    obtain ⟨b, hb, hget⟩ := he
    refine ⟨b, ?_, hget⟩
    rw [spawn, World.bearer?_spawn_new known, if_neg]
    · exact hb
    · rintro rfl
      rw [World.bearer?_eq_none.2 known] at hb
      cases hb
  | some c =>
    refine bears_congr ?_ he
    rw [spawn, World.spawn_known known]
    exact World.bearer?_modifyProfile fun _ _ => rfl

theorem bears_setBearer {b : Bearer} (found : g.world.get? id = some a)
    (world : g'.world = g.world.setBearer id b) :
    (∀ e, b.list.get? e.id = some e → g'.Bears id e) ∧
      ∀ k e, k ≠ id → g.Bears k e → g'.Bears k e := by
  have hbearer : ∀ k, g'.world.bearer? k = if k = id then some b else g.world.bearer? k :=
    fun k => world ▸ World.bearer?_setBearer found
  refine ⟨fun e hget => ⟨b, by rw [hbearer, if_pos rfl], hget⟩, fun k e hk he => ?_⟩
  exact bears_congr (by rw [hbearer, if_neg hk]) he

theorem deed_applyTemplate (hg : g.Sound) (known : t ∈ g.codex.templates) :
    Deed g [] (g.applyTemplate t r).1 [] := by
  cases passed : g.gate t r with
  | error refusal =>
    rw [applyTemplate_of_error passed]
    exact deed_of_bearer? (fun _ => rfl) rfl rfl fun _ hx => hx
  | ok a =>
    have found := get?_of_gate passed
    have hb := hg.bearer found
    have hin := incoming_incoming (r := r) known
    obtain ⟨hworld, hfeed, -⟩ := applyTemplate_of_gate passed
    obtain ⟨hself, hothers⟩ := bears_setBearer found hworld
    have hstale : (g.applyTemplate t r).1.metrics.stale = g.metrics.stale :=
      (congrArg (·.metrics.stale) (frame_applyTemplate g t r)).trans rfl
    refine .request found (fun e he => hb.fares_apply hin he a.profile g.settings) ?_ hself hothers
      (hb.attended_apply hin a.profile g.settings).events hfeed hstale (queue_applyTemplate passed)
      rfl rfl
    intro t ht
    obtain ⟨e, hget, hasked, -⟩ := hb.asks_apply hin ht
    exact ⟨(hb.attended_apply hin a.profile g.settings).actor t ht, e, hself e hget, hasked⟩

theorem deed_dispelFor (hg : g.Sound) (actor : ActorId) (selector : Selector) (cause : Cause) :
    Deed g [] (g.dispelFor actor selector cause).1 [] := by
  simp only [dispelFor]
  cases found : g.world.get? actor with
  | none => exact deed_of_bearer? (fun _ => rfl) rfl rfl fun _ hx => hx
  | some a =>
    have hb := hg.bearer found
    have hworld : (g.conclude actor g.now (a.bearer.dispel g.settings selector cause)).world =
        g.world.setBearer actor (a.bearer.dispel g.settings selector cause).bearer := rfl
    obtain ⟨hself, hothers⟩ := bears_setBearer found hworld
    exact .request found (fun e he => hb.fares_dispel he g.settings selector cause)
      (by intro _ h; cases h) hself hothers (hb.attended_dispel g.settings selector cause).events
      rfl rfl rfl rfl rfl

theorem deed_remove (hg : g.Sound) (actor : ActorId) : Deed g [] (g.remove actor).1 [] := by
  simp only [remove]
  cases found : g.world.get? actor with
  | none => exact deed_of_bearer? (fun _ => rfl) rfl rfl fun _ hx => hx
  | some a =>
    have hb := hg.bearer found
    refine .request found (fun e he => hb.fares_clear he) (by intro _ h; cases h)
      (by intro _ h; cases h) (fun k e hk he => bears_congr ?_ he)
      (hb.attended_clear g.settings .actorRemoved).events rfl rfl rfl rfl rfl
    simp only [settle, World.bearer?_remove, if_neg hk]

/-- **Every act is a deed.** -/
theorem deed_act (hg : g.Sound) (ht : Timed g taken) (h : Act (g, taken) (g', taken')) :
    Deed g taken g' taken' := by
  cases h with
  | spawn _ p => exact deed_spawn g p
  | locate | setClock | pass => exact deed_of_bearer? (fun _ => rfl) rfl rfl fun _ hx => hx
  | receive _ t r known => exact deed_applyTemplate hg known
  | dispel _ actor selector cause => exact deed_dispelFor hg actor selector cause
  | animate _ actor alive =>
    exact deed_of_bearer? (fun _ => World.bearer?_modifyProfile fun _ h => h) rfl rfl fun _ hx => hx
  | remove _ actor => exact deed_remove hg actor
  | sweep =>
    refine deed_of_bearer? (fun _ => rfl) rfl rfl fun x hx => ?_
    rwa [TimerQueue.pending_skipDead] at hx
  | @take _ _ now queue x due =>
    refine deed_of_bearer? (fun _ => rfl) rfl rfl fun y hy => ?_
    obtain ⟨-, hpending, -⟩ := ht.queue.pop_some due
    rw [hpending]
    simp only [List.mem_append, List.mem_cons, List.not_mem_nil, or_false] at hy ⊢
    tauto
  | fire _ x => exact .fire rfl rfl

/-! ### Fates -/

/-- What an act makes of a running effect of an actor, of what is published about it and of the
timers it has in the queue and in the batch. -/
inductive Fate (g : Engine) (taken : List Entry) (g' : Engine) (taken' : List Entry) (id : ActorId)
    (e : Effect) : Prop
  /-- It is left alone. -/
  | kept (bears : g'.Bears id e) (news : g'.news (id, e.id) = g.news (id, e.id))
      (timers : ∀ x ∈ g'.queue.pending ++ taken', x.key = (id, e.id) →
        x ∈ g.queue.pending ++ taken)
  /-- It ends before its time. -/
  | parted {moment : Nat} {reason : EndReason} (unexpired : reason ≠ .expired)
      (news : g'.news (id, e.id) = g.news (id, e.id) ++ [⟨moment, .ended id e.summary reason⟩])
      (timers : ∀ x ∈ g'.queue.pending ++ taken', x.key ≠ (id, e.id))
  /-- It is renewed.  Unless it asks for another timer it keeps the one it has. -/
  | renewed {moment : Nat} {params : Params} {adopt : Bool}
      (bears : g'.Bears id (e.refresh params adopt))
      (feed : g'.feed = g.feed.publishAll moment [.refreshed id (e.refresh params adopt).summary])
      (timers : ∀ x ∈ g'.queue.pending ++ taken', x.key = (id, e.id) →
        (e.refresh params adopt).timer? g.settings.expiryUnit = some x.timer ∨
          (e.refresh params adopt).timer? g.settings.expiryUnit = none ∧
            x ∈ g.queue.pending ++ taken)
  /-- Its timer fires. -/
  | fired {x : Entry} {r : Reply} (key : x.key = (id, e.id)) (first : taken = x :: taken')
      (replies : e.Replies g.settings.expiryUnit x.timer r)
      (bears : ∀ e', r.left e = some e' → g'.Bears id e')
      (news : g'.news (id, e.id) = g.news (id, e.id) ++ (r.events id e).map (.mk x.due))
      (stale : r.answer = .stale ∨ g'.metrics.stale = g.metrics.stale)
      (timers : ∀ y ∈ g'.queue.pending ++ taken', y.key = (id, e.id) →
        ∃ next, nextTimer r.answer = some next ∧ y.timer = next ∧ y.due = later x.due next.delay)

/-- Of the timers of its effect, one that fires leaves the one that is asked for. -/
theorem timers_fire (ht : Timed g (x :: taken)) {y : Entry}
    (hy : y ∈ (g.fire x).queue.pending ++ taken) (hkey : y.key = x.key) :
    ∃ next, nextTimer (g.world.fire g.settings x.timer).2.2 = some next ∧ y.timer = next ∧
      y.due = later x.due next.delay := by
  obtain ⟨-, -, hqueue, -⟩ := fire_eq g x
  have hdistinct := ht.distinct
  rw [List.map_cons, List.nodup_cons] at hdistinct
  rcases List.mem_append.1 hy with hy | hy
  · rw [hqueue] at hy
    rcases of_mem_settled ht.queue hy with ⟨hy, -, -⟩ | ⟨t, hasked, htimer, hdue⟩
    · exact absurd hkey (ht.apart y hy x List.mem_cons_self)
    · exact ⟨t, hasked, htimer, hdue⟩
  · exact absurd (List.mem_map.2 ⟨y, hy, hkey⟩) hdistinct.1

theorem stale_fire (g : Engine) (x : Entry) :
    (g.world.fire g.settings x.timer).2.2 = .stale ∨ (g.fire x).metrics.stale = g.metrics.stale := by
  obtain ⟨-, -, -, hcounts⟩ := fire_eq g x
  have hstale := congrArg Metrics.stale hcounts
  cases hanswer : (g.world.fire g.settings x.timer).2.2 with
  | stale => exact .inl rfl
  | rescheduled | ended =>
    rw [hanswer] at hstale
    exact .inr hstale

/-- What comes of a timer is what its effect answers. -/
theorem world_fire_of_bears (hg : g.Sound) (he : g.Bears id e) (hkey : x.key = (id, e.id)) :
    ∃ a, g.world.get? id = some a ∧ a.bearer.list.get? e.id = some e ∧
      g.world.fire g.settings x.timer =
        (g.world.setBearer id (a.bearer.after e.id (e.reply g.settings.expiryUnit x.timer)),
          (e.reply g.settings.expiryUnit x.timer).events id e,
          (e.reply g.settings.expiryUnit x.timer).answer) := by
  obtain ⟨b, hb, hget⟩ := he
  obtain ⟨a, found, rfl⟩ := Option.map_eq_some_iff.1 hb
  have hactor : x.timer.actor = id := congrArg Prod.fst hkey
  have heffect : x.timer.effect = e.id := congrArg Prod.snd hkey
  have howner : a.bearer.owner = id := (hg.bearer found).owner
  refine ⟨a, found, hget, ?_⟩
  rw [World.fire_of_get? (hactor.symm ▸ found), Bearer.fire_of_get? (heffect ▸ hget), hactor,
    ← howner]
  rfl

/-- The effect a timer is for answers it. -/
theorem fate_fired (hg : g.Sound) (ht : Timed g (x :: taken)) (he : g.Bears id e)
    (hkey : x.key = (id, e.id)) : Fate g (x :: taken) (g.fire x) taken id e := by
  obtain ⟨a, found, hget, hfire⟩ := world_fire_of_bears hg he hkey
  obtain ⟨hworld, -, -, -⟩ := fire_eq g x
  have hnews := news_fire hg x
  have htimers := fun y hy => timers_fire (y := y) ht hy
  have hstale := stale_fire g x
  rw [hfire] at hworld hnews htimers hstale
  have hreplies := e.replies g.settings.expiryUnit x.timer
  generalize e.reply g.settings.expiryUnit x.timer = r at hworld hnews htimers hstale hreplies
  obtain ⟨hself, -⟩ := bears_setBearer found hworld
  refine .fired hkey rfl hreplies (fun e' hleft => hself e' ?_) ?_ hstale fun y hy hky =>
    htimers y hy (hky.trans hkey.symm)
  · cases hreplies with
    | stale =>
      obtain rfl := Option.some.inj hleft
      exact hget
    | again =>
      obtain rfl := Option.some.inj hleft
      exact get?_update_self hget rfl
    | last | ends => cases hleft
  · rw [hnews, hkey, Function.update_self]

/-- The other effects do not notice a timer. -/
theorem effect?_fire_of_ne {k : ActorId × EffectId} (g : Engine) (hk : k ≠ x.key) :
    (g.fire x).effect? k = g.effect? k := by
  obtain ⟨hworld, -, -, -⟩ := fire_eq g x
  by_cases hactor : k.1 = x.timer.actor
  · have heffect : k.2 ≠ x.timer.effect := fun h => hk (Prod.ext hactor h)
    cases found : g.world.get? x.timer.actor with
    | none =>
      rw [World.fire_of_get?_none found] at hworld
      simp only [effect?, hworld]
    | some a =>
      rw [World.fire_of_get? found] at hworld
      simp only [effect?, hworld, World.bearer?_setBearer found, hactor, if_true,
        World.bearer?_of_get? found, Option.bind_some]
      exact get?_fire_of_ne _ _ heffect
  · simp only [effect?, hworld, World.bearer?, World.get?_fire_of_ne hactor]

theorem fate_unfired (hg : g.Sound) (ht : Timed g (x :: taken)) (he : g.Bears id e)
    (hkey : x.key ≠ (id, e.id)) : Fate g (x :: taken) (g.fire x) taken id e := by
  obtain ⟨-, -, hqueue, -⟩ := fire_eq g x
  obtain ⟨-, hasked⟩ := about_fire hg x
  refine .kept ?_ ?_ fun y hy hky => ?_
  · rwa [bears_iff, effect?_fire_of_ne g (Ne.symm hkey), ← bears_iff]
  · rw [news_fire hg x, Function.update_of_ne (Ne.symm hkey)]
  · rcases List.mem_append.1 hy with hy | hy
    · rw [hqueue] at hy
      rcases of_mem_settled ht.queue hy with ⟨hy, -, -⟩ | ⟨t, htasked, htimer, -⟩
      · exact List.mem_append_left _ hy
      · refine absurd ?_ hkey
        rw [← hky, ← hasked t htasked, ← htimer]
        rfl
    · exact List.mem_append_right _ (.tail _ hy)

/-- **The fate of a running effect** is one of the four. -/
theorem Deed.fate (hd : Deed g taken g' taken') (hg : g.Sound) (ht : Timed g taken)
    (he : g.Bears id e) : Fate g taken g' taken' id e := by
  cases hd with
  | idle bears feed metrics timers =>
    refine .kept (bears id e he) ?_ fun x hx _ => timers x hx
    simp only [news, feed]
  | fire first fired =>
    subst first fired
    rename_i x
    by_cases hkey : x.key = (id, e.id)
    · exact fate_fired hg ht he hkey
    · exact fate_unfired hg ht he hkey
  | @request α actor a o asked found fares asks self others events feed stale queue before after =>
    subst before after
    have hnews := news_of_feed feed (id, e.id)
    have hof : ∀ x ∈ g'.queue.pending ++ [], x.key = (id, e.id) →
        (x ∈ g.queue.pending ++ [] ∧
          (∀ ev ∈ o.events, ev.endReason.isSome = true → (ev.actor, ev.effect.id) ≠ (id, e.id)) ∧
          ∀ t, asked = some t → (id, e.id) ≠ (t.actor, t.effect)) ∨
        asked = some x.timer := fun x hx hkey => by
      rw [List.append_nil, queue] at hx
      rcases of_mem_settled ht.queue hx with ⟨hx, hends, hplace⟩ | ⟨t, htasked, rfl, -⟩
      · exact .inl ⟨List.mem_append_left _ hx, hkey ▸ hends, hkey ▸ hplace⟩
      · exact .inr htasked
    by_cases hactor : id = actor
    · subst hactor
      have hb := hg.bearer found
      have hmem := mem_of_bears found he
      have hfilter : o.events.filter (fun ev => (ev.actor, ev.effect.id) == (id, e.id)) =
          history e.id o.events := by
        refine List.filter_congr fun ev hev => ?_
        rw [events ev hev, Bool.eq_iff_iff, beq_iff_eq, beq_iff_eq, Prod.mk.injEq,
          and_iff_right rfl]
      rw [hfilter] at hnews
      cases fares e hmem with
      | kept stays told unasked =>
        refine .kept (self e stays) (by rw [hnews, told]; simp) fun x hx hkey => ?_
        rcases hof x hx hkey with ⟨hx, -, -⟩ | hasked
        · exact hx
        · exact absurd (congrArg Prod.snd hkey) (unasked _ hasked)
      | @parted reason unexpired told unasked =>
        rw [told, hb.owner] at hnews
        refine .parted unexpired hnews fun x hx hkey => ?_
        rcases hof x hx hkey with ⟨-, hends, -⟩ | hasked
        · -- the end that is told has cancelled the timer
          have hend : Event.ended id e.summary reason ∈ history e.id o.events := by
            rw [told, hb.owner]
            exact List.mem_cons_self
          exact hends _ (List.mem_of_mem_filter hend) rfl rfl
        · exact unasked _ hasked (congrArg Prod.snd hkey)
      | @renewed params adopt stays told asks =>
        rw [told, hb.owner] at feed
        refine .renewed (self _ stays) feed fun x hx hkey => ?_
        rcases hof x hx hkey with ⟨hx, -, hplace⟩ | hasked
        · refine .inr ⟨Option.eq_none_iff_forall_ne_some.2 fun t hneeded => ?_, hx⟩
          obtain ⟨htarget, heffect, -⟩ := Effect.of_timer? hneeded
          refine hplace t (asks.trans hneeded) (Prod.ext ?_ heffect.symm)
          exact ((hb.seated e hmem).target.symm.trans htarget.symm)
        · exact .inl (asks.symm.trans hasked)
    · refine .kept (others id e hactor he) ?_ fun x hx hkey => ?_
      · rw [hnews, List.filter_eq_nil_iff.2, List.map_nil, List.append_nil]
        intro ev hev
        simp [events ev hev, Ne.symm hactor]
      · rcases hof x hx hkey with ⟨hx, -, -⟩ | hasked
        · exact hx
        · exact absurd ((congrArg Prod.fst hkey).symm.trans (asks _ hasked).1) hactor

/-- **Where timers come from.**  A timer that was not there before is one that an effect needs. -/
theorem Deed.fresh (hd : Deed g taken g' taken') (hg : g.Sound) (ht : Timed g taken)
    (hx : x ∈ g'.queue.pending ++ taken') :
    x ∈ g.queue.pending ++ taken ∨
      ∃ e, g'.Bears x.timer.actor e ∧ e.timer? g.settings.expiryUnit = some x.timer := by
  cases hd with
  | idle _ _ _ timers => exact .inl (timers x hx)
  | request _ _ asks _ _ _ _ _ queue before after =>
    subst before after
    rw [List.append_nil, queue] at hx
    rcases of_mem_settled ht.queue hx with ⟨hx, -, -⟩ | ⟨t, htasked, rfl, -⟩
    · exact .inl (List.mem_append_left _ hx)
    · obtain ⟨rfl, e, hbears, hneeded⟩ := asks _ htasked
      exact .inr ⟨e, hbears, hneeded⟩
  | @fire y first fired =>
    subst first fired
    obtain ⟨hworld, -, hqueue, -⟩ := fire_eq g y
    obtain ⟨-, habout⟩ := about_fire hg y
    rcases List.mem_append.1 hx with hx | hx
    · rw [hqueue] at hx
      rcases of_mem_settled ht.queue hx with ⟨hx, -, -⟩ | ⟨t, htasked, rfl, -⟩
      · exact .inl (List.mem_append_left _ hx)
      · have hactor : x.timer.actor = y.timer.actor := congrArg Prod.fst (habout _ htasked)
        cases found : g.world.get? y.timer.actor with
        | none =>
          rw [World.fire_of_get?_none found] at htasked
          cases htasked
        | some a =>
          rw [World.fire_of_get? found] at hworld htasked
          obtain ⟨e, hget, hneeded⟩ := asks_fire htasked
          exact .inr ⟨e, hactor ▸ (bears_setBearer found hworld).1 e hget, hneeded⟩
    · exact .inl (List.mem_append_right _ (.tail _ hx))

end Engine

end StatusEffects
