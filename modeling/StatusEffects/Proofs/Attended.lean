import StatusEffects.Proofs.Sound

/-!
# Operations that attend to timers

An effect that ticks or ends by itself needs a timer, and the only ones that count are those of its
present generation.  An operation on a bearer attends to timers if every effect it leaves either
asks for one or can keep the one it has: no end is told of it, no other effect takes its place in
the queue, and it has not asked for the timer that has just fired.

## Main definitions

* `Timer.Meets` : a timer is the one an effect asks for.
* `Bearer.Attended` : an operation attends to timers.

## Main statements

* `Bearer.Sound.attended_apply`, `Bearer.Sound.attended_fire` : applications and timers that fire
  attend to timers, as do the ways of removing effects.
-/

namespace StatusEffects

/-- A timer is the one that is asked for, whenever it is due. -/
structure Timer.Meets (x t : Timer) : Prop where
  actor : x.actor = t.actor
  effect : x.effect = t.effect
  kind : x.kind = t.kind
  generation : x.generation = t.generation

/-- What is known of a timer that an effect asks for. -/
theorem Effect.of_timer? {e : Effect} {unit : UInt64} {t : Timer} (h : e.timer? unit = some t) :
    t.actor = e.target ∧ t.effect = e.id ∧ t.generation = e.generation ∧ e.isActive = true ∧
      (t.kind = .tick → e.template.isPeriodic = true) := by
  simp only [timer?] at h
  split_ifs at h with hactive hperiodic hpermanent
  · cases h
    exact ⟨rfl, rfl, rfl, by simpa using hactive, fun _ => hperiodic⟩
  · cases h
    exact ⟨rfl, rfl, rfl, by simpa using hactive, fun hk => nomatch hk⟩

namespace Bearer

variable {codex : Codex} {next : Nat} {id : ActorId} {b : Bearer} {p : Profile}
  {settings : Settings} {incoming e f : Effect} {ev : Event} {t : Timer}

/-- An operation on a bearer attends to timers.  An effect it leaves either asks for the timer
`asked`, or it was there before, is told to have ended by no event, and needs neither the place of
that timer nor the timer `fired`. -/
structure Attended {α : Type} (unit : UInt64) (id : ActorId) (fired asked : Option Timer)
    (b : Bearer) (o : Outcome α) : Prop where
  events : ∀ ev ∈ o.events, ev.actor = id
  actor : ∀ t, asked = some t → t.actor = id
  kept : ∀ e ∈ o.bearer.list.effects, e.timer? unit = asked ∨
    (e ∈ b.list.effects ∧ (∀ t, asked = some t → t.effect ≠ e.id) ∧
      (∀ ev ∈ o.events, ev.endReason.isSome = true → ev.effect.id ≠ e.id) ∧
      ∀ t r, fired = some t → e.timer? unit = some r → ¬ t.Meets r)

/-! ### Removals -/

theorem ended_of_drop {k : EffectId} {reason : EndReason} (h : ev ∈ (b.drop k reason).2) :
    ∃ s : Summary, ev = .ended b.owner s reason ∧ s.id = k := by
  simp only [drop] at h
  split at h
  · cases h
  · rename_i e hget
    exact ⟨e.summary, List.mem_singleton.1 h, EffectList.id_of_get? hget⟩

/-- Nothing but ends is told when effects end. -/
theorem ended_of_dropAll {reason : EndReason} {ids : List EffectId}
    (h : ev ∈ (b.dropAll reason ids).2) :
    ∃ s : Summary, ev = .ended b.owner s reason ∧ s.id ∈ ids := by
  induction ids generalizing b with
  | nil => cases h
  | cons k rest ih =>
    simp only [dropAll, List.mem_append] at h
    rcases h with h | h
    · obtain ⟨s, rfl, hid⟩ := ended_of_drop h
      exact ⟨s, rfl, hid ▸ List.mem_cons_self⟩
    · obtain ⟨s, rfl, hid⟩ := ih h
      rw [owner_drop]
      exact ⟨s, rfl, List.mem_cons_of_mem _ hid⟩

theorem events_drop {k : EffectId} {reason : EndReason} (h : ev ∈ (b.drop k reason).2) :
    ev.actor = b.owner ∧ ev.effect.id = k := by
  obtain ⟨s, rfl, hid⟩ := ended_of_drop h
  exact ⟨rfl, hid⟩

theorem events_of_dropAll {reason : EndReason} {ids : List EffectId}
    (h : ev ∈ (b.dropAll reason ids).2) : ev.actor = b.owner ∧ ev.effect.id ∈ ids := by
  obtain ⟨s, rfl, hid⟩ := ended_of_dropAll h
  exact ⟨rfl, hid⟩

/-- The effects that are left when others end were there before, and no event tells their end. -/
theorem Sound.of_mem_dropAll (hb : b.Sound codex next id) {reason : EndReason}
    (h : reason.isParting = true) {ids : List EffectId}
    (he : e ∈ (b.dropAll reason ids).1.list.effects) :
    e ∈ b.list.effects ∧ ∀ ev ∈ (b.dropAll reason ids).2, ev.effect.id ≠ e.id := by
  rw [hb.effects_dropAll reason h] at he
  obtain ⟨he, hnot⟩ := List.mem_filter.1 he
  refine ⟨he, fun ev hev hid => ?_⟩
  have hmem := (events_of_dropAll hev).2
  rw [hid] at hmem
  simp [hmem] at hnot

theorem Sound.attended_dispel (hb : b.Sound codex next id) (settings : Settings)
    (selector : Selector) (cause : Cause) :
    Attended settings.expiryUnit id none none b (b.dispel settings selector cause) where
  events ev hev := (events_of_dropAll hev).1.trans hb.owner
  actor _ h := nomatch h
  kept e he := by
    obtain ⟨he, hends⟩ := hb.of_mem_dropAll rfl he
    exact .inr ⟨he, fun _ h => (nomatch h), fun ev hev _ => hends ev hev, fun _ _ h => nomatch h⟩

theorem Sound.attended_clear (hb : b.Sound codex next id) (settings : Settings)
    (reason : EndReason) :
    Attended settings.expiryUnit id none none b (b.clear reason) where
  events ev hev := by
    obtain ⟨e, -, rfl⟩ := List.mem_map.1 hev
    exact hb.owner
  actor _ h := nomatch h
  kept _ he := nomatch he

/-! ### Applications -/

/-- The timer an application asks for. -/
def timerAsked : Except Refusal Admission → Option Timer
  | .ok x => x.timer
  | .error _ => none

/-- An effect that does not come to run leaves the others and their timers alone. -/
theorem Sound.attended_refusal (hb : b.Sound codex next id)
    (hin : incoming.Incoming codex next id) (unit : UInt64)
    {o : Outcome (Except Refusal Admission)} {reason : EndReason}
    (same : o.bearer.list.effects = b.list.effects)
    (told : o.events = [.ended b.owner incoming.summary reason]) :
    Attended unit id none none b o where
  events ev hev := by
    rw [told] at hev
    rw [List.mem_singleton.1 hev]
    exact hb.owner
  actor _ h := nomatch h
  kept e he := by
    rw [same] at he
    refine .inr ⟨he, fun _ h => (nomatch h), fun ev hev _ => ?_, fun _ _ h => nomatch h⟩
    rw [told] at hev
    rw [List.mem_singleton.1 hev]
    exact (hb.ne_incoming hin he).symm

theorem Sound.attended_begin (hb : b.Sound codex next id) (hin : incoming.Incoming codex next id)
    (p : Profile) (settings : Settings) :
    Attended settings.expiryUnit id none (timerAsked (b.begin p settings incoming).answer) b
      (b.begin p settings incoming) := by
  cases hc : incoming.contribute p b.status with
  | made s =>
    rw [begin_made hin.pending hc]
    have hasked : ∀ t, (b.begun incoming).timer? settings.expiryUnit = some t →
        t.actor = incoming.target ∧ t.effect = incoming.id := fun t ht =>
      ⟨(Effect.of_timer? ht).1, (Effect.of_timer? ht).2.1⟩
    refine ⟨fun ev hev => ?_, fun t ht => (hasked t ht).1.trans hin.target, fun e he => ?_⟩
    · rw [List.mem_singleton.1 hev]
      exact hb.owner
    · rcases List.mem_append.1 he with he | he
      · refine .inr ⟨he, fun t ht => ?_, fun ev hev hend => ?_, fun _ _ h => nomatch h⟩
        · rw [(hasked t ht).2]
          exact (hb.ne_incoming hin he).symm
        · rw [List.mem_singleton.1 hev] at hend
          cases hend
      · rw [List.mem_singleton.1 he]
        exact .inl rfl
  | vetoed =>
    rw [begin_vetoed hin.pending hc]
    exact hb.attended_refusal hin _ rfl rfl
  | failed cause =>
    rw [begin_failed hin.pending hc]
    exact hb.attended_refusal hin _ rfl rfl

/-- Other effects that have ended before do not matter. -/
theorem Sound.attended_replace (hb : b.Sound codex next id)
    (hin : incoming.Incoming codex next id) (p : Profile) (settings : Settings) :
    Attended settings.expiryUnit id none
      (timerAsked (b.replace p settings incoming (b.list.rivals incoming)).answer) b
      (b.replace p settings incoming (b.list.rivals incoming)) := by
  have hturns := turns_dropAll b (show EndReason.isParting .superseded = true from rfl)
    (b.list.rivals incoming)
  have hbegin := (hb.turns hturns).attended_begin hin p settings
  refine ⟨fun ev hev => ?_, hbegin.actor, fun e he => ?_⟩
  · rcases List.mem_append.1 hev with hev | hev
    · exact (events_of_dropAll hev).1.trans hb.owner
    · exact hbegin.events ev hev
  · rcases hbegin.kept e he with hasked | ⟨he, hasked, hends, -⟩
    · exact .inl hasked
    · obtain ⟨he, hlosses⟩ := hb.of_mem_dropAll rfl he
      refine .inr ⟨he, hasked, fun ev hev hend => ?_, fun _ _ h => nomatch h⟩
      rcases List.mem_append.1 hev with hev | hev
      · exact hlosses ev hev
      · exact hends ev hev hend

/-- An effect in another state asks for a timer of its own, and the others keep theirs. -/
theorem Sound.attended_update (hb : b.Sound codex next id) {α : Type} {answer : α}
    {fired asked : Option Timer} {unit : UInt64} (found : b.list.get? e.id = some e)
    (same : e.Same f) (hasked : f.timer? unit = asked) (hev : ev.actor = id)
    (hend : ev.endReason = none) (hfired : ∀ t, fired = some t → t.effect = e.id) :
    Attended unit id fired asked b ⟨{ b with list := b.list.update e.id f }, [ev], answer⟩ where
  events x hx := List.mem_singleton.1 hx ▸ hev
  actor t ht := by
    rw [(Effect.of_timer? (hasked.trans ht)).1, ← same.target]
    exact (hb.seated e (EffectList.mem_of_get? found)).target
  kept x hx := by
    rcases EffectList.mem_update hb.keys found same.id.symm hx with rfl | ⟨hx, hne⟩
    · exact .inl hasked
    · refine .inr ⟨hx, fun t ht => ?_, fun y hy hyend => ?_, fun t r ht hr hmeets => hne ?_⟩
      · rw [(Effect.of_timer? (hasked.trans ht)).2.1, ← same.id]
        exact hne.symm
      · rw [List.mem_singleton.1 hy, hend] at hyend
        cases hyend
      · rw [← (Effect.of_timer? hr).2.1, ← hmeets.effect, hfired t ht]

/-- **Applications attend to timers.** -/
theorem Sound.attended_apply (hb : b.Sound codex next id) (hin : incoming.Incoming codex next id)
    (p : Profile) (settings : Settings) :
    Attended settings.expiryUnit id none (timerAsked (b.apply p settings incoming).answer) b
      (b.apply p settings incoming) := by
  rcases b.apply_cases p settings incoming with ⟨_, -, h⟩ | ⟨x, _, found, rfl, h⟩ | ⟨-, -, -, h⟩
  · rw [h]
    refine ⟨fun _ hev => (nomatch hev), fun _ ht => (nomatch ht), fun e he => ?_⟩
    exact .inr ⟨he, fun _ ht => (nomatch ht), fun _ hev => (nomatch hev), fun _ _ ht => nomatch ht⟩
  · rw [h, hb.renew_eq_update found]
    exact hb.attended_update (hb.get?_of_mem (List.mem_of_find?_eq_some found))
      (Effect.same_refresh _ _ _) rfl hb.owner rfl fun _ ht => nomatch ht
  · rw [h]
    exact hb.attended_replace hin p settings

/-! ### Timers that fire -/

/-- The timer an effect goes on to ask for when one has fired. -/
def nextTimer : Firing → Option Timer
  | .rescheduled next => some next
  | .stale | .ended _ => none

theorem attended_stale {unit : UInt64} {answer : Firing}
    (unasked : ∀ e ∈ b.list.effects, ∀ r, e.timer? unit = some r → ¬ t.Meets r) :
    Attended unit id (some t) none b ⟨b, [], answer⟩ where
  events _ hev := nomatch hev
  actor _ ht := nomatch ht
  kept e he := by
    refine .inr ⟨he, fun _ ht => (nomatch ht), fun _ hev => (nomatch hev), fun x r hx hr => ?_⟩
    obtain rfl := Option.some.inj hx
    exact unasked e he r hr

/-- Only the effect of the timer ends, and so none that is left has asked for it. -/
theorem attended_end {unit : UInt64} {o : Outcome Firing}
    (left : ∀ e ∈ o.bearer.list.effects, e ∈ b.list.effects ∧ e.id ≠ t.effect)
    (told : ∀ ev ∈ o.events, ev.actor = id ∧ ev.effect.id = t.effect) :
    Attended unit id (some t) none b o where
  events ev hev := (told ev hev).1
  actor _ ht := nomatch ht
  kept e he := by
    obtain ⟨he, hne⟩ := left e he
    refine .inr ⟨he, fun _ ht => (nomatch ht), fun ev hev _ => ?_, fun x r hx hr hmeets => hne ?_⟩
    · rw [(told ev hev).2]
      exact hne.symm
    · obtain rfl := Option.some.inj hx
      rw [← (Effect.of_timer? hr).2.1, ← hmeets.effect]

/-- No effect has asked for a timer that is not of its generation. -/
theorem Sound.unasked_of_get? (hb : b.Sound codex next id) {unit : UInt64}
    (h : ∀ e, b.list.get? t.effect = some e → e.generation = t.generation → e.isActive = true →
      (t.kind = .tick → e.template.isPeriodic = true) → False) :
    ∀ e ∈ b.list.effects, ∀ r, e.timer? unit = some r → ¬ t.Meets r := by
  intro e he r hr hmeets
  obtain ⟨-, heffect, hgeneration, hactive, hperiodic⟩ := Effect.of_timer? hr
  have hid : e.id = t.effect := by rw [hmeets.effect, heffect]
  refine h e (hid ▸ hb.get?_of_mem he) ?_ hactive fun hk => hperiodic (hmeets.kind ▸ hk)
  rw [hmeets.generation, hgeneration]

theorem Sound.of_mem_drop (hb : b.Sound codex next id) {k : EffectId} {reason : EndReason}
    (he : e ∈ (b.drop k reason).1.list.effects) : e ∈ b.list.effects ∧ e.id ≠ k := by
  rw [hb.effects_drop] at he
  simpa using he

theorem Sound.attended_tick (hb : b.Sound codex next id) (settings : Settings)
    (hkind : t.kind = .tick) :
    Attended settings.expiryUnit id (some t)
      (nextTimer (b.tick settings t.effect t.generation).answer) b
      (b.tick settings t.effect t.generation) := by
  simp only [tick]
  cases hget : b.list.get? t.effect with
  | none => exact attended_stale (hb.unasked_of_get? fun e he => by simp [hget] at he)
  | some f =>
    have hid := EffectList.id_of_get? hget
    by_cases hcur : f.generation = t.generation ∧ f.isActive ∧ f.template.isPeriodic
    · simp only [hcur, and_self, if_true]
      rw [← hid] at hget ⊢
      have hsame := Effect.same_countTick f
      split
      · rename_i next hnext
        split_ifs at hnext
        -- it goes on and asks for its next tick
        exact hb.attended_update hget hsame hnext hb.owner rfl fun x hx =>
          Option.some.inj hx ▸ hid.symm
      · -- that tick was its last
        have hticked := hb.update hget hsame
        refine attended_end (fun e he => ?_) fun ev hev => ?_
        · obtain ⟨he, hne⟩ := hticked.of_mem_drop he
          rcases EffectList.mem_update hb.keys hget hsame.id.symm he with rfl | ⟨he, -⟩
          · exact absurd rfl hne
          · exact ⟨he, hid ▸ hne⟩
        · rcases List.mem_cons.1 hev with rfl | hev
          · exact ⟨hb.owner, hid⟩
          · obtain ⟨hactor, hkey⟩ := events_drop hev
            exact ⟨hactor.trans hticked.owner, hkey.trans hid⟩
    · simp only [hcur, if_false]
      refine attended_stale (hb.unasked_of_get? fun e he hgen hactive hperiodic => hcur ?_)
      obtain rfl : f = e := Option.some.inj (hget.symm.trans he)
      exact ⟨hgen, hactive, hperiodic hkind⟩

theorem Sound.attended_expire (hb : b.Sound codex next id) (unit : UInt64) :
    let o := b.expire t.effect t.generation
    ∀ answer, Attended unit id (some t) none b (⟨o.bearer, o.events, answer⟩ : Outcome Firing) := by
  intro o answer
  have ho : o = b.expire t.effect t.generation := rfl
  simp only [expire] at ho
  cases hget : b.list.get? t.effect with
  | none =>
    rw [hget] at ho
    rw [ho]
    exact attended_stale (hb.unasked_of_get? fun e he => by simp [hget] at he)
  | some f =>
    simp only [hget] at ho
    split_ifs at ho with hcur
    · rw [ho]
      exact attended_end (fun e he => hb.of_mem_drop he) fun ev hev =>
        ⟨(events_drop hev).1.trans hb.owner, (events_drop hev).2⟩
    · rw [ho]
      refine attended_stale (hb.unasked_of_get? fun e he hgen hactive _ => hcur ?_)
      obtain rfl : f = e := Option.some.inj (hget.symm.trans he)
      exact ⟨hgen, hactive⟩

/-- **Timers that fire attend to timers.**  Whoever asked for the one that fires asks for another
or is gone. -/
theorem Sound.attended_fire (hb : b.Sound codex next id) (settings : Settings) (t : Timer) :
    Attended settings.expiryUnit id (some t) (nextTimer (b.fire settings t).answer) b
      (b.fire settings t) := by
  simp only [fire]
  cases hkind : t.kind with
  | tick => exact hb.attended_tick settings hkind
  | expire =>
    have hnone : nextTimer (if (b.expire t.effect t.generation).answer = true then
        Firing.ended .expired else .stale) = none := by
      split_ifs <;> rfl
    simp only [hnone]
    exact hb.attended_expire settings.expiryUnit _

/-- While the effect of the timer goes on it asks for the next one, and no end is told. -/
theorem of_fire_rescheduled {again : Timer}
    (h : (b.fire settings t).answer = .rescheduled again) :
    again.effect = t.effect ∧ ∀ ev ∈ (b.fire settings t).events, ev.endReason = none := by
  cases hkind : t.kind with
  | tick =>
    simp only [fire, hkind, tick] at h ⊢
    cases hget : b.list.get? t.effect with
    | none => simp [hget] at h
    | some f =>
      simp only [hget] at h ⊢
      split_ifs at h ⊢ with hcur
      split at h
      · rename_i next hnext
        cases h
        have hid : f.id = t.effect := EffectList.id_of_get? hget
        refine ⟨(Effect.of_timer? hnext).2.1.trans hid, fun ev hev => ?_⟩
        rw [List.mem_singleton.1 hev]
        rfl
      · cases h
  | expire =>
    simp only [fire, hkind] at h
    split_ifs at h

theorem effect_of_nextTimer {again : Timer}
    (h : nextTimer (b.fire settings t).answer = some again) : again.effect = t.effect := by
  cases hanswer : (b.fire settings t).answer with
  | rescheduled next =>
    rw [hanswer] at h
    obtain rfl := Option.some.inj h
    exact (of_fire_rescheduled hanswer).1
  | stale | ended =>
    rw [hanswer] at h
    cases h

end Bearer

end StatusEffects
