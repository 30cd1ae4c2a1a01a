import StatusEffects.Bearer.Timers
import StatusEffects.Proofs.Keyed

/-!
# Replies to timers

A timer that fires is answered by its effect alone: neither the profile of the actor nor its status
nor any other effect has a say in what comes of it.  So the answer can be read off the effect, and
what it does to the bearer concerns that effect only, in the list as in the status.

## Main definitions

* `Reply`, `Effect.reply` : the answer of an effect to a timer, with what it leaves and tells.
* `Effect.Replies` : the ways to answer, each with its reasons.
* `Bearer.meet` : what a reply does to the bearer.

## Main statements

* `Bearer.fire_of_get?` : a timer that fires is answered by its effect.
* `Bearer.after_comm`, `Bearer.fire_comm` : replies of two effects, and timers of two effects, may
  come in either order.
-/

namespace StatusEffects

/-- How an effect answers a timer. -/
inductive Reply where
  /-- The timer is not one of its present generation. -/
  | stale
  /-- It ticks and asks for its next timer. -/
  | again (ticked : Effect) (next : Timer)
  /-- It ticks for the last time. -/
  | last (ticked : Effect)
  /-- Its time is over. -/
  | ends

namespace Reply

/-- The effect once it has answered, if it goes on. -/
def left (e : Effect) : Reply → Option Effect
  | stale => some e
  | again ticked _ => some ticked
  | last _ | ends => none

/-- What the answer of an effect of an actor tells. -/
def events (owner : ActorId) (e : Effect) : Reply → List Event
  | stale => []
  | again ticked _ => [.ticked owner ticked.summary ticked.params.power]
  | last ticked =>
    [.ticked owner ticked.summary ticked.params.power, .ended owner ticked.summary .expired]
  | ends => [.ended owner e.summary .expired]

/-- What the engine is answered. -/
def answer : Reply → Firing
  | stale => .stale
  | again _ next => .rescheduled next
  | last _ | ends => .ended .expired

end Reply

namespace Effect

variable {e : Effect} {unit : UInt64} {t : Timer}

/-- Whether the effect still answers to a timer. -/
def heeds (e : Effect) (t : Timer) : Bool :=
  e.generation == t.generation && e.isActive && (t.kind == .expire || e.template.isPeriodic)

/-- The answer of an effect to a timer. -/
def reply (e : Effect) (unit : UInt64) (t : Timer) : Reply :=
  if e.heeds t then
    match t.kind with
    | .expire => .ends
    | .tick =>
      match if e.act && !e.countTick.isExhausted then e.countTick.timer? unit else none with
      | some next => .again e.countTick next
      | none => .last e.countTick
  else .stale

/-- The ways in which an effect answers a timer. -/
inductive Replies (unit : UInt64) (t : Timer) (e : Effect) : Reply → Prop
  | stale (unheeded : e.heeds t = false) : Replies unit t e .stale
  | again {next : Timer} (heeded : e.heeds t = true) (tick : t.kind = .tick)
      (goesOn : e.goesOn = true) (unexhausted : e.countTick.isExhausted = false)
      (asked : e.countTick.timer? unit = some next) : Replies unit t e (.again e.countTick next)
  | last (heeded : e.heeds t = true) (tick : t.kind = .tick)
      (complete : e.goesOn = false ∨ e.countTick.isExhausted = true) :
      Replies unit t e (.last e.countTick)
  | ends (heeded : e.heeds t = true) (expire : t.kind = .expire) : Replies unit t e .ends

theorem heeds_iff : e.heeds t = true ↔ e.generation = t.generation ∧ e.isActive = true ∧
    (t.kind = .tick → e.template.isPeriodic = true) := by
  cases hk : t.kind <;> simp [heeds, hk, and_assoc]

/-- The timer of an effect that ticks is for its next tick. -/
theorem timer?_of_periodic (hactive : e.isActive = true)
    (hperiodic : e.template.isPeriodic = true) :
    e.timer? unit =
      some ⟨e.target, e.id, .tick, e.template.tickInterval.toNat, e.generation⟩ := by
  simp [timer?, hactive, hperiodic]

theorem replies (e : Effect) (unit : UInt64) (t : Timer) :
    e.Replies unit t (e.reply unit t) := by
  by_cases heeded : e.heeds t = true
  · obtain ⟨-, hactive, hperiodic⟩ := heeds_iff.1 heeded
    simp only [reply, heeded, if_true]
    cases hk : t.kind with
    | expire => exact .ends heeded hk
    | tick =>
      -- an effect that ticked asks for a timer, so that it lacks one only where it is over
      have hasked : e.countTick.timer? unit = some _ :=
        timer?_of_periodic (e := e.countTick) hactive (hperiodic hk)
      cases hgoes : e.goesOn with
      | false =>
        simp only [act, hgoes, Bool.and_false, Bool.false_and, Bool.false_eq_true, if_false]
        exact .last heeded hk (.inl hgoes)
      | true =>
        cases hend : e.countTick.isExhausted with
        | false =>
          simp only [act, hactive, hgoes, Bool.and_self, Bool.not_false, if_true, hasked]
          exact .again heeded hk hgoes hend hasked
        | true =>
          simp only [Bool.not_true, Bool.and_false, Bool.false_eq_true, if_false]
          exact .last heeded hk (.inr hend)
  · have unheeded : e.heeds t = false := by simpa using heeded
    simp only [reply, unheeded, Bool.false_eq_true, if_false]
    exact .stale unheeded

end Effect

namespace Bearer

variable {b : Bearer} {e e₁ e₂ : Effect} {settings : Settings} {t : Timer} {k : EffectId}

/-- The bearer without an effect and its entries. -/
def without (b : Bearer) (k : EffectId) : Bearer := ⟨b.list.erase k, b.status.withdraw k⟩

/-- The bearer once an effect has answered a timer. -/
def after (b : Bearer) (k : EffectId) : Reply → Bearer
  | .stale => b
  | .again ticked _ => { b with list := b.list.update k ticked }
  | .last _ | .ends => b.without k

/-- What comes of a timer once its effect has answered it. -/
def meet (b : Bearer) (e : Effect) (r : Reply) : Outcome Firing :=
  ⟨b.after e.id r, r.events b.owner e, r.answer⟩

theorem get?_update_self {l : EffectList} (found : l.get? e.id = some e) {e' : Effect}
    (hid : e'.id = e.id) : (l.update e.id e').get? e.id = some e' := by
  have hget : (l.effects.find? (·.id == e.id)) = some e := found
  simp only [EffectList.get?, EffectList.update]
  rw [find?_updateFirst fun _ _ => by simp [hid], hget]
  rfl

/-- An effect that has just ticked ends as it would have ended before. -/
theorem drop_update (found : b.list.get? e.id = some e) {ticked : Effect}
    (hid : ticked.id = e.id) (hactive : ticked.phase = .active) (reason : EndReason) :
    ({ b with list := b.list.update e.id ticked } : Bearer).drop e.id reason =
      (b.without e.id, [.ended b.owner ticked.summary reason]) := by
  have hget := get?_update_self found hid
  have herase : (b.list.update e.id ticked).erase e.id = b.list.erase e.id := by
    simp only [EffectList.erase, EffectList.update, EffectList.mk.injEq, true_and, and_true]
    exact eraseP_updateFirst_self (fun _ _ => by simp [hid]) _
  simp only [drop, hget, statusWithout, Effect.exit, hactive, herase, hid]
  rfl

/-- **A timer that fires is answered by its effect**, and by nothing else. -/
theorem fire_of_get? (found : b.list.get? t.effect = some e) :
    b.fire settings t = b.meet e (e.reply settings.expiryUnit t) := by
  have hid : e.id = t.effect := by simpa using List.find?_some found
  rw [← hid] at found
  cases hk : t.kind with
  | tick =>
    simp only [fire, hk, tick, ← hid, found, Effect.reply]
    by_cases heeded : e.heeds t = true
    · obtain ⟨hgeneration, hactive, hperiodic⟩ := Effect.heeds_iff.1 heeded
      have hphase : e.countTick.phase = .active := by
        simpa [Effect.isActive, Effect.countTick] using hactive
      have hdrop : ({ b with list := b.list.update e.id e.countTick } : Bearer).drop e.id .expired =
          (b.without e.id, [.ended b.owner e.countTick.summary .expired]) :=
        drop_update found (rfl : e.countTick.id = e.id) hphase .expired
      simp only [hgeneration, hactive, hperiodic hk, and_self, if_true, heeded]
      generalize (if (e.act && !e.countTick.isExhausted) = true then
        e.countTick.timer? settings.expiryUnit else none) = next
      cases next with
      | some next => rfl
      | none =>
        simp only [hdrop]
        rfl
    · have hcur : ¬ (e.generation = t.generation ∧ e.isActive = true ∧
          e.template.isPeriodic = true) := fun h =>
        heeded (Effect.heeds_iff.2 ⟨h.1, h.2.1, fun _ => h.2.2⟩)
      simp only [hcur, if_false, heeded, Bool.false_eq_true]
      rfl
  | expire =>
    simp only [fire, hk, expire, ← hid, found, Effect.reply]
    by_cases heeded : e.heeds t = true
    · obtain ⟨hgeneration, hactive, -⟩ := Effect.heeds_iff.1 heeded
      have hphase : e.phase = .active := by simpa [Effect.isActive] using hactive
      simp only [hgeneration, hactive, and_self, if_true, heeded, drop, found, statusWithout,
        Effect.exit, hphase]
      rfl
    · have hcur : ¬ (e.generation = t.generation ∧ e.isActive = true) := fun h =>
        heeded (Effect.heeds_iff.2 ⟨h.1, h.2, fun h => by simp [hk] at h⟩)
      simp only [hcur, if_false, heeded, Bool.false_eq_true]
      rfl

/-- Nothing comes of a timer whose effect is gone. -/
theorem fire_of_get?_none (absent : b.list.get? t.effect = none) :
    b.fire settings t = ⟨b, [], .stale⟩ := by
  cases hk : t.kind <;> simp [fire, hk, tick, expire, absent]

/-- What is told of a timer concerns its effect. -/
theorem events_fire {ev : Event} (h : ev ∈ (b.fire settings t).events) :
    ev.actor = b.owner ∧ ev.effect.id = t.effect := by
  cases found : b.list.get? t.effect with
  | none =>
    rw [fire_of_get?_none found] at h
    cases h
  | some e =>
    have hid : e.id = t.effect := by simpa using List.find?_some found
    rw [fire_of_get? found] at h
    have hreply := e.replies settings.expiryUnit t
    generalize e.reply settings.expiryUnit t = r at h hreply
    cases hreply with
    | stale => cases h
    | again | ends =>
      rw [List.mem_singleton.1 h]
      exact ⟨rfl, hid⟩
    | last =>
      rcases List.mem_cons.1 h with rfl | h
      · exact ⟨rfl, hid⟩
      · rw [List.mem_singleton.1 h]
        exact ⟨rfl, hid⟩

/-- The next timer is for a tick, and not due at once. -/
theorem tick_of_rescheduled {again : Timer}
    (h : (b.fire settings t).answer = .rescheduled again) :
    again.kind = .tick ∧ 0 < again.delay := by
  cases found : b.list.get? t.effect with
  | none =>
    rw [fire_of_get?_none found] at h
    cases h
  | some e =>
    rw [fire_of_get? found] at h
    have hreply := e.replies settings.expiryUnit t
    generalize e.reply settings.expiryUnit t = r at h hreply
    cases hreply with
    | stale | last | ends => cases h
    | again heeded tick _ _ asked =>
      obtain ⟨-, hactive, hperiodic⟩ := Effect.heeds_iff.1 heeded
      rw [Effect.timer?_of_periodic (e := e.countTick) hactive (hperiodic tick)] at asked
      cases asked
      cases h
      have hinterval : 0 < e.template.tickInterval.toNat := by
        simpa [Template.isPeriodic, UInt64.lt_iff_toNat_lt] using hperiodic tick
      exact ⟨rfl, hinterval⟩

/-! ### Two timers -/

section Two

variable {unit : UInt64} {t₁ t₂ : Timer} {r r₁ r₂ : Reply}

/-- A reply leaves the bearer alone, has the effect tick, or ends it. -/
theorem after_cases (h : e.Replies unit t r) :
    (∀ b : Bearer, b.after e.id r = b) ∨
    (∀ b : Bearer, b.after e.id r = { b with list := b.list.update e.id e.countTick }) ∨
    ∀ b : Bearer, b.after e.id r = b.without e.id := by
  cases h with
  | stale => exact .inl fun _ => rfl
  | again => exact .inr (.inl fun _ => rfl)
  | last | ends => exact .inr (.inr fun _ => rfl)

theorem owner_after (b : Bearer) (k : EffectId) (r : Reply) : (b.after k r).owner = b.owner := by
  cases r <;> rfl

theorem not_beq_of_beq (h : e₁.id ≠ e₂.id) (x : Effect) (hx : (x.id == e₁.id) = true) :
    (x.id == e₂.id) = false := by
  rw [beq_iff_eq] at hx
  simpa [hx] using h

/-- A reply leaves the other effects as they are. -/
theorem get?_after (h : e.Replies unit t r) (hk : k ≠ e.id) :
    (b.after e.id r).list.get? k = b.list.get? k := by
  have hne : ∀ x : Effect, (x.id == e.id) = true → (x.id == k) = false := fun x hx => by
    rw [beq_iff_eq] at hx
    simpa [hx] using hk.symm
  have hticked : (e.countTick.id == k) = false := by simpa [Effect.countTick] using hk.symm
  rcases after_cases h with h | h | h
  · rw [h]
  · rw [h]
    exact find?_updateFirst_of_disjoint (fun x hx => ⟨hne x hx, hticked⟩) _
  · rw [h]
    exact find?_eraseP_of_disjoint hne _

/-- A timer leaves the effects that it is not for as they are. -/
theorem get?_fire_of_ne (b : Bearer) (settings : Settings) (hk : k ≠ t.effect) :
    (b.fire settings t).bearer.list.get? k = b.list.get? k := by
  cases found : b.list.get? t.effect with
  | none => rw [fire_of_get?_none found]
  | some e =>
    have hid : e.id = t.effect := by simpa using List.find?_some found
    rw [fire_of_get? found]
    exact get?_after (e.replies settings.expiryUnit t) (by rwa [hid])

theorem without_comm (b : Bearer) (h : e₁.id ≠ e₂.id) :
    (b.without e₁.id).without e₂.id = (b.without e₂.id).without e₁.id := by
  have hlist : (b.list.effects.eraseP (·.id == e₁.id)).eraseP (·.id == e₂.id) =
      (b.list.effects.eraseP (·.id == e₂.id)).eraseP (·.id == e₁.id) := by
    refine List.eraseP_comm fun x _ => ?_
    by_cases hx : x.id = e₁.id
    · exact .inr (by simpa [hx] using h)
    · exact .inl (by simpa using hx)
  have hstatus : (b.status.withdraw e₁.id).withdraw e₂.id =
      (b.status.withdraw e₂.id).withdraw e₁.id := by
    simp [Status.withdraw, Status.release, Status.conceal, Status.revoke, Status.restoreForm,
      List.filter_filter, Option.filter_filter, Bool.and_comm]
  simp only [without, EffectList.erase, hlist, hstatus]

theorem update_without (b : Bearer) (h : e₁.id ≠ e₂.id) :
    (⟨(b.without e₂.id).list.update e₁.id e₁.countTick, (b.without e₂.id).status⟩ : Bearer) =
      ({ b with list := b.list.update e₁.id e₁.countTick } : Bearer).without e₂.id := by
  have hticked : (e₁.countTick.id == e₂.id) = false := by simpa [Effect.countTick] using h
  have hlist := eraseP_updateFirst_comm (f := fun _ => e₁.countTick)
    (fun x hx => ⟨not_beq_of_beq h x hx, hticked⟩) b.list.effects
  simp only [without, EffectList.erase, EffectList.update, hlist]

theorem update_update (b : Bearer) (h : e₁.id ≠ e₂.id) :
    (b.list.update e₁.id e₁.countTick).update e₂.id e₂.countTick =
      (b.list.update e₂.id e₂.countTick).update e₁.id e₁.countTick := by
  have hticked₁ : (e₁.countTick.id == e₂.id) = false := by simpa [Effect.countTick] using h
  have hticked₂ : (e₂.countTick.id == e₁.id) = false := by simpa [Effect.countTick] using h.symm
  have hlist := updateFirst_comm (f := fun _ => e₁.countTick) (g := fun _ => e₂.countTick)
    (fun x hx => ⟨not_beq_of_beq h x hx, hticked₁⟩) (fun _ _ => hticked₂) b.list.effects
  simp only [EffectList.update, hlist]

/-- **The replies of two effects may come in either order.** -/
theorem after_comm (h₁ : e₁.Replies unit t₁ r₁) (h₂ : e₂.Replies unit t₂ r₂)
    (h : e₁.id ≠ e₂.id) (b : Bearer) :
    (b.after e₁.id r₁).after e₂.id r₂ = (b.after e₂.id r₂).after e₁.id r₁ := by
  rcases after_cases h₁ with h₁ | h₁ | h₁ <;> rcases after_cases h₂ with h₂ | h₂ | h₂ <;>
    simp only [h₁, h₂]
  · exact congrArg (Bearer.mk · b.status) (update_update b h)
  · exact (update_without b h).symm
  · exact update_without b h.symm
  · exact without_comm b h

/-- **Timers of different effects may fire in either order**: what is told and what is answered is
the same, and so is the bearer in the end. -/
theorem fire_comm (b : Bearer) (settings : Settings) (h : t₁.effect ≠ t₂.effect) :
    let b₁ := (b.fire settings t₁).bearer
    let b₂ := (b.fire settings t₂).bearer
    (b₁.fire settings t₂).events = (b.fire settings t₂).events ∧
      (b₁.fire settings t₂).answer = (b.fire settings t₂).answer ∧
      (b₁.fire settings t₂).bearer = (b₂.fire settings t₁).bearer := by
  intro b₁ b₂
  cases found₁ : b.list.get? t₁.effect with
  | none =>
    have hb₁ : b₁ = b := by simp only [b₁, fire_of_get?_none found₁]
    cases found₂ : b.list.get? t₂.effect with
    | none =>
      have hb₂ : b₂ = b := by simp only [b₂, fire_of_get?_none found₂]
      rw [hb₁, hb₂, fire_of_get?_none found₁, fire_of_get?_none found₂]
      exact ⟨rfl, rfl, rfl⟩
    | some e₂ =>
      have hid₂ : e₂.id = t₂.effect := by simpa using List.find?_some found₂
      have hb₂ : b₂ = b.after e₂.id (e₂.reply settings.expiryUnit t₂) := by
        simp only [b₂, fire_of_get? found₂, meet]
      have hgone : b₂.list.get? t₁.effect = none := by
        rw [hb₂, get?_after (e₂.replies settings.expiryUnit t₂) (by rwa [hid₂]), found₁]
      rw [hb₁, fire_of_get?_none hgone]
      exact ⟨rfl, rfl, rfl⟩
  | some e₁ =>
    have hid₁ : e₁.id = t₁.effect := by simpa using List.find?_some found₁
    have hr₁ := e₁.replies settings.expiryUnit t₁
    have hb₁ : b₁ = b.after e₁.id (e₁.reply settings.expiryUnit t₁) := by
      simp only [b₁, fire_of_get? found₁, meet]
    have hget₁ : b₁.list.get? t₂.effect = b.list.get? t₂.effect := by
      rw [hb₁, get?_after hr₁ (by rw [hid₁]; exact h.symm)]
    cases found₂ : b.list.get? t₂.effect with
    | none =>
      have hb₂ : b₂ = b := by simp only [b₂, fire_of_get?_none found₂]
      rw [hb₂, fire_of_get?_none (hget₁.trans found₂), fire_of_get?_none found₂]
      exact ⟨rfl, rfl, rfl⟩
    | some e₂ =>
      have hid₂ : e₂.id = t₂.effect := by simpa using List.find?_some found₂
      have hr₂ := e₂.replies settings.expiryUnit t₂
      have hb₂ : b₂ = b.after e₂.id (e₂.reply settings.expiryUnit t₂) := by
        simp only [b₂, fire_of_get? found₂, meet]
      have hget₂ : b₂.list.get? t₁.effect = some e₁ := by
        rw [hb₂, get?_after hr₂ (by rwa [hid₂]), found₁]
      have howner : b₁.owner = b.owner := by rw [hb₁, owner_after]
      rw [fire_of_get? (hget₁.trans found₂), fire_of_get? found₂, fire_of_get? hget₂]
      simp only [meet, howner, true_and]
      rw [hb₁, hb₂]
      exact after_comm hr₁ hr₂ (by rwa [hid₁, hid₂]) b

end Two

end Bearer

end StatusEffects
