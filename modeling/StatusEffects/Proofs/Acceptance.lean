import StatusEffects.Proofs.Course

/-!
# Which timers are accepted

The effect under a key awaits a timer of one kind and of its present generation, or none.  A tick is
accepted if and only if it is awaited.  The guard of the other kind of timer is weaker: it compares
generations, but not what the effect has asked for.  So an effect that ticks, or has no duration, is
ended by a timer for its end that it has never asked for.  An engine fires no such timer, as every
timer in its queue goes back to an effect that has asked for it.

## Main definitions

* `Bearer.awaited` : the timer that the effect under a key awaits.
* `Bearer.Unending` : the effect under a key has no end to be timed.

## Main statements

* `Bearer.tick_answer_iff`, `Bearer.expire_answer_iff` : the guards of the two kinds of timer.
* `Bearer.accepted_iff` : awaited timers are accepted, and others change nothing, but for unending
  effects.
* `Engine.accepted_run` : an engine accepts the timers that are awaited, and no others.
-/

namespace StatusEffects

namespace Effect

variable {e : Effect} {unit : UInt64} {n : UInt32}

/-- The kind and the generation of the timer that an effect awaits. -/
def awaited (e : Effect) (unit : UInt64) : Option (TimerKind × UInt32) :=
  (e.timer? unit).map fun t => (t.kind, t.generation)

theorem awaited_tick_iff : e.awaited unit = some (.tick, n) ↔
    e.generation = n ∧ e.isActive = true ∧ e.template.isPeriodic = true := by
  simp only [awaited, timer?]
  split_ifs with hactive hperiodic hpermanent <;> simp_all

theorem awaited_expire_iff : e.awaited unit = some (.expire, n) ↔
    (e.generation = n ∧ e.isActive = true) ∧
      ¬ (e.template.isPeriodic = true ∨ e.isPermanent = true) := by
  simp only [awaited, timer?]
  split_ifs with hactive hperiodic hpermanent <;> simp_all

end Effect

/-! ### The guards -/

namespace Bearer

variable {b : Bearer} {settings : Settings} {unit : UInt64} {k : EffectId} {n : UInt32}

/-- The kind and the generation of the timer that the effect under a key awaits. -/
def awaited (b : Bearer) (unit : UInt64) (k : EffectId) : Option (TimerKind × UInt32) :=
  (b.list.get? k).bind (·.awaited unit)

/-- The effect under a key is running in a generation, and ticks or has no duration. -/
def Unending (b : Bearer) (k : EffectId) (n : UInt32) : Prop :=
  ∃ e, b.list.get? k = some e ∧ (e.generation = n ∧ e.isActive = true) ∧
    (e.template.isPeriodic = true ∨ e.isPermanent = true)

/-- An effect that awaits its end has one. -/
theorem not_unending_of_awaited {m : UInt32} (h : b.awaited unit k = some (.expire, m)) :
    ¬ b.Unending k n := by
  rintro ⟨e, hget, -, hends⟩
  simp only [awaited, hget, Option.bind_some] at h
  exact (Effect.awaited_expire_iff.1 h).2 hends

/-- **A tick is accepted if and only if it is awaited.** -/
theorem tick_answer_iff : (b.tick settings k n).answer ≠ .stale ↔
    b.awaited settings.expiryUnit k = some (.tick, n) := by
  cases hget : b.list.get? k with
  | none => simp [tick, awaited, hget]
  | some e =>
    simp only [awaited, hget, Option.bind_some, Effect.awaited_tick_iff, tick]
    by_cases hguard : e.generation = n ∧ e.isActive = true ∧ e.template.isPeriodic = true
    · rw [if_pos hguard]
      refine iff_of_true ?_ hguard
      split <;> simp
    · rw [if_neg hguard]
      exact iff_of_false (fun h => h rfl) hguard

/-- What a tick that is not awaited leaves is the bearer as it was. -/
theorem tick_of_not_awaited (h : b.awaited settings.expiryUnit k ≠ some (.tick, n)) :
    b.tick settings k n = ⟨b, [], .stale⟩ := by
  cases hget : b.list.get? k with
  | none => simp [tick, hget]
  | some e =>
    simp only [awaited, hget, Option.bind_some, ne_eq, Effect.awaited_tick_iff] at h
    simp only [tick, hget, if_neg h]

/-- **A timer for an end is accepted if it is awaited, and also if the effect has no end.** -/
theorem expire_answer_iff (unit : UInt64) : (b.expire k n).answer = true ↔
    b.awaited unit k = some (.expire, n) ∨ b.Unending k n := by
  cases hget : b.list.get? k with
  | none => simp [expire, awaited, Unending, hget]
  | some e =>
    have hguard : (b.expire k n).answer = true ↔ e.generation = n ∧ e.isActive = true := by
      simp only [expire, hget]
      split_ifs with h
      · exact iff_of_true rfl h
      · exact iff_of_false (by simp) h
    simp only [hguard, awaited, Unending, hget, Option.bind_some, Effect.awaited_expire_iff,
      Option.some.injEq, exists_eq_left']
    tauto

theorem expire_of_answer (h : (b.expire k n).answer = false) :
    b.expire k n = ⟨b, [], false⟩ := by
  revert h
  simp only [expire]
  split
  · exact fun _ => rfl
  · split_ifs
    · simp
    · exact fun _ => rfl

/-- **Which timers a bearer accepts.**  A tick is accepted if and only if it is awaited.  For a
timer for an end this is so exactly for effects that are not unending.  Apart from these a timer
that is not awaited changes nothing and tells nothing. -/
theorem accepted_iff (b : Bearer) (settings : Settings) (k : EffectId) (n : UInt32) :
    ((b.tick settings k n).answer ≠ .stale ↔
      b.awaited settings.expiryUnit k = some (.tick, n)) ∧
    (((b.expire k n).answer = true ↔ b.awaited settings.expiryUnit k = some (.expire, n)) ↔
      ¬ b.Unending k n) ∧
    (b.awaited settings.expiryUnit k ≠ some (.tick, n) →
      b.tick settings k n = ⟨b, [], .stale⟩) ∧
    (b.awaited settings.expiryUnit k ≠ some (.expire, n) → ¬ b.Unending k n →
      b.expire k n = ⟨b, [], false⟩) := by
  have hexpire := expire_answer_iff (b := b) (k := k) (n := n) settings.expiryUnit
  refine ⟨tick_answer_iff, ⟨fun hiff hunending => ?_, fun h => ?_⟩, tick_of_not_awaited,
    fun hawaited hends => expire_of_answer ?_⟩
  · exact not_unending_of_awaited (hiff.1 (hexpire.2 (.inr hunending))) hunending
  · rw [hexpire, or_iff_left h]
  · rw [← Bool.not_eq_true, hexpire]
    exact not_or.2 ⟨hawaited, hends⟩

open Engine in
/-- A haste is ended by the timer for its end, and by none of another generation. -/
theorem accepted_iff_haste :
    ∃ b, ((opened {} trialCodex 0 true 1).run [.enter 1, .cast 1 1]).world.bearer? ⟨1⟩ = some b ∧
      (b.expire ⟨1⟩ 0).answer = true ∧ b.expire ⟨1⟩ 1 = ⟨b, [], false⟩ := by
  let g := (opened {} trialCodex 0 true 1).run [.enter 1, .cast 1 1]
  have hsome : (g.world.bearer? ⟨1⟩).isSome = true := by decide +kernel
  obtain ⟨b, hb⟩ := Option.isSome_iff_exists.1 hsome
  have hawaited : (g.world.bearer? ⟨1⟩).map (·.awaited 1000 ⟨1⟩) = some (some (.expire, 0)) := by
    decide +kernel
  rw [hb, Option.map_some, Option.some.injEq] at hawaited
  refine ⟨b, hb, ?_, ?_⟩
  · exact ((accepted_iff b {} ⟨1⟩ 0).2.1.2 (not_unending_of_awaited hawaited)).2 hawaited
  · exact (accepted_iff b {} ⟨1⟩ 1).2.2.2 (hawaited ▸ by decide) (not_unending_of_awaited hawaited)

open Engine in
/-- A hold awaits its next tick, and might that was renewed for good awaits nothing, but a timer for
an end would end the one as well as the other. -/
theorem accepted_unending :
    let enchanted : Request :=
      { template := ⟨1⟩, caster := ⟨1⟩, target := ⟨1⟩, skill := some (.ofCombined ⟨1068⟩ 1 1001) }
    let hold := (opened {} trialCodex 0 true 1).run [.enter 1, .cast 1 3]
    let might := (opened {} mightCodex 0 true 1).run [.enter 1, .cast 1 1, .apply enchanted]
    (hold.world.bearer? ⟨1⟩).map (fun b => (b.awaited 1000 ⟨1⟩, (b.expire ⟨1⟩ 0).answer)) =
        some (some (.tick, 0), true) ∧
      (might.world.bearer? ⟨1⟩).map (fun b => (b.awaited 1000 ⟨1⟩, (b.expire ⟨1⟩ 1).answer)) =
        some (none, true) := by
  decide +kernel

end Bearer

/-! ### Timers of an engine -/

namespace Engine

variable {g : Engine} {x : Entry}

/-- **An engine has no timers for the end of effects without one.** -/
theorem Orderly.not_unending (ho : Orderly g []) (hx : x ∈ g.queue.pending)
    (kind : x.timer.kind = .expire) (few : renewals x.timer.effect g.log < UInt32.size) {b : Bearer}
    (found : g.world.bearer? x.timer.actor = some b) :
    ¬ b.Unending x.timer.effect x.timer.generation := by
  rintro ⟨f, hf, ⟨hgeneration, hactive⟩, hends⟩
  obtain ⟨id, e, ⟨b', hb', hget⟩, hkey, hserves⟩ := ho.owned x (List.mem_append_left _ hx)
  obtain ⟨rfl, hid⟩ : x.timer.actor = id ∧ x.timer.effect = e.id := Prod.mk.inj hkey
  obtain rfl : b = b' := Option.some.inj (found.symm.trans hb')
  rw [← hid] at hget
  obtain rfl : f = e := Option.some.inj (hf.symm.trans hget)
  have heeded : f.heeds x.timer = true :=
    Effect.heeds_iff.2 ⟨hgeneration, hactive, fun h => by rw [kind] at h; cases h⟩
  -- a timer that is heeded is the one that the effect needs
  obtain ⟨t, needed, meets⟩ := current_of_heeds hserves (.inr (hid ▸ few)) heeded
  have hawaited : f.awaited g.settings.expiryUnit = some (.expire, t.generation) := by
    simp only [Effect.awaited, needed, Option.map_some, ← meets.kind, kind]
  exact (Effect.awaited_expire_iff.1 hawaited).2 hends

/-- **An engine accepts the timers that are awaited, and no others.**  A timer in its queue that is
fired now is accepted if and only if the effect awaits one of its kind and its generation, as long
as the effect has been renewed fewer times than there are generations. -/
theorem accepted_run (settings : Settings) (codex : Codex) (start : UInt64) (manual : Bool)
    (capacity : Nat) (ops : List Op) :
    let g := (opened settings codex start manual capacity).run ops
    ∀ x ∈ g.queue.pending, renewals x.timer.effect g.log < UInt32.size →
      ∃ b, g.world.bearer? x.timer.actor = some b ∧
        ((b.fire settings x.timer).answer ≠ .stale ↔
          b.awaited settings.expiryUnit x.timer.effect =
            some (x.timer.kind, x.timer.generation)) := by
  intro g x hx few
  have ho : Orderly g [] := orderly_run settings codex start manual capacity ops
  obtain ⟨id, e, ⟨b, hb, -⟩, hkey, -⟩ := ho.owned x (List.mem_append_left _ hx)
  obtain rfl : x.timer.actor = id := congrArg Prod.fst hkey
  refine ⟨b, hb, ?_⟩
  cases hkind : x.timer.kind with
  | tick =>
    simp only [Bearer.fire, hkind]
    exact Bearer.tick_answer_iff
  | expire =>
    have hspared := ho.not_unending hx hkind few hb
    have hexpire := Bearer.expire_answer_iff (b := b) (k := x.timer.effect)
      (n := x.timer.generation) settings.expiryUnit
    rw [or_iff_left hspared] at hexpire
    simp only [Bearer.fire, hkind, ← hexpire]
    cases (b.expire x.timer.effect x.timer.generation).answer <;> simp

end Engine

end StatusEffects
