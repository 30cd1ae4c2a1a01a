import StatusEffects.Proofs.Exclusion
import StatusEffects.Proofs.Timers

/-!
# How an application turns out

An application is turned away before anything has changed, it renews an effect, or the effects that
the incoming one competes with end, in the order of application, and then it starts or is refused.
Each of the four ways fixes all that is left, told and answered.

## Main definitions

* `EffectList.beaten`, `EffectList.spared` : the effects that the incoming one competes with, and
  the others.
* `Bearer.Turnout` : the four ways of an application.

## Main statements

* `Bearer.Sound.turnout` : every application of a sound bearer goes one of the four ways.
* `Engine.apply_cases` : a request is turned away at the gate, or the bearer of its target decides.
* `Engine.applyTemplate_error`, `Engine.applyTemplate_ok` : what the engine makes of the decision.
-/

namespace StatusEffects

/-! ### The effects that meet an incoming one -/

namespace EffectList

/-- The effects that the incoming one competes with, in the order of application. -/
def beaten (l : EffectList) (incoming : Effect) : List Effect :=
  l.effects.filter (isRival incoming)

/-- The effects that the incoming one does not compete with, in the order of application. -/
def spared (l : EffectList) (incoming : Effect) : List Effect :=
  l.effects.filter fun e => !isRival incoming e

end EffectList

namespace Bearer

variable {codex : Codex} {next : Nat} {id : ActorId} {b : Bearer} {p : Profile}
  {settings : Settings} {incoming : Effect}

/-- The ends that are told of the effects that the incoming one competes with. -/
def losses (b : Bearer) (incoming : Effect) : List Event :=
  (b.list.beaten incoming).map fun e => .ended b.owner e.summary .superseded

/-- The ways of an application, each with what it leaves, what it tells and what it answers. -/
inductive Turnout (p : Profile) (settings : Settings) (incoming : Effect) (b : Bearer) :
    Outcome (Except Refusal Admission) → Prop
  /-- It is turned away and changes nothing. -/
  | away {refusal : Refusal} (early : refusal.ending? = none) :
      Turnout p settings incoming b ⟨b, [], .error refusal⟩
  /-- It renews an effect in its place. -/
  | renewed {e e' : Effect} (found : b.list.renewable? incoming = some e)
      (refreshed : e' = e.refresh incoming.params settings.refreshAdoptsEnchant) :
      Turnout p settings incoming b
        ⟨{ b with list := b.list.update e.id e' }, [.refreshed b.owner e'.summary],
          .ok (.refreshed e'.id (e'.timer? settings.expiryUnit))⟩
  /-- It starts behind the effects that it does not compete with. -/
  | started {s₀ s : Status} (unclaimed : b.list.renewable? incoming = none)
      (left : s₀.Reflects (b.list.spared incoming))
      (made : incoming.contribute p s₀ = .made s) :
      Turnout p settings incoming b
        ⟨⟨{ b.skipped with effects := b.list.spared incoming ++ [b.begun incoming] }, s⟩,
          b.losses incoming ++ [.started b.owner incoming.summary],
          .ok (.started incoming.id ((b.begun incoming).timer? settings.expiryUnit))⟩
  /-- It does not start, and the effects that it does not compete with are left. -/
  | refused {s : Status} {refusal : Refusal} {reason : EndReason}
      (late : refusal.ending? = some reason) (unclaimed : b.list.renewable? incoming = none)
      (left : s.Reflects (b.list.spared incoming)) :
      Turnout p settings incoming b
        ⟨⟨{ b.skipped with effects := b.list.spared incoming }, s⟩,
          b.losses incoming ++ [.ended b.owner incoming.summary reason], .error refusal⟩

/-- Ends of effects change nothing in a list but its effects. -/
theorem list_dropAll (b : Bearer) (reason : EndReason) (ids : List EffectId) :
    (b.dropAll reason ids).1.list =
      { b.list with effects := (b.dropAll reason ids).1.list.effects } := by
  induction ids generalizing b with
  | nil => rfl
  | cons k rest ih =>
    have hdrop : (b.drop k reason).1.list =
        { b.list with effects := (b.drop k reason).1.list.effects } := by
      simp only [drop]
      split <;> rfl
    simp only [dropAll]
    rw [ih, hdrop]

namespace Sound

theorem ne_incoming_of_mem_spared (hb : b.Sound codex next id)
    (hin : incoming.Incoming codex next id) {e : Effect} (he : e ∈ b.list.spared incoming) :
    e.id ≠ incoming.id :=
  hb.ne_incoming hin (List.mem_of_mem_filter he)

/-- The effects that are beaten have keys of their own. -/
theorem ne_of_mem_beaten (hb : b.Sound codex next id) {e e' : Effect}
    (he : e ∈ b.list.beaten incoming) (he' : e' ∈ b.list.spared incoming) : e'.id ≠ e.id := by
  intro hid
  obtain ⟨he, hrival⟩ := List.mem_filter.1 he
  obtain ⟨he', hspared⟩ := List.mem_filter.1 he'
  rw [List.inj_on_of_nodup_map hb.keys he' he hid, hrival] at hspared
  cases hspared

/-- An effect starts, or does not, once those that it competes with have ended. -/
theorem turnout_replace (hb : b.Sound codex next id) (hr : b.Reflected)
    (hin : incoming.Incoming codex next id) (p : Profile) (settings : Settings)
    (unclaimed : b.list.renewable? incoming = none) :
    Turnout p settings incoming b
      (b.replace p settings incoming (b.list.rivals incoming)) := by
  have hturns := turns_dropAll b (show EndReason.isParting .superseded = true from rfl)
    (b.list.rivals incoming)
  have hlist := list_dropAll b .superseded (b.list.rivals incoming)
  rw [hb.effects_dropRivals incoming] at hlist
  have hlosses : (b.dropAll .superseded (b.list.rivals incoming)).2 = b.losses incoming := by
    rw [EffectList.rivals_eq, hb.events_dropAll rfl List.filter_sublist, losses, hb.owner]
    rfl
  have hleft : (b.dropAll .superseded (b.list.rivals incoming)).1.status.Reflects
      (b.list.spared incoming) := by
    have hreflected := hb.reflected_turns hr hturns
    rwa [Reflected, hlist] at hreflected
  -- all that matters of the bearer that is left is its list and what its status reflects
  unfold replace
  generalize b.dropAll .superseded (b.list.rivals incoming) = left at hlist hlosses hleft ⊢
  obtain ⟨⟨list₁, s₀⟩, told⟩ := left
  obtain rfl : list₁ = _ := hlist
  obtain rfl : told = _ := hlosses
  simp only
  cases hc : incoming.contribute p s₀ with
  | made s =>
    rw [begin_made hin.pending hc]
    exact .started unclaimed hleft hc
  | vetoed =>
    rw [begin_vetoed hin.pending hc]
    exact .refused (show Refusal.ending? (.vetoed incoming.template.id) = some .vetoed from rfl)
      unclaimed hleft
  | failed cause =>
    -- there is no entry of the incoming effect to withdraw
    have hlacks := hleft.lacks fun e he => hb.ne_incoming_of_mem_spared hin he
    rw [begin_failed hin.pending hc, hlacks.withdraw_eq]
    exact .refused
      (show Refusal.ending? (.startFailed incoming.template.id cause) = some .faulted from rfl)
      unclaimed hleft

/-- **Every application goes one of the four ways.** -/
theorem turnout (hb : b.Sound codex next id) (hr : b.Reflected)
    (hin : incoming.Incoming codex next id) (p : Profile) (settings : Settings) :
    Turnout p settings incoming b (b.apply p settings incoming) := by
  rcases b.apply_cases p settings incoming with
    ⟨_, early, h⟩ | ⟨e, _, found, refreshed, h⟩ | ⟨unclaimed, -, -, h⟩
  · rw [h]
    exact .away early
  · rw [h, hb.renew_eq_update found, refreshed]
    exact .renewed found rfl
  · rw [h]
    exact hb.turnout_replace hr hin p settings unclaimed

end Sound

end Bearer

/-! ### Requests -/

namespace Engine

variable {g : Engine} {t : Template} {r : Request} {a : Actor} {refusal : Refusal}
  {x : Admission}

theorem ending?_of_gate (h : g.gate t r = .error refusal) : refusal.ending? = none := by
  unfold gate at h
  split at h
  · obtain rfl := Except.error.inj h
    rfl
  · split_ifs at h
    all_goals
      obtain rfl := Except.error.inj h
      rfl

/-- **A request is turned away at the gate**, or it gets through and the bearer of its target
decides, in one of the four ways. -/
theorem apply_cases (hg : g.Sound) (hr : ∀ id b, g.world.bearer? id = some b → b.Reflected)
    (r : Request) :
    (∃ refusal, refusal.ending? = none ∧ g.apply r = (g, .error refusal)) ∨
      ∃ t a, g.codex.get? r.template = some t ∧ g.gate t r = .ok a ∧
        a.bearer.Turnout a.profile g.settings (g.incoming t r)
          (a.bearer.apply a.profile g.settings (g.incoming t r)) ∧
        g.apply r = g.applyTemplate t r := by
  unfold apply
  cases hget : g.codex.get? r.template with
  | none => exact .inl ⟨_, rfl, rfl⟩
  | some t =>
    cases hgate : g.gate t r with
    | error refusal => exact .inl ⟨refusal, ending?_of_gate hgate, applyTemplate_of_error hgate⟩
    | ok a =>
      have found := get?_of_gate hgate
      have hin := incoming_incoming (r := r) (List.mem_of_find?_eq_some hget)
      exact .inr ⟨t, a, rfl, hgate, (hg.bearer found).turnout (hr _ _ (World.bearer?_of_get? found))
        hin a.profile g.settings, rfl⟩

theorem applyTemplate_error (passed : g.gate t r = .ok a)
    (h : (a.bearer.apply a.profile g.settings (g.incoming t r)).answer = .error refusal) :
    g.applyTemplate t r =
      ({ g with nextEffect := g.nextEffect + 1 }.conclude r.target g.now
        (a.bearer.apply a.profile g.settings (g.incoming t r)), .error refusal) := by
  simp only [applyTemplate, passed, h]

theorem applyTemplate_ok (passed : g.gate t r = .ok a)
    (h : (a.bearer.apply a.profile g.settings (g.incoming t r)).answer = .ok x) :
    g.applyTemplate t r =
      (({ g with nextEffect := g.nextEffect + 1 }.conclude r.target g.now
        (a.bearer.apply a.profile g.settings (g.incoming t r))).scheduleFor x,
        .ok ⟨r.target, x.id, x.isRefresh⟩) := by
  simp only [applyTemplate, passed, h]

end Engine

end StatusEffects
