import StatusEffects.Proofs.Generation
import StatusEffects.Proofs.Turnout
import Mathlib.Data.List.Pairwise

/-!
# What a successful application does

A request renews an effect exactly if it gets through the gate and the template has been cast by the
same caster before, does not stack with itself, and the effect is still active; then the effect has
the parameters of the new cast and all else is in its place.  Otherwise success means a new effect
behind all the others, of which just those are gone that it competes with.  Either way the timer
that the effect needs is the only one under its key, and it is due after its delay from now.

## Main definitions

* `Engine.Awaits` : the one timer of an effect is due after its delay from a moment.

## Main statements

* `Bearer.Exclusive.eq_of_clash` : an effect that clashes with another is that effect.
* `Engine.admission_cases` : what a request that succeeds makes of its target.
* `Engine.apply_renews_iff` : which requests renew an effect.
* `Engine.admitted_run` : both, after every run.
-/

namespace StatusEffects

theorem Clash.symm {x y : Template × ActorId} (h : Clash x y) : Clash y x := by
  rcases h with ⟨hgroup, hnone, hx, hy⟩ | ⟨hid, hcaster, hx, hy⟩
  · exact .inl ⟨hgroup.symm, hgroup ▸ hnone, hy, hx⟩
  · exact .inr ⟨hid.symm, hcaster.symm, hy, hx⟩

/-- An actor carries an effect that clashes with no other than itself. -/
theorem Bearer.Exclusive.eq_of_clash {b : Bearer} (hx : b.Exclusive) {e e' : Effect}
    (he : e ∈ b.list.effects) (he' : e' ∈ b.list.effects) (h : Clash e.mark e'.mark) : e = e' := by
  have hsymm : Std.Symm fun x y : Effect => ¬ Clash x.mark y.mark := ⟨fun _ _ h hyx => h hyx.symm⟩
  by_contra hne
  exact (List.pairwise_map.1 hx).forall he he' hne h

/-- The delay of the timer that an effect needs. -/
theorem Effect.delay_timer? {e : Effect} {unit : UInt64} {t : Timer}
    (h : e.timer? unit = some t) :
    t.delay = if e.template.isPeriodic then e.template.tickInterval.toNat
      else min (e.remaining.toNat * unit.toNat) lastMoment := by
  simp only [timer?] at h
  split_ifs at h with hactive hperiodic hpermanent
  · cases h
    rw [if_pos hperiodic]
  · cases h
    rw [if_neg hperiodic]

namespace Engine

variable {g : Engine} {t : Template} {r : Request} {a : Actor} {x : Applied}

/-- If the effect of an actor needs a timer, then that is the only one pending under its key, and it
is due after its delay from the given moment. -/
def Awaits (g : Engine) (id : ActorId) (e : Effect) (moment : Nat) : Prop :=
  ∀ needed, e.timer? g.settings.expiryUnit = some needed →
    ∃ y, g.queue.pending.filter (·.key == (id, e.id)) = [y] ∧ y.timer = needed ∧
      y.due = later moment (if e.template.isPeriodic then e.template.tickInterval.toNat
        else min (e.remaining.toNat * g.settings.expiryUnit.toNat) lastMoment)

/-- A timer that has been asked for is the only one under its key. -/
theorem filter_pending_settled {q : TimerQueue} (hq : q.Sound) (events : List Event) (t : Timer)
    (moment : Nat) :
    ∃ y, (settled q events (some t) moment).pending.filter (·.key == (t.actor, t.effect)) = [y] ∧
      y.timer = t ∧ y.due = later moment t.delay := by
  have hcancel := sound_cancelEnded hq events
  exact ⟨_, TimerQueue.filter_pending_eq (hcancel.schedule t _)
    ((TimerQueue.mem_pending_schedule hcancel).2 (.inl rfl)), rfl, rfl⟩

theorem awaits_settled {g' : Engine} {q : TimerQueue} (hq : q.Sound) {events : List Event}
    {e : Effect} {id : ActorId} {moment : Nat} (target : e.target = id)
    (queue : g'.queue = settled q events (e.timer? g'.settings.expiryUnit) moment) :
    g'.Awaits id e moment := by
  intro needed hneeded
  obtain ⟨hactor, heffect, -⟩ := Effect.of_timer? hneeded
  obtain ⟨y, hone, htimer, hdue⟩ := filter_pending_settled hq events needed moment
  rw [hactor, heffect, target] at hone
  rw [hneeded] at queue
  exact ⟨y, queue ▸ hone, htimer, hdue.trans (by rw [Effect.delay_timer? hneeded])⟩

/-- What a request that succeeds makes of its target: it renews an effect, or a new effect takes its
place behind those that it does not compete with. -/
theorem admission_cases (hg : g.Sound) (hq : g.queue.Sound)
    (hr : ∀ id b, g.world.bearer? id = some b → b.Reflected) (h : (g.apply r).2 = .ok x) :
    ∃ t a, g.codex.get? r.template = some t ∧ g.gate t r = .ok a ∧
      ((∃ e e', a.bearer.list.renewable? (g.incoming t r) = some e ∧
          e' = e.refresh (t.resolve r.skill) g.settings.refreshAdoptsEnchant ∧
          x = ⟨r.target, e.id, true⟩ ∧
          (g.apply r).1.world =
            g.world.setBearer r.target { a.bearer with list := a.bearer.list.update e.id e' } ∧
          (g.apply r).1.Awaits r.target e' g.now) ∨
        ∃ e', ∃ s : Status, a.bearer.list.renewable? (g.incoming t r) = none ∧
          e' = a.bearer.begun (g.incoming t r) ∧
          s.Reflects (a.bearer.list.spared (g.incoming t r) ++ [e']) ∧
          x = ⟨r.target, e'.id, false⟩ ∧
          (g.apply r).1.world = g.world.setBearer r.target
            ⟨{ a.bearer.skipped with
              effects := a.bearer.list.spared (g.incoming t r) ++ [e'] }, s⟩ ∧
          (g.apply r).1.Awaits r.target e' g.now) := by
  rcases apply_cases hg hr r with ⟨_, -, happly⟩ | ⟨t, a, hget, passed, hturnout, happly⟩
  · rw [happly] at h
    cases h
  · have found := get?_of_gate passed
    have hb := hg.bearer found
    have hin := incoming_incoming (r := r) (List.mem_of_find?_eq_some hget)
    obtain ⟨hworld, -, hsettings⟩ := applyTemplate_of_gate passed
    have hqueue := queue_applyTemplate passed
    have hanswer := fun x => applyTemplate_ok (x := x) passed
    have hrefusal := fun refusal => @applyTemplate_error g t r a refusal passed
    refine ⟨t, a, hget, passed, ?_⟩
    rw [happly] at h ⊢
    generalize a.bearer.apply a.profile g.settings (g.incoming t r) = o at *
    cases hturnout with
    | away | refused =>
      rw [hrefusal _ rfl] at h
      cases h
    | @renewed e e' unclaimed refreshed =>
      rw [hanswer _ rfl] at h
      obtain rfl := Except.ok.inj h
      have hmem := List.mem_of_find?_eq_some unclaimed
      have htarget : e'.target = r.target := by
        rw [refreshed]
        exact (hb.seated e hmem).target
      refine .inl ⟨e, e', unclaimed, refreshed, by rw [refreshed]; rfl, hworld, ?_⟩
      exact awaits_settled hq htarget (by rw [hqueue, hsettings]; rfl)
    | @started s₀ s unclaimed left made =>
      rw [hanswer _ rfl] at h
      obtain rfl := Except.ok.inj h
      have hstart := left.contribute (fun e he => hb.ne_incoming_of_mem_spared hin he) made
      refine .inr ⟨_, s, unclaimed, rfl, hstart.snoc_congr ⟨rfl, rfl, rfl, rfl⟩, rfl, hworld, ?_⟩
      exact awaits_settled hq rfl (by rw [hqueue, hsettings]; rfl)

/-- What an effect that a request renews is like. -/
theorem renewable?_spec (hg : g.Sound) (known : t ∈ g.codex.templates)
    (found : g.world.get? r.target = some a) {e : Effect}
    (h : a.bearer.list.renewable? (g.incoming t r) = some e) :
    e ∈ a.bearer.list.effects ∧ t.stacksWithSelf = false ∧ e.template = t ∧
      e.caster = r.caster := by
  have hmem := List.mem_of_find?_eq_some h
  have hrenews := List.find?_some h
  simp only [EffectList.renews, Bool.and_eq_true, Bool.not_eq_true', beq_iff_eq] at hrenews
  obtain ⟨⟨⟨hstacks, -⟩, hid⟩, hcaster⟩ := hrenews
  have htemplate := g.codex.eq_of_id_eq ((hg.bearer found).seated e hmem).known known hid
  exact ⟨hmem, hstacks, htemplate, hcaster⟩

theorem renewable?_isSome {e : Effect} (he : e ∈ a.bearer.list.effects)
    (hstacks : t.stacksWithSelf = false) (htemplate : e.template = t)
    (hcaster : e.caster = r.caster) :
    ∃ e', a.bearer.list.renewable? (g.incoming t r) = some e' := by
  have hrenews : EffectList.renews (g.incoming t r) e = true := by
    simp [EffectList.renews, incoming, Effect.ofCast, Effect.abnormalType, hstacks, htemplate,
      hcaster]
  exact Option.isSome_iff_exists.1 (List.find?_isSome.2 ⟨e, he, hrenews⟩)

/-- A request for an effect that is there to be renewed renews it. -/
theorem apply_of_renewable? (known : g.codex.get? r.template = some t) (passed : g.gate t r = .ok a)
    {e : Effect} (h : a.bearer.list.renewable? (g.incoming t r) = some e) :
    (g.apply r).2 = .ok ⟨r.target, e.id, true⟩ := by
  have hbearer : (a.bearer.apply a.profile g.settings (g.incoming t r)).answer =
      .ok (.refreshed e.id
        ((e.refresh (g.incoming t r).params g.settings.refreshAdoptsEnchant).timer?
          g.settings.expiryUnit)) := by
    rw [Bearer.apply_of_renewable? h]
  unfold apply
  simp only [known, applyTemplate_ok passed hbearer]
  rfl

/-- **Which requests renew an effect.** -/
theorem apply_renews_iff (hg : g.Sound) (hq : g.queue.Sound)
    (hr : ∀ id b, g.world.bearer? id = some b → b.Reflected) :
    (∃ x, (g.apply r).2 = .ok x ∧ x.refreshed = true) ↔
      ∃ t a e, g.codex.get? r.template = some t ∧ g.world.get? r.target = some a ∧
        a.profile.alive = true ∧ t.condition.all (Condition.holds (g.scene r)) = true ∧
        t.stacksWithSelf = false ∧ e ∈ a.bearer.list.effects ∧ e.template = t ∧
        e.caster = r.caster := by
  constructor
  · rintro ⟨x, hx, hrefreshed⟩
    obtain ⟨t, a, hget, passed, ⟨e, -, hren, -⟩ | ⟨_, _, -, -, -, rfl, -⟩⟩ :=
      admission_cases hg hq hr hx
    · obtain ⟨found, halive, hcondition⟩ := gate_eq_ok_iff.1 passed
      obtain ⟨hmem, hstacks, hcast⟩ :=
        renewable?_spec hg (List.mem_of_find?_eq_some hget) found hren
      exact ⟨t, a, e, hget, found, halive, hcondition, hstacks, hmem, hcast⟩
    · cases hrefreshed
  · rintro ⟨t, a, e, hget, found, halive, hcondition, hstacks, he, htemplate, hcaster⟩
    obtain ⟨e', hren⟩ := renewable?_isSome (g := g) he hstacks htemplate hcaster
    exact ⟨_, apply_of_renewable? hget (gate_eq_ok_iff.2 ⟨found, halive, hcondition⟩) hren, rfl⟩

/-- **What a successful request does**, after every run over an empty world.  It renews an effect
exactly if the template and the living target are known, the condition of the template holds, and
the target bears an effect of the template by the same caster, which does not stack with itself;
this is the only such effect, and all else on the target is left as it was.  Otherwise it adds an
effect under a new key behind those that it does not compete with.  If the effect needs a timer,
then one is pending under its key, and it is due after its delay from now. -/
theorem admitted_run (settings : Settings) (codex : Codex) (start : UInt64) (manual : Bool)
    (capacity : Nat) (ops : List Op) (r : Request) :
    let g := (opened settings codex start manual capacity).run ops
    let g' := (g.apply r).1
    ((∃ x, (g.apply r).2 = .ok x ∧ x.refreshed = true) ↔
      ∃ t a e, codex.get? r.template = some t ∧ g.world.get? r.target = some a ∧
        a.profile.alive = true ∧ t.condition.all (Condition.holds (g.scene r)) = true ∧
        t.stacksWithSelf = false ∧ e ∈ a.bearer.list.effects ∧ e.template = t ∧
        e.caster = r.caster) ∧
    ∀ x, (g.apply r).2 = .ok x → ∃ t a e',
      codex.get? r.template = some t ∧ g.world.get? r.target = some a ∧
      x.actor = r.target ∧ x.effect = e'.id ∧ g'.Awaits r.target e' g.now ∧
      (x.refreshed = true → ∃ e ∈ a.bearer.list.effects,
        (∀ y ∈ a.bearer.list.effects, y.template = t → y.caster = r.caster → y = e) ∧
        e' = { e with
          params := { t.resolve r.skill with
            enchantLevel := if settings.refreshAdoptsEnchant then (t.resolve r.skill).enchantLevel
              else e.params.enchantLevel }
          remaining := (t.resolve r.skill).duration
          generation := e.generation + 1 } ∧
        g'.world =
          g.world.setBearer r.target { a.bearer with list := a.bearer.list.update e.id e' }) ∧
      (x.refreshed = false →
        (∀ id e, g.Bears id e → e.id ≠ e'.id) ∧ history e'.id g.log = [] ∧
        e' = { Effect.ofCast ⟨g.nextEffect⟩ t r.caster r.target r.skill with
          order := a.bearer.list.nextOrder, phase := .active } ∧
        ∃ s : Status, g'.world = g.world.setBearer r.target
          ⟨{ a.bearer.list with
            effects := (a.bearer.list.effects.filter fun e =>
              !(!t.stackable && t.abnormalType != .none && e.abnormalType == t.abnormalType &&
                !e.template.stackable)) ++ [e']
            nextOrder := a.bearer.list.nextOrder + 1 }, s⟩) := by
  intro g g'
  have hopened := sound_opened settings codex start manual capacity
  have hsteps := steps_run hopened ops
  have hg : g.Sound := hopened.steps hsteps
  have hq : g.queue.Sound := (timed_run settings codex start manual capacity ops).queue
  have hr := (keeps_reflected codex settings).run start manual capacity ops
  have hx := (keeps_exclusive codex settings).run start manual capacity ops
  have hc : Chronicled g.nextEffect g.shown g.log :=
    chronicled_steps hopened (chronicled_opened settings codex start manual capacity) hsteps
  have hcodex : g.codex = codex := codex_steps hsteps
  have hsettings : g.settings = settings := settings_steps hsteps
  refine ⟨hcodex ▸ apply_renews_iff hg hq hr, fun x hx' => ?_⟩
  obtain ⟨t, a, hget, passed, hcases⟩ := admission_cases hg hq hr hx'
  have found := get?_of_gate passed
  have hknown := List.mem_of_find?_eq_some hget
  rcases hcases with ⟨e, e', hren, hrefresh, rfl, hworld, hawaits⟩ |
    ⟨e', s, -, rfl, -, rfl, hworld, hawaits⟩
  · obtain ⟨hmem, hstacks, htemplate, hcaster⟩ := renewable?_spec hg hknown found hren
    refine ⟨t, a, e', hcodex ▸ hget, found, rfl, by rw [hrefresh]; rfl, hawaits,
      fun _ => ⟨e, hmem, ?_, ?_, hworld⟩, fun h => absurd h (by simp)⟩
    · intro y hy hytemplate hycaster
      have hexclusive : a.bearer.Exclusive := hx _ _ (World.bearer?_of_get? found)
      refine hexclusive.eq_of_clash hy hmem (.inr ?_)
      simp [Effect.mark, hytemplate, hycaster, htemplate, hcaster, hstacks]
    · rw [hrefresh, hsettings]
      rfl
  · refine ⟨t, a, _, hcodex ▸ hget, found, rfl, rfl, hawaits, fun h => absurd h (by simp),
      fun _ => ⟨?_, hc.unborn _ (Nat.le_refl _), rfl, s, hworld⟩⟩
    rintro id e ⟨b, hb, hborne⟩ hid
    have hlt := ((hg id b hb).seated e (EffectList.mem_of_get? hborne)).fresh
    rw [hid] at hlt
    exact Nat.lt_irrefl _ hlt

/-- A haste that is cast again after four seconds is renewed and ends after ten more. -/
theorem admitted_run_haste :
    let g := (opened {} trialCodex 0 true 1).run [.enter 1, .cast 1 1, .cast 1 3, .setClock 4000]
    let r : Request := { template := ⟨1⟩, caster := ⟨1⟩, target := ⟨1⟩ }
    (g.apply r).2 = .ok ⟨⟨1⟩, ⟨1⟩, true⟩ ∧
      ∃ e', e'.id = ⟨1⟩ ∧ e'.generation = 1 ∧ (g.apply r).1.Awaits ⟨1⟩ e' 4000 := by
  intro g r
  have hok : (g.apply r).2 = .ok ⟨⟨1⟩, ⟨1⟩, true⟩ := by decide +kernel
  obtain ⟨-, hall⟩ := admitted_run {} trialCodex 0 true 1
    [.enter 1, .cast 1 1, .cast 1 3, .setClock 4000] r
  obtain ⟨t, a, e', -, found, -, hid, hawaits, hrenewed, -⟩ := hall _ hok
  obtain ⟨e, he, -, hrefresh, -⟩ := hrenewed rfl
  obtain rfl : _ = a := Option.some.inj found
  have hgeneration : e.generation = 0 := by
    rcases he with _ | ⟨_, _ | ⟨_, _ | _⟩⟩ <;> rfl
  exact ⟨hok, e', hid.symm, by rw [hrefresh, hgeneration]; rfl, hawaits⟩

end Engine

end StatusEffects
