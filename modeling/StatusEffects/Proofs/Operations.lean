import StatusEffects.Proofs.Isolation

/-!
# Whole operations on what actors bear

Some properties of a bearer do not hold in the middle of an operation: an effect whose last tick is
over is still on the list for a moment, with nothing left of its duration.  They hold after every
operation as a whole, and an engine does nothing else to what an actor bears than to apply an
effect, to remove some, or to let a timer fire.

## Main definitions

* `Engine.Upholds` : a property of bearers that whole operations uphold.

## Main statements

* `Bearer.Sound.apply` : an application keeps a bearer sound.
* `Engine.Upholds.act`, `Engine.Upholds.run` : what whole operations uphold holds of every bearer
  after every act and every run.
-/

namespace StatusEffects

/-- An application keeps a bearer sound and may use up the next key. -/
theorem Bearer.Sound.apply {codex : Codex} {next : Nat} {id : ActorId} {b : Bearer}
    {incoming : Effect} (hb : b.Sound codex next id) (hin : incoming.Incoming codex next id)
    (p : Profile) (settings : Settings) :
    (b.apply p settings incoming).bearer.Sound codex (next + 1) id := by
  rcases hb.apply_changes hin p settings with ⟨_, h⟩ | ⟨_, _, _, hturns, harrival, -⟩
  · rw [h]
    exact hb.mono (Nat.le_succ next)
  · exact (hb.turns hturns).arrival hin harrival

namespace Engine

variable {g g' : Engine} {taken taken' : List Entry} {id : ActorId} {a : Actor}

/-- A property of what an actor bears, before the next key, that whole operations uphold. -/
structure Upholds (codex : Codex) (settings : Settings) (P : Nat → ActorId → Bearer → Prop) :
    Prop where
  fresh : ∀ next id, P next id (.fresh id)
  later : ∀ {next next' id b}, P next id b → next ≤ next' → P next' id b
  apply : ∀ {next id b incoming} (p : Profile), b.Sound codex next id →
    incoming.Incoming codex next id → P next id b →
    P (next + 1) id (b.apply p settings incoming).bearer
  dispel : ∀ {next id b} (selector : Selector) (cause : Cause), b.Sound codex next id →
    P next id b → P next id (b.dispel settings selector cause).bearer
  fire : ∀ {next id b} (t : Timer), b.Sound codex next id → P next id b →
    P next id (b.fire settings t).bearer

namespace Upholds

variable {codex : Codex} {settings : Settings} {P : Nat → ActorId → Bearer → Prop}

/-- Nobody bears anything else than before, or than nothing. -/
theorem of_same (hP : Upholds codex settings P)
    (h₀ : ∀ id b, g.world.bearer? id = some b → P g.nextEffect id b)
    (next : g'.nextEffect = g.nextEffect)
    (same : ∀ id b, g'.world.bearer? id = some b → g.world.bearer? id = some b ∨ b = .fresh id) :
    ∀ id b, g'.world.bearer? id = some b → P g'.nextEffect id b := by
  intro k b hb
  rcases same k b hb with hb | rfl
  · exact next ▸ h₀ k b hb
  · exact hP.fresh _ k

/-- An operation on what one actor bears leaves the others alone. -/
theorem of_setBearer (hP : Upholds codex settings P)
    (h₀ : ∀ id b, g.world.bearer? id = some b → P g.nextEffect id b)
    (found : g.world.get? id = some a) {b : Bearer} (world : g'.world = g.world.setBearer id b)
    (next : g.nextEffect ≤ g'.nextEffect) (self : P g'.nextEffect id b) :
    ∀ id b, g'.world.bearer? id = some b → P g'.nextEffect id b := by
  intro k c hc
  rw [world, World.bearer?_setBearer found] at hc
  split_ifs at hc with hk
  · rw [hk, ← Option.some.inj hc]
    exact self
  · exact hP.later (h₀ k c hc) next

/-- **What whole operations uphold is upheld by every act.** -/
theorem act (hP : Upholds g.codex g.settings P) (hg : g.Sound)
    (h₀ : ∀ id b, g.world.bearer? id = some b → P g.nextEffect id b)
    (h : Act (g, taken) (g', taken')) :
    ∀ id b, g'.world.bearer? id = some b → P g'.nextEffect id b := by
  cases h with
  | locate | setClock | pass | sweep | take => exact h₀
  | spawn _ p =>
    refine hP.of_same h₀ rfl fun k b hb => ?_
    cases known : g.world.get? p.id with
    | none =>
      simp only [spawn, World.bearer?_spawn_new known] at hb
      split_ifs at hb with hk
      · rw [hk]
        exact .inr (Option.some.inj hb).symm
      · exact .inl hb
    | some c =>
      simp only [spawn, World.spawn_known known] at hb
      rw [World.bearer?_modifyProfile fun _ _ => rfl] at hb
      exact .inl hb
  | receive _ t r known =>
    cases passed : g.gate t r with
    | error refusal => rwa [applyTemplate_of_error passed]
    | ok c =>
      have found := get?_of_gate passed
      have hnext := nextEffect_applyTemplate passed
      have hself := hP.apply c.profile (hg.bearer found) (incoming_incoming (r := r) known)
        (h₀ _ _ (World.bearer?_of_get? found))
      rw [← hnext] at hself
      exact hP.of_setBearer h₀ found (applyTemplate_of_gate passed).1
        (hnext ▸ Nat.le_succ g.nextEffect) hself
  | dispel _ actor selector cause =>
    cases found : g.world.get? actor with
    | none =>
      rwa [dispelFor_of_absent found]
    | some c =>
      have hself := hP.dispel selector cause (hg.bearer found)
        (h₀ _ _ (World.bearer?_of_get? found))
      have hnext := nextEffect_dispelFor g actor selector cause
      rw [← hnext] at hself
      exact hP.of_setBearer h₀ found (upshot_dispelFor hg found selector cause).world
        (Nat.le_of_eq hnext.symm) hself
  | animate _ actor alive =>
    refine hP.of_same h₀ rfl fun k b hb => .inl ?_
    have keeps : ∀ p : Profile, p.id = actor → ({ p with alive } : Profile).id = actor :=
      fun _ h => h
    rwa [World.bearer?_modifyProfile keeps] at hb
  | remove _ actor =>
    cases found : g.world.get? actor with
    | none =>
      rwa [remove_of_absent found]
    | some c =>
      have hnext : (g.remove actor).1.nextEffect = g.nextEffect := by simp [remove, found, settle]
      refine hP.of_same h₀ hnext fun k b hb => .inl ?_
      rw [(upshot_remove hg found).world, World.bearer?_remove] at hb
      split_ifs at hb
      exact hb
  | fire _ x =>
    have hworld := (fire_eq g x).1
    have hnext := nextEffect_fire g x
    cases found : g.world.get? x.timer.actor with
    | none =>
      rw [World.fire_of_get?_none found] at hworld
      rwa [hworld, hnext]
    | some c =>
      rw [World.fire_of_get? found] at hworld
      have hself := hP.fire x.timer (hg.bearer found) (h₀ _ _ (World.bearer?_of_get? found))
      rw [← hnext] at hself
      exact hP.of_setBearer h₀ found hworld (Nat.le_of_eq hnext.symm) hself

theorem acts {s s' : Engine × List Entry} (hP : Upholds s.1.codex s.1.settings P)
    (hg : s.1.Sound) (h₀ : ∀ id b, s.1.world.bearer? id = some b → P s.1.nextEffect id b)
    (h : Acts s s') : ∀ id b, s'.1.world.bearer? id = some b → P s'.1.nextEffect id b := by
  induction h with
  | refl => exact h₀
  | @tail s₁ s₂ hacts hact ih =>
    have hsteps := steps_acts hg hacts
    have hP₁ : Upholds s₁.1.codex s₁.1.settings P := by
      rw [codex_steps hsteps, settings_steps hsteps]
      exact hP
    exact hP₁.act (hg.steps hsteps) ih hact

/-- **What whole operations uphold** holds of every bearer after every run over an empty world. -/
theorem run (hP : Upholds codex settings P) (start : UInt64) (manual : Bool) (capacity : Nat)
    (ops : List Op) :
    let g := (opened settings codex start manual capacity).run ops
    ∀ id b, g.world.bearer? id = some b → P g.nextEffect id b :=
  hP.acts (s := (opened settings codex start manual capacity, []))
    (sound_opened settings codex start manual capacity) (fun _ _ h => nomatch h) (acts_run _ ops)

end Upholds

end Engine

end StatusEffects
