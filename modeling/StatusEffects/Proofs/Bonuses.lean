import StatusEffects.Proofs.Imprint
import Mathlib.Data.List.Flatten

/-!
# Bonuses in force

A template declares bonuses whatever its kind, but only the starts of buffs and debuffs put them in
force.  The bonuses to a stat are those that the active buffs and debuffs declare for it, in the
order of application; what an effect of another kind declares is never granted.

## Main definitions

* `Effect.declared` : the bonuses to a stat that the template of an effect declares.

## Main statements

* `Status.Reflects.bonusesTo` : the bonuses in force, and when they are all that are declared.
* `Engine.bonuses_run` : the same after every run.
* `Engine.bonuses_beast` : a transformation that declares more health and grants none.
-/

namespace StatusEffects

/-- Elements that fail the test are missed exactly if they contribute something. -/
theorem flatMap_filter_eq_iff {α β : Type} {p : α → Bool} {f : α → List β} {as : List α} :
    (as.filter p).flatMap f = as.flatMap f ↔ ∀ a ∈ as, p a = false → f a = [] := by
  induction as with
  | nil => simp
  | cons a rest ih =>
    rw [List.forall_mem_cons, ← ih]
    cases hp : p a with
    | true => simp [hp]
    | false =>
      rw [List.filter_cons_of_neg (by simp [hp]), List.flatMap_cons]
      -- what is left out can only make the list shorter
      have hle : ((rest.filter p).flatMap f).length ≤ (rest.flatMap f).length :=
        (List.filter_sublist.flatMap f).length_le
      constructor
      · intro h
        have hlength := congrArg List.length h
        rw [List.length_append] at hlength
        have hnil : f a = [] := List.eq_nil_of_length_eq_zero (by omega)
        exact ⟨fun _ => hnil, by simpa [hnil] using h⟩
      · rintro ⟨hnil, h⟩
        rw [hnil rfl, h, List.nil_append]

/-- The bonuses to a stat that the template of the effect declares, in their order. -/
def Effect.declared (e : Effect) (stat : Stat) : List Bonus :=
  e.template.bonuses.filterMap fun b => if b.stat = stat then some b.bonus else none

namespace Status

variable {s : Status} {es : List Effect}

theorem filterMap_ownBonuses (e : Effect) (stat : Stat) :
    (e.ownBonuses.filterMap fun (_, b) => if b.stat = stat then some b.bonus else none) =
      if e.modifiesStats then e.declared stat else [] := by
  unfold Effect.ownBonuses
  split_ifs
  · rw [List.filterMap_map]
    rfl
  · rfl

/-- **The bonuses in force** are those that buffs and debuffs declare, and no effect of another kind
declares one if these are all. -/
theorem Reflects.bonusesTo (h : s.Reflects es) (stat : Stat) :
    s.bonusesTo stat = (es.filter (·.modifiesStats)).flatMap (·.declared stat) ∧
      (s.bonusesTo stat = es.flatMap (·.declared stat) ↔
        ∀ e ∈ es, e.modifiesStats = false → e.declared stat = []) := by
  have hforce : s.bonusesTo stat =
      (es.filter (·.modifiesStats)).flatMap (·.declared stat) := by
    rw [Status.bonusesTo, h.bonuses, List.filterMap_flatMap]
    simp only [filterMap_ownBonuses]
    exact Engine.flatMap_ite _ _ _
  refine ⟨hforce, ?_⟩
  rw [hforce]
  exact flatMap_filter_eq_iff

end Status

namespace Engine

/-- **Which bonuses are in force** on an actor after every run over an empty world: those its active
buffs and debuffs declare for the stat, in the order of application.  These are all that its active
effects declare, unless one of another kind declares some too. -/
theorem bonuses_run (settings : Settings) (codex : Codex) (start : UInt64) (manual : Bool)
    (capacity : Nat) (ops : List Op) {id : ActorId} {a : Actor}
    (found : ((opened settings codex start manual capacity).run ops).world.get? id = some a)
    (stat : Stat) :
    let es := a.bearer.list.effects
    a.bearer.status.bonusesTo stat = (es.filter (·.modifiesStats)).flatMap (·.declared stat) ∧
      (a.bearer.status.bonusesTo stat = es.flatMap (·.declared stat) ↔
        ∀ e ∈ es, e.modifiesStats = false → e.declared stat = []) := by
  have hr : a.bearer.Reflected := (keeps_reflected codex settings).run start manual capacity ops
    id _ (World.bearer?_of_get? found)
  exact Status.Reflects.bonusesTo hr stat

/-- A greater haste and a hold, which declares no bonuses: the speed is all that is declared. -/
theorem bonuses_run_haste :
    ∃ a, ((opened {} trialCodex 0 true 1).run
        [.enter 1, .cast 1 1, .cast 1 3, .cast 1 2]).world.get? ⟨1⟩ = some a ∧
      a.bearer.status.bonusesTo .runSpeed = [.flat 33] ∧
      a.bearer.status.bonusesTo .runSpeed =
        a.bearer.list.effects.flatMap (·.declared .runSpeed) := by
  refine ⟨_, rfl, ?_⟩
  obtain ⟨hforce, hall⟩ := @bonuses_run {} trialCodex 0 true 1
    [.enter 1, .cast 1 1, .cast 1 3, .cast 1 2] ⟨1⟩ _ rfl .runSpeed
  exact ⟨hforce, hall.2 (by decide +kernel)⟩

/-- A transformation that declares more health. -/
def beastCodex : Codex where
  templates := [
    { id := ⟨31⟩, name := "Transform: Onyx Beast", skill := ⟨617⟩, kind := .transform,
      abnormalType := .transform, form := 101, policy := .selfCancelable,
      bonuses := [⟨.maxHp, .increased 30⟩] }]
  ids_nodup := by decide
  routes_pos := by decide

/-- **A declared bonus may never be in force.**  The beast's form is taken on and the effect is
active, but of the health it declares nothing is granted. -/
theorem bonuses_beast :
    ∃ a, ((opened {} beastCodex 0 true 1).run [.enter 1, .cast 1 31]).world.get? ⟨1⟩ = some a ∧
      (∀ e ∈ a.bearer.list.effects, e.isActive = true) ∧
      a.bearer.status.appearance = some 101 ∧
      a.bearer.list.effects.flatMap (·.declared .maxHp) = [.increased 30] ∧
      a.bearer.status.bonusesTo .maxHp = [] := by
  refine ⟨_, rfl, ?_⟩
  decide +kernel

end Engine

end StatusEffects
