import StatusEffects.Proofs.Dispelled
import StatusEffects.Proofs.Purpose

/-!
# Effects that players cancel

A player may cancel effects of a skill on the own actor and on those that it owns, as the registry
has it at the moment.  Anybody else changes nothing.  Whoever may cancel ends the effects of that
one actor that no rule protects, and nothing happens to the others.

## Main definitions

* `Effect.Cancelable` : an effect of a skill that no rule protects from its player.
* `Engine.Commands` : a player may cancel effects of an actor.

## Main statements

* `Effect.cancelable_iff` : these are the effects that a voluntary dispel removes.
* `Engine.dispelFor_eq` : a dispel in an engine as one equation.
* `Engine.cancelBuff_of_not_commands`, `Engine.cancelBuff_of_commands` : who may cancel.
* `Engine.cancel_run` : what a player changes by cancelling, after every run.
-/

namespace StatusEffects

/-! ### Which effects -/

theorem AbnormalType.isDance_iff {group : AbnormalType} :
    group.isDance = true ↔ group = .dance ∨ group = .song := by
  cases group <;> simp [isDance]

namespace Effect

/-- An effect of a skill that its player may cancel: it is not harmful in any way, no flag keeps it,
it is no form without leave to end it, and no dance or song unless the settings allow it. -/
structure Cancelable (settings : Settings) (skill : SkillId) (e : Effect) : Prop where
  skill : e.template.skill = skill
  kind : e.template.kind ≠ .debuff
  flag : e.template.has .debuff = false
  group : e.abnormalType.isDebuff = false
  dispellable : e.template.has .cannotBeDispelled = false
  mortal : e.template.has .staysAfterDeath = false
  form : e.template.kind = .transform → e.template.has .selfCancelable = true
  dance : e.abnormalType = .dance ∨ e.abnormalType = .song → settings.danceCancel = true

variable {settings : Settings} {skill : SkillId} {e : Effect}

/-- **These are the effects that a voluntary dispel removes.** -/
theorem cancelable_iff :
    e.Cancelable settings skill ↔
      (Selector.skill skill).removes settings .voluntary e = true := by
  simp only [Selector.removes, Selector.selects, Cause.permits, Template.isDebuff,
    Bool.and_eq_true, Bool.not_eq_true', Bool.or_eq_true, Bool.or_eq_false_iff, beq_iff_eq,
    beq_eq_false_iff_ne, bne_iff_ne]
  constructor
  · intro h
    refine ⟨h.skill, h.dispellable, ⟨⟨h.mortal, ⟨h.kind, h.flag⟩, h.group⟩, ?_⟩, ?_⟩
    · by_cases hform : e.template.kind = .transform
      · exact .inr (h.form hform)
      · exact .inl hform
    · by_cases hdance : e.abnormalType.isDance = true
      · exact .inr (h.dance (AbnormalType.isDance_iff.1 hdance))
      · exact .inl (Bool.eq_false_iff.2 hdance)
  · rintro ⟨hskill, hdispellable, ⟨⟨hmortal, ⟨hkind, hflag⟩, hgroup⟩, hform⟩, hdance⟩
    refine ⟨hskill, hkind, hflag, hgroup, hdispellable, hmortal, fun h => ?_, fun h => ?_⟩
    · exact hform.resolve_left (absurd h)
    · have hisDance : e.template.abnormalType.isDance = true := AbnormalType.isDance_iff.2 h
      exact hdance.resolve_left (by simp [hisDance])

instance : Decidable (e.Cancelable settings skill) := decidable_of_iff _ cancelable_iff.symm

theorem removes_voluntary (settings : Settings) (skill : SkillId) (e : Effect) :
    (Selector.skill skill).removes settings .voluntary e =
      decide (e.Cancelable settings skill) := by
  rw [Bool.eq_iff_iff, decide_eq_true_iff, cancelable_iff]

end Effect

/-! ### A dispel in an engine -/

namespace Engine

open Bearer

variable {g : Engine} {q : TimerQueue} {x : Entry} {k requester actor : ActorId} {a : Actor}
  {skill : SkillId}

/-- The ends of some effects of an actor take away their timers and no others. -/
theorem mem_pending_ends (hq : q.Sound) (es : List Effect) (reason : EndReason) :
    x ∈ (cancelEnded q (es.map fun e => .ended k e.summary reason)).pending ↔
      x ∈ q.pending ∧ ∀ e ∈ es, x.key ≠ (k, e.id) := by
  rw [mem_pending_cancelEnded hq]
  refine and_congr_right fun _ => ⟨fun h e he => ?_, fun h ev hev _ => ?_⟩
  · exact (h _ (List.mem_map_of_mem he) rfl).symm
  · obtain ⟨e, he, rfl⟩ := List.mem_map.1 hev
    exact (h e he).symm

/-- **A dispel in an engine as one equation.** -/
theorem dispelFor_eq (hg : g.Sound) (hr : ∀ id b, g.world.bearer? id = some b → b.Reflected)
    (found : g.world.get? k = some a) (selector : Selector) (cause : Cause) :
    let removed := a.bearer.list.removed g.settings selector cause
    let told := removed.map fun e => Event.ended k e.summary .dispelled
    g.dispelFor k selector cause =
      ({ g with
        world := g.world.setBearer k ⟨a.bearer.list.spares g.settings selector cause,
          a.bearer.status.without (removed.map (·.id))⟩
        queue := cancelEnded g.queue told
        feed := g.feed.publishAll g.now told }, removed.length) := by
  intro removed told
  have hdispel := (hg.bearer found).dispel_eq (hr _ _ (World.bearer?_of_get? found)) g.settings
    selector cause
  simp only [dispelFor, found, hdispel]
  rfl

/-! ### Who may cancel -/

/-- A player may cancel effects of an actor: it is the actor, or its owner by the profile that the
registry has now. -/
def Commands (g : Engine) (requester actor : ActorId) : Prop :=
  requester = actor ∨ ∃ p, g.world.profile? actor = some p ∧ p.owner = some requester

theorem mayCancel_iff : g.mayCancel requester actor = true ↔ g.Commands requester actor := by
  simp [mayCancel, Commands, Option.any_eq_true]

theorem cancelBuff_of_not_commands (h : ¬ g.Commands requester actor) (skill : SkillId) :
    g.cancelBuff requester actor skill = (g, 0) := by
  rw [cancelBuff, if_neg (mt mayCancel_iff.1 h)]

theorem cancelBuff_of_commands (h : g.Commands requester actor) (skill : SkillId) :
    g.cancelBuff requester actor skill = g.dispelFor actor (.skill skill) .voluntary := by
  rw [cancelBuff, if_pos (mayCancel_iff.2 h)]

/-- **What a player changes by cancelling**, after every run over an empty world.  A player that
does not command the actor changes nothing at all, and nobody changes anything on an actor that is
not there.  Otherwise exactly the effects of the actor that may be cancelled end: they leave the
list, where the others stay as they are, their entries leave the status and their timers the queue,
the end of each is told once, and no other actor is any different. -/
theorem cancel_run (settings : Settings) (codex : Codex) (start : UInt64) (manual : Bool)
    (capacity : Nat) (ops : List Op) (requester actor : ActorId) (skill : SkillId) :
    let g := (opened settings codex start manual capacity).run ops
    let g' := (g.cancelBuff requester actor skill).1
    (¬ g.Commands requester actor → g.cancelBuff requester actor skill = (g, 0)) ∧
    (g.world.get? actor = none → g.cancelBuff requester actor skill = (g, 0)) ∧
    (g.Commands requester actor → ∀ a, g.world.get? actor = some a →
      let gone := a.bearer.list.effects.filter fun e => decide (e.Cancelable settings skill)
      let left := a.bearer.list.effects.filter fun e => decide ¬ e.Cancelable settings skill
      (g.cancelBuff requester actor skill).2 = gone.length ∧
      g' = { g with
        world := g.world.setBearer actor
          ⟨{ a.bearer.list with effects := left }, a.bearer.status.without (gone.map (·.id))⟩
        queue := g'.queue
        feed := g.feed.publishAll g.now (gone.map fun e => .ended actor e.summary .dispelled) } ∧
      (∀ x, x ∈ g'.queue.pending ↔ x ∈ g.queue.pending ∧ ∀ e ∈ gone, x.key ≠ (actor, e.id)) ∧
      ∀ other, other ≠ actor → g'.world.get? other = g.world.get? other) := by
  intro g g'
  have ho : Orderly g [] := orderly_run settings codex start manual capacity ops
  have hr := (keeps_reflected codex settings).run start manual capacity ops
  have hsettings : g.settings = settings :=
    settings_steps (steps_run (sound_opened settings codex start manual capacity) ops)
  refine ⟨fun h => cancelBuff_of_not_commands h skill, fun absent => ?_,
    fun commands a found => ?_⟩
  · rw [cancelBuff, dispelFor, absent, ite_self]
  · intro gone left
    have hgone : a.bearer.list.removed g.settings (.skill skill) .voluntary = gone := by
      rw [hsettings]
      exact List.filter_congr fun e _ => Effect.removes_voluntary settings skill e
    have hleft : a.bearer.list.spares g.settings (.skill skill) .voluntary =
        { a.bearer.list with effects := left } := by
      simp only [EffectList.spares, hsettings, Effect.removes_voluntary, left, decide_not]
    have hcancel := (cancelBuff_of_commands commands skill).trans
      (dispelFor_eq ho.sound hr found (.skill skill) .voluntary)
    rw [hgone, hleft] at hcancel
    have hafter : g' = _ := congrArg Prod.fst hcancel
    have hqueue : g'.queue = _ := congrArg Engine.queue hafter
    refine ⟨by rw [hcancel], ?_, fun x => ?_, fun other hother => ?_⟩
    · rw [hqueue]
      exact hafter
    · rw [hqueue]
      exact mem_pending_ends ho.timed.queue gone .dispelled
    · rw [hafter]
      exact World.get?_setBearer_of_ne hother

/-- A skill with a chant, a song and an oath that binds. -/
def chantCodex : Codex where
  templates := [
    { id := ⟨1⟩, name := "Chant", skill := ⟨1⟩, kind := .buff, abnormalType := .buff,
      duration := 10 },
    { id := ⟨2⟩, name := "Song", skill := ⟨1⟩, kind := .buff, abnormalType := .song,
      duration := 10 },
    { id := ⟨3⟩, name := "Oath", skill := ⟨1⟩, kind := .marker, abnormalType := .none,
      policy := .debuff }]
  ids_nodup := by decide
  routes_pos := by decide

/-- A player has its summon go through the skill, and somebody else looks on. -/
def chant : List Op :=
  [.enter 1, .enter 3, .spawn { id := ⟨2⟩, owner := some ⟨1⟩ }, .applySkill ⟨1⟩ ⟨2⟩ ⟨⟨1⟩, 1, 0, 0⟩]

/-- The player may cancel the chant on its summon, and neither the song nor the oath. Somebody else
may cancel nothing, and neither may the player once the summon has another owner. -/
theorem cancel_run_chant :
    let g := (opened {} chantCodex 0 true 1).run chant
    let g' := (opened {} chantCodex 0 true 1).run
      (chant ++ [.spawn { id := ⟨2⟩, owner := some ⟨3⟩ }])
    (∃ a, g.world.get? ⟨2⟩ = some a ∧ a.bearer.list.effects.map (·.id) = [⟨1⟩, ⟨2⟩, ⟨3⟩] ∧
      (g.cancelBuff ⟨1⟩ ⟨2⟩ ⟨1⟩).2 = 1 ∧
      ∃ a', (g.cancelBuff ⟨1⟩ ⟨2⟩ ⟨1⟩).1.world.get? ⟨2⟩ = some a' ∧
        a'.bearer.list.effects.map (·.id) = [⟨2⟩, ⟨3⟩]) ∧
      g.cancelBuff ⟨3⟩ ⟨2⟩ ⟨1⟩ = (g, 0) ∧ g'.cancelBuff ⟨1⟩ ⟨2⟩ ⟨1⟩ = (g', 0) := by
  intro g g'
  have hstranger : ¬ g.Commands ⟨3⟩ ⟨2⟩ := by
    rw [← mayCancel_iff]
    decide +kernel
  have hformer : ¬ g'.Commands ⟨1⟩ ⟨2⟩ := by
    rw [← mayCancel_iff]
    decide +kernel
  have howner : g.Commands ⟨1⟩ ⟨2⟩ := by
    rw [← mayCancel_iff]
    decide +kernel
  obtain ⟨-, -, hallowed⟩ := cancel_run {} chantCodex 0 true 1 chant ⟨1⟩ ⟨2⟩ ⟨1⟩
  obtain ⟨a, found⟩ : ∃ a, g.world.get? ⟨2⟩ = some a := ⟨_, rfl⟩
  obtain ⟨hanswer, hafter, -, -⟩ := hallowed howner a found
  have hids : a.bearer.list.effects.map (·.id) = [⟨1⟩, ⟨2⟩, ⟨3⟩] := by
    cases found
    decide +kernel
  have hgone : (a.bearer.list.effects.filter
      fun e => decide (e.Cancelable {} ⟨1⟩)).map (·.id) = [⟨1⟩] := by
    cases found
    decide +kernel
  have hleft : (a.bearer.list.effects.filter
      fun e => decide ¬ e.Cancelable {} ⟨1⟩).map (·.id) = [⟨2⟩, ⟨3⟩] := by
    cases found
    decide +kernel
  have hafter' := congrArg (fun g : Engine => g.world.get? ⟨2⟩) hafter
  have found' := hafter'.trans (World.get?_setBearer_self found)
  refine ⟨⟨a, found, hids, ?_, _, found', hleft⟩, ?_, ?_⟩
  · rw [hanswer, ← List.length_map (·.id), hgone]
    rfl
  · exact (cancel_run {} chantCodex 0 true 1 chant ⟨3⟩ ⟨2⟩ ⟨1⟩).1 hstranger
  · exact (cancel_run {} chantCodex 0 true 1 _ ⟨1⟩ ⟨2⟩ ⟨1⟩).1 hformer

end Engine

end StatusEffects
