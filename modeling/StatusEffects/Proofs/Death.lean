import StatusEffects.Proofs.Aging
import StatusEffects.Proofs.Rejection
import StatusEffects.Proofs.Schedule

/-!
# Death

The dead keep the effects that outlive them and receive no others.  Until its actor is alive again,
or gone, an effect of the dead can tick and end and nothing else; it does so on the schedule that it
had before the death, and goes on with it after a revival.

## Main definitions

* `Template.outlives` : the effects of a template outlive their actor.
* `Engine.Dead` : an actor is registered and dead.
* `Engine.AtRest` : what death comes to in a state that is reached after it.

## Main statements

* `Engine.Dead.perform` : requests that do not restore the dead add nothing to what they bear.
* `Engine.bears_death_iff`, `Engine.spares_death` : what an actor bears when it has died.
* `Engine.death_run` : what death comes to after every run.
-/

namespace StatusEffects

/-- Whether the effects of a template outlive their actor. -/
def Template.outlives (t : Template) : Bool := t.has .staysAfterDeath || t.has .cannotBeDispelled

theorem permits_death (t : Template) (settings : Settings) :
    Cause.death.permits t settings = !t.outlives := by
  simp only [Cause.permits, Template.outlives, Bool.not_or, Bool.and_comm]

theorem Event.not_isCast_of_isUnbidden (ev : Event) (h : ev.isUnbidden = true) :
    ev.isCast = false := by
  cases ev with
  | started | refreshed => cases h
  | ticked | ended => rfl

namespace Bearer

variable {codex : Codex} {next : Nat} {id : ActorId} {b : Bearer} {e : Effect}

/-- **What a dispel leaves**: what it does not aim at, and what its cause may not remove. -/
theorem Sound.mem_dispel_iff (hb : b.Sound codex next id) (settings : Settings)
    (selector : Selector) (cause : Cause) :
    e ∈ (b.dispel settings selector cause).bearer.list.effects ↔
      e ∈ b.list.effects ∧ (selector.selects e && cause.permits e.template settings) = false := by
  have hleft : (b.dispel settings selector cause).bearer.list.effects =
      b.list.effects.filter fun e => !(selector.selects e && cause.permits e.template settings) :=
    hb.effects_dropAll_filter .dispelled rfl _
  rw [hleft, List.mem_filter, Bool.not_eq_true']

end Bearer

namespace Engine

open Bearer

variable {g : Engine} {a k : ActorId} {c : Actor} {e : Effect} {t : Template} {r : Request}
  {op : Op}

/-! ### The dead -/

/-- An actor is registered and dead. -/
abbrev Dead (g : Engine) (a : ActorId) : Prop := g.Registers a (·.alive = false)

namespace Dead

/-- The dead do not get through the gate. -/
theorem gate (hd : g.Dead a) (t : Template) (target : r.target = a) :
    g.gate t r = .error (.dead a) := by
  obtain ⟨c, found, dead⟩ := hd
  subst target
  simp only [Engine.gate, found, dead, Bool.not_false, if_true]

theorem applyTemplate (hd : g.Dead a) (t : Template) (target : r.target = a) :
    g.applyTemplate t r = (g, .error (.dead a)) := by
  simp only [Engine.applyTemplate, hd.gate t target]

theorem apply (hd : g.Dead a) (known : g.codex.get? r.template = some t)
    (target : r.target = a) : g.apply r = (g, .error (.dead a)) := by
  simp only [Engine.apply, known]
  exact hd.applyTemplate t target

theorem applySkill (hd : g.Dead a) (caster : ActorId) (skill : Skill) :
    g.applySkill caster a skill =
      (g, (g.codex.forSkill skill.id).map fun t => (t.id, .error (.dead a))) := by
  simp only [Engine.applySkill]
  induction g.codex.forSkill skill.id with
  | nil => rfl
  | cons t rest ih =>
    have hfirst := hd.applyTemplate (r := ⟨t.id, caster, a, some skill, .zero⟩) t rfl
    simp only [Engine.applyEach, hfirst, ih, List.map_cons]

/-- The effects of a dead actor age, and no cast on it is told. -/
abbrev Wanes (a : ActorId) : Engine → Engine → Prop := Ages (·.alive = false) (·.isCast = false) a

theorem dispelFor (hg : g.Sound) (hd : g.Dead a) (selector : Selector) (cause : Cause) :
    Wanes a g (g.dispelFor a selector cause).1 := by
  obtain ⟨c, found, dead⟩ := hd
  refine (upshot_dispelFor hg found selector cause).ages_self (fun c' found' => ?_)
    (fun ev hev => not_isCast_dropAll hev) ⟨c, found, dead⟩
  obtain rfl := Option.some.inj (found.symm.trans found')
  exact turns_dispel _ _ _ _

/-- An actor that dies is dead, whether or not it was dead before. -/
theorem death (hg : g.Sound) (found : g.world.get? a = some c) : Wanes a g (g.death a).1 := by
  have hdead : Wanes a g (g.animated a false) :=
    ages_of_bearer? ⟨_, get?_animated_self found false, rfl⟩ rfl (bearer?_animated false)
  rw [death_eq found]
  exact hdead.trans (dispelFor (hg.animated a false) hdead.registers _ _)

/-- **Requests that do not restore the dead add nothing to what they bear.** -/
theorem perform (hg : g.Sound) (hd : g.Dead a) (unrestored : op.restores a = false) :
    Wanes a g (g.perform op) := by
  cases aims : op.aimsAt a with
  | false => exact Ages.perform Event.not_isCast_of_isUnbidden hg hd aims unrestored
  | true =>
    cases op with
    | apply r =>
      have htarget : r.target = a := beq_iff_eq.1 aims
      cases known : g.codex.get? r.template with
      | none =>
        simp only [Engine.perform, Engine.apply, known]
        exact .refl hd
      | some t =>
        rw [Engine.perform, hd.apply known htarget]
        exact .refl hd
    | applySkill caster k skill =>
      obtain rfl := beq_iff_eq.1 aims
      rw [Engine.perform, hd.applySkill caster skill]
      exact .refl hd
    | dispel k selector =>
      obtain rfl := beq_iff_eq.1 aims
      exact dispelFor hg hd selector .cleanse
    | cancelBuff requester k skill =>
      obtain rfl := beq_iff_eq.1 aims
      simp only [Engine.perform, cancelBuff]
      split_ifs
      · exact dispelFor hg hd _ _
      · exact .refl hd
    | death k =>
      obtain rfl := beq_iff_eq.1 aims
      obtain ⟨c, found, -⟩ := hd
      exact death hg found
    | remove k => cases (unrestored.symm.trans aims : false = true)
    | _ => cases aims

end Dead

/-! ### What outlives a death -/

theorem get?_dispelFor (found : g.world.get? k = some c) (selector : Selector) (cause : Cause) :
    (g.dispelFor k selector cause).1.world.get? k =
      some { c with bearer := (c.bearer.dispel g.settings selector cause).bearer } := by
  simp only [dispelFor, found]
  exact World.get?_setBearer_self found

theorem bears_dispelFor_iff (hg : g.Sound) (found : g.world.get? k = some c)
    (selector : Selector) (cause : Cause) :
    (g.dispelFor k selector cause).1.Bears k e ↔
      g.Bears k e ∧ (selector.selects e && cause.permits e.template g.settings) = false := by
  have hg' : (g.dispelFor k selector cause).1.Sound := hg.steps (steps_dispelFor g k _ _)
  rw [bears_iff_mem hg' (get?_dispelFor found selector cause), bears_iff_mem hg found]
  exact (hg.bearer found).mem_dispel_iff g.settings selector cause

/-- A dispel spares what it does not aim at and what its cause may not remove, and tells nothing of
it. -/
theorem spares_dispelFor (hg : g.Sound) (hq : g.queue.Sound)
    (hr : ∀ id b, g.world.bearer? id = some b → b.Reflected) (found : g.world.get? k = some c)
    (selector : Selector) (cause : Cause) (he : g.Bears k e)
    (unaimed : (selector.selects e && cause.permits e.template g.settings) = false) :
    g.Spares (g.dispelFor k selector cause).1 k e ∧
      (g.dispelFor k selector cause).1.news (k, e.id) = g.news (k, e.id) := by
  have hb := hg.bearer found
  have hturns := turns_dispel c.bearer g.settings selector cause
  have hreflected := hr _ _ (World.bearer?_of_get? found)
  have hmem := (bears_iff_mem hg found).1 he
  have hleft := (hb.mem_dispel_iff g.settings selector cause).2 ⟨hmem, unaimed⟩
  have huntold := (hb.of_mem_dropAll rfl hleft).2
  have hu := upshot_dispelFor hg found selector cause
  constructor
  · exact spares_of_left found (get?_dispelFor found selector cause) hq hb.keys
      (hb.turns hturns).keys hreflected (hb.reflected_turns hreflected hturns) hmem hleft hu.queue
      huntold
  · rw [news_of_feed hu.feed, List.filter_eq_nil_iff.2, List.map_nil, List.append_nil]
    intro ev hev hkey
    exact huntold ev hev (congrArg Prod.snd (beq_iff_eq.1 hkey))

section Death

variable (hg : g.Sound) (found : g.world.get? a = some c)

include hg found

/-- **What an actor bears when it has died** is what outlives it. -/
theorem bears_death_iff : (g.death a).1.Bears a e ↔ g.Bears a e ∧ e.template.outlives = true := by
  have hbears : (g.animated a false).Bears a e ↔ g.Bears a e :=
    ⟨bears_congr (bearer?_animated false).symm, bears_congr (bearer?_animated false)⟩
  rw [death_eq found, bears_dispelFor_iff (hg.animated a false) (get?_animated_self found false),
    hbears]
  simp only [Selector.selects, Bool.true_and, permits_death, Bool.not_eq_false']

/-- **A death spares what outlives it**, and tells nothing of it. -/
theorem spares_death (hq : g.queue.Sound)
    (hr : ∀ id b, g.world.bearer? id = some b → b.Reflected) (he : g.Bears a e)
    (outlives : e.template.outlives = true) :
    g.Spares (g.death a).1 a e ∧ (g.death a).1.news (a, e.id) = g.news (a, e.id) := by
  have hstatus : (g.animated a false).status a = g.status a := by
    simp only [status, found, get?_animated_self found, Option.map_some]
  obtain ⟨hspared, hnews⟩ := spares_dispelFor (hg.animated a false) hq
    (fun id b hb => hr id b (bearer?_animated false ▸ hb)) (get?_animated_self found false) .all
    .death (bears_congr (bearer?_animated false) he) (by simp [permits_death, outlives])
  rw [← death_eq found] at hspared hnews
  exact ⟨⟨hspared.active, hstatus ▸ hspared.entries, hspared.timers⟩, hnews⟩

end Death

/-! ### Rest -/

/-- What the death of an actor comes to in a state that is reached after it, with nothing in between
that restores the actor. -/
structure AtRest (codex : Codex) (a : ActorId) (g g' : Engine) : Prop where
  /-- The effects that the actor bears are some that it had before, and outlive it. -/
  bears : ∀ e', g'.Bears a e' →
    ∃ e n, g.Bears a e ∧ e.template.outlives = true ∧ e' = Effect.countTick^[n] e
  /-- It receives no effect from a request, -/
  apply : ∀ r t, r.target = a → codex.get? r.template = some t →
    g'.apply r = (g', .error (.dead a))
  /-- nor from a skill. -/
  applySkill : ∀ caster skill, g'.applySkill caster a skill =
    (g', (codex.forSkill skill.id).map fun t => (t.id, .error (.dead a)))
  /-- No start and no renewal has been told of it. -/
  silent : ∃ more, g'.feed.journal.toList = g.feed.journal.toList ++ more ∧
    ∀ s ∈ more, s.event.actor = a → s.event.isCast = false

/-- **A dead actor is at rest** as long as nothing restores it. -/
theorem atRest_of_death (hg : g.Sound) (found : g.world.get? a = some c) {after : List Op}
    (unrestored : ∀ op ∈ after, op.restores a = false) :
    AtRest g.codex a g ((g.perform (.death a)).run after) := by
  have hdead : (g.perform (.death a)).Sound := sound_run hg [.death a]
  have hdies := Dead.death hg found
  have hafter : Dead.Wanes a (g.perform (.death a)) ((g.perform (.death a)).run after) :=
    .run hdead hdies.registers fun op hop _ hg hd => Dead.perform hg hd (unrestored op hop)
  have hcodex : ((g.perform (.death a)).run after).codex = g.codex :=
    codex_steps (steps_run hg (.death a :: after))
  have hd : Dead _ a := hafter.registers
  refine ⟨fun e' he' => ?_, fun r t target known => hd.apply (hcodex ▸ known) target,
    fun caster skill => hcodex ▸ hd.applySkill caster skill, (hdies.trans hafter).told⟩
  obtain ⟨b', hb', hget⟩ := he'
  obtain ⟨b, events, hb, hturns⟩ := hafter.turns b' hb'
  obtain ⟨e, he, n, rfl⟩ := hturns.exists_iterate (EffectList.mem_of_get? hget)
  obtain ⟨hbears, houtlives⟩ :=
    (bears_death_iff hg found).1 ⟨b, hb, (hdead a b hb).get?_of_mem he⟩
  exact ⟨e, n, hbears, houtlives, rfl⟩

/-- **What death comes to**, after every run over an empty world.  Until the actor is revived,
registered anew or removed, all that it bears was there before and outlives it, whatever is applied
to it is refused because it is dead, and no start and no renewal is told of it.

What outlives the death is spared by it.  If it ticks or expires it keeps to the schedule it had
before in whatever comes later, a revival included; as long as no request is aimed at the actor it
does nothing else, and once time has been advanced to a moment no timer of it is left that was due
by then. -/
theorem death_run (settings : Settings) (codex : Codex) (start : UInt64) (manual : Bool)
    (capacity : Nat) (before : List Op) {a : ActorId}
    (registered :
      ((opened settings codex start manual capacity).run before).world.contains a = true) :
    let g := (opened settings codex start manual capacity).run before
    let dead := g.perform (.death a)
    (∀ after : List Op, (∀ op ∈ after, op.restores a = false) →
      AtRest codex a g (dead.run after)) ∧
    ∀ e, g.Bears a e → e.template.outlives = true →
      g.Spares dead a e ∧ ∀ t, e.timer? settings.expiryUnit = some t →
        ∃ x ∈ g.queue.pending, x.key = (a, e.id) ∧ ∀ later : List Op,
          let g' := dead.run later
          Scheduled a e x.due (g.news (a, e.id)) g' [] ∧
          ((∀ op ∈ later, op.aimsAt a = false) →
            ∃ more, g'.news (a, e.id) = g.news (a, e.id) ++ more ∧
              ∀ s ∈ more, s.event.isUnbidden = true) ∧
          ∀ d : UInt64, d.toNat < lastMoment →
            ∀ y ∈ (g'.perform (.advanceTo d)).queue.pending, y.key = (a, e.id) →
              d.toNat < y.due := by
  intro g dead
  have hopened := sound_opened settings codex start manual capacity
  have hsteps := steps_run hopened before
  have hg : g.Prepared := prepared_run settings codex start manual capacity before
  have hcodex : g.codex = codex := codex_steps hsteps
  have hsettings : g.settings = settings := settings_steps hsteps
  obtain ⟨c, found⟩ := Option.isSome_iff_exists.1 registered
  refine ⟨fun after h => hcodex ▸ atRest_of_death hg.sound found h, fun e he houtlives => ?_⟩
  have hr := (keeps_reflected codex settings).run start manual capacity before
  obtain ⟨hspared, hnews⟩ := spares_death hg.sound found hg.timed.queue hr he houtlives
  refine ⟨hspared, fun t needed => ?_⟩
  obtain ⟨x, hx, hkey, hscheduled⟩ := scheduled_run
    (orderly_run settings codex start manual capacity before) hg he (hsettings ▸ needed)
  have hdead : dead.Prepared := hg.acts (acts_perform g (.death a))
  refine ⟨x, hx, hkey, fun later => ⟨hscheduled (.death a :: later), fun unaimed => ?_,
    fun d hd y hy _ => ?_⟩⟩
  · obtain ⟨c', found', -⟩ := (Dead.death hg.sound found).registers
    have hages := Ages.unbidden hdead.sound ⟨c', found', trivial⟩ unaimed
    obtain ⟨more, hmore, hunbidden⟩ := hages.told
    refine ⟨more.filter fun s => (s.event.actor, s.event.effect.id) == (a, e.id), ?_,
      fun s hs => ?_⟩
    · rw [news_of_journal hmore, ← hnews]
      rfl
    · obtain ⟨hs, hkey⟩ := List.mem_filter.1 hs
      exact hunbidden s hs (congrArg Prod.fst (beq_iff_eq.1 hkey))
  · have hlater : (dead.run later).Prepared := hdead.acts (acts_run dead later)
    exact (late_advanceTo hlater.timed.queue hd).2 y hy

/-- A curse of four ticks that outlives its actor. -/
def curse : Template where
  id := ⟨1⟩
  name := "Curse"
  skill := ⟨1⟩
  kind := .periodic
  abnormalType := .poison
  duration := 4
  tickInterval := 500
  policy := .staysAfterDeath

/-- A curse, and a haste that does not outlive its actor. -/
def curseCodex : Codex where
  templates := [curse,
    { id := ⟨2⟩, name := "Haste", skill := ⟨1⟩, kind := .buff, abnormalType := .speedUp,
      duration := 10, bonuses := [⟨.runSpeed, .flat 20⟩] }]
  ids_nodup := by decide
  routes_pos := by decide

/-- The curse has ticked once when its actor dies, and the haste is lost.  The curse ticks on among
casts that are refused, and has its last tick at its moment after the actor has been revived. -/
theorem death_run_curse :
    let g := (opened {} curseCodex 0 true 1).run
      [.enter 1, .cast 1 1, .cast 1 2, .advanceTo 700]
    let dead := g.perform (.death ⟨1⟩)
    let after := dead.run [.cast 1 2, .advanceTo 1200]
    let later := dead.run [.advanceTo 1200, .revive ⟨1⟩, .advanceTo 2000]
    g.world.contains ⟨1⟩ = true ∧ AtRest curseCodex ⟨1⟩ g after ∧
      ∃ e : Effect, g.Bears ⟨1⟩ e ∧ e.template.name = "Curse" ∧ e.ticks = 1 ∧
        g.Spares dead ⟨1⟩ e ∧ Scheduled ⟨1⟩ e 1000 (g.news (⟨1⟩, e.id)) later [] ∧
        later.feed.journal.toList.map (·.moment) = [0, 0, 500, 700, 1000, 1500, 2000, 2000] := by
  intro g dead after later
  have registered : g.world.contains ⟨1⟩ = true := by decide +kernel
  obtain ⟨hrest, hsurvives⟩ := death_run {} curseCodex 0 true 1 _ registered
  let started : Effect := { Effect.ofCast ⟨1⟩ curse ⟨1⟩ ⟨1⟩ none with phase := .active }
  let e : Effect := started.countTick
  have he : g.Bears ⟨1⟩ e := ⟨_, rfl, rfl⟩
  have houtlives : curse.outlives = true := by decide +kernel
  obtain ⟨hspares, hschedule⟩ := hsurvives e he houtlives
  obtain ⟨x, hx, hkey, hlater⟩ := hschedule _ rfl
  have hdue : ∀ x ∈ g.queue.pending, x.key = (⟨1⟩, ⟨1⟩) → x.due = 1000 := by decide +kernel
  have hscheduled := (hlater [.advanceTo 1200, .revive ⟨1⟩, .advanceTo 2000]).1
  rw [hdue x hx hkey] at hscheduled
  exact ⟨registered, hrest _ (by decide), e, he, rfl, rfl, hspares, hscheduled, by decide +kernel⟩

end Engine

end StatusEffects
