import StatusEffects.Proofs.Run
import StatusEffects.Proofs.Sound

/-!
# Steps of an engine

Seen from the actors and from the feed an engine moves in steps: one small change of one bearer,
told by one event, or an actor that enters, leaves or gets another profile.  Every run is a chain of
such steps (`Engine.steps_run`), so what holds of an engine through every step holds after every
run.

## Main definitions

* `Engine.tell` : records what an actor bears and publishes the events that tell it.
* `Engine.Step`, `Engine.Steps` : the steps and their chains.
* `Engine.Sound` : every actor's bearer is sound.
* `Engine.Made` : what a step makes of what an actor bears.
* `Engine.Keeps` : a property of bearers that small changes keep.

## Main statements

* `Engine.made_step` : the ways a bearer comes about in a step.
* `Engine.Sound.step`, `Engine.sound_run` : soundness is kept.
* `Engine.steps_act`, `Engine.steps_run` : acts and runs are chains of steps.
* `Engine.Keeps.run` : what small changes keep holds of every bearer after every run.
-/

namespace StatusEffects

namespace Feed

theorem journal_publishAll (f : Feed) (moment : Nat) (events : List Event) :
    (f.publishAll moment events).journal.toList =
      f.journal.toList ++ events.map (.mk moment) := by
  simp [publishAll]

theorem publishAll_nil (f : Feed) (moment : Nat) : f.publishAll moment [] = f := by
  simp [publishAll]

theorem publishAll_append (f : Feed) (moment : Nat) (events others : List Event) :
    f.publishAll moment (events ++ others) =
      (f.publishAll moment events).publishAll moment others := by
  simp only [publishAll, List.map_append, mk.injEq, and_true, true_and]
  exact Array.ext' (by simp)

end Feed

namespace Engine

variable {g g' : Engine} {id : ActorId} {a : Actor} {b b₁ : Bearer} {moment : Nat} {ev : Event}
  {events others : List Event} {t : Template} {r : Request}

/-- Records what an actor bears after a change and publishes the events that tell the change. -/
def tell (g : Engine) (id : ActorId) (moment : Nat) (b : Bearer) (events : List Event) : Engine :=
  { g with world := g.world.setBearer id b, feed := g.feed.publishAll moment events }

/-- Steps of an engine, apart from what happens to its queue. -/
inductive Step : Engine → Engine → Prop
  /-- A running effect of an actor ticks or ends. -/
  | turn {g : Engine} {id : ActorId} {a : Actor} {ev : Event} {b : Bearer} (moment : Nat)
      (found : g.world.get? id = some a) (change : a.bearer.Turn ev b) :
      Step g (g.tell id moment b [ev])
  /-- An incoming effect makes its change. -/
  | arrival {g : Engine} {t : Template} {r : Request} {a : Actor} {ev : Event} {b : Bearer}
      (known : t ∈ g.codex.templates) (passed : g.gate t r = .ok a)
      (change : a.bearer.Arrival a.profile g.settings (g.incoming t r) ev b) :
      Step g ({ g with nextEffect := g.nextEffect + 1 }.tell r.target g.now b [ev])
  /-- A key is used up for an effect that is turned away. -/
  | skip (g : Engine) : Step g { g with nextEffect := g.nextEffect + 1 }
  /-- An actor enters the world. -/
  | enter {g : Engine} {p : Profile} (absent : g.world.get? p.id = none) : Step g (g.spawn p)
  /-- An actor gets another profile. -/
  | profile (g : Engine) {id : ActorId} {f : Profile → Profile}
      (keeps : ∀ p, p.id = id → (f p).id = id) :
      Step g { g with world := g.world.modifyProfile id f }
  /-- An actor without effects leaves the world. -/
  | leave {g : Engine} {id : ActorId} {a : Actor} (found : g.world.get? id = some a)
      (empty : a.bearer.list.effects = []) : Step g { g with world := g.world.remove id }
  /-- Nothing changes but the clock, the queue, the metrics and whether places are known. -/
  | quiet {g g' : Engine}
      (same : g' = { g with
        world := { g.world with spatialReady := g'.world.spatialReady }
        clock := g'.clock
        queue := g'.queue
        metrics := g'.metrics }) : Step g g'

/-- Chains of steps. -/
abbrev Steps : Engine → Engine → Prop := Relation.ReflTransGen Step

/-! ### Telling a chain of changes -/

theorem tell_tell (g : Engine) (id : ActorId) (moment : Nat) (b₁ b : Bearer)
    (events others : List Event) :
    (g.tell id moment b₁ events).tell id moment b others =
      g.tell id moment b (events ++ others) := by
  simp [tell, World.setBearer_setBearer, Feed.publishAll_append]

theorem tell_nil (found : g.world.get? id = some a) : g.tell id moment a.bearer [] = g := by
  simp [tell, World.setBearer_bearer found, Feed.publishAll_nil]

theorem get?_tell (found : g.world.get? id = some a) :
    (g.tell id moment b events).world.get? id = some { a with bearer := b } :=
  World.get?_setBearer_self found

theorem bearer?_tell (found : g.world.get? id = some a) (k : ActorId) :
    (g.tell id moment b events).world.bearer? k =
      if k = id then some b else g.world.bearer? k :=
  World.bearer?_setBearer found

theorem steps_turns (found : g.world.get? id = some a) (moment : Nat)
    (h : a.bearer.Turns events b) : Steps g (g.tell id moment b events) := by
  generalize hb : a.bearer = b₀ at h
  induction h generalizing g a with
  | nil b =>
    subst hb
    rw [tell_nil found]
  | @cons b b₁ b₂ ev events hturn _ ih =>
    subst hb
    -- telling the changes one by one amounts to telling them together
    have found' : (g.tell id moment b₁ [ev]).world.get? id = some { a with bearer := b₁ } :=
      get?_tell found
    have htail := ih found' rfl
    rw [tell_tell, List.singleton_append] at htail
    exact .head (.turn moment found hturn) htail

/-! ### Soundness -/

/-- Every actor's bearer is sound. -/
def Sound (g : Engine) : Prop :=
  ∀ id b, g.world.bearer? id = some b → b.Sound g.codex g.nextEffect id

theorem incoming_incoming (known : t ∈ g.codex.templates) :
    (g.incoming t r).Incoming g.codex g.nextEffect r.target :=
  ⟨rfl, rfl, known, rfl, rfl⟩

theorem gate_eq_ok_iff : g.gate t r = .ok a ↔
    g.world.get? r.target = some a ∧ a.profile.alive = true ∧
      t.condition.all (Condition.holds (g.scene r)) = true := by
  simp only [gate]
  cases g.world.get? r.target with
  | none => simp
  | some c =>
    simp only [Option.some.injEq]
    constructor
    · intro h
      split_ifs at h with halive hcond
      · obtain rfl := Except.ok.inj h
        exact ⟨rfl, by simpa using halive, hcond⟩
    · rintro ⟨rfl, halive, hcond⟩
      simp [halive, hcond]

theorem get?_of_gate (h : g.gate t r = .ok a) : g.world.get? r.target = some a :=
  (gate_eq_ok_iff.1 h).1

/-- What a step from `g` to `g'` has made of what an actor bears. -/
inductive Made (g g' : Engine) (id : ActorId) : Bearer → Prop
  | same {b : Bearer} (before : g.world.bearer? id = some b) : Made g g' id b
  | fresh : Made g g' id (.fresh id)
  | turn {b b' : Bearer} {ev : Event} (before : g.world.bearer? id = some b)
      (change : b.Turn ev b') : Made g g' id b'
  | arrival {b b' : Bearer} {ev : Event} {p : Profile} {incoming : Effect}
      (before : g.world.bearer? id = some b)
      (pending : incoming.Incoming g.codex g.nextEffect id)
      (change : b.Arrival p g.settings incoming ev b')
      (next : g'.nextEffect = g.nextEffect + 1) : Made g g' id b'

theorem made_step (h : Step g g') {c : Bearer} (hc : g'.world.bearer? id = some c) :
    Made g g' id c := by
  cases h with
  | turn moment found change =>
    rw [bearer?_tell found] at hc
    split_ifs at hc with hk
    · obtain rfl := Option.some.inj hc
      subst hk
      exact .turn (World.bearer?_of_get? found) change
    · exact .same hc
  | @arrival t r a ev b known passed change =>
    have found := get?_of_gate passed
    rw [bearer?_tell (g := { g with nextEffect := g.nextEffect + 1 }) found] at hc
    split_ifs at hc with hk
    · obtain rfl := Option.some.inj hc
      subst hk
      exact .arrival (World.bearer?_of_get? found) (incoming_incoming known) change rfl
    · exact .same hc
  | skip => exact .same hc
  | @enter p absent =>
    simp only [spawn, World.bearer?_spawn_new absent] at hc
    split_ifs at hc with hk
    · obtain rfl := Option.some.inj hc
      exact hk ▸ .fresh
    · exact .same hc
  | profile keeps =>
    rw [World.bearer?_modifyProfile keeps] at hc
    exact .same hc
  | leave found empty =>
    rw [World.bearer?_remove] at hc
    split_ifs at hc
    exact .same hc
  | quiet same =>
    rw [same] at hc
    exact .same hc

theorem codex_step (h : Step g g') : g'.codex = g.codex := by
  cases h with
  | quiet same => rw [same]
  | _ => rfl

theorem settings_step (h : Step g g') : g'.settings = g.settings := by
  cases h with
  | quiet same => rw [same]
  | _ => rfl

theorem nextEffect_step (h : Step g g') : g.nextEffect ≤ g'.nextEffect := by
  cases h with
  | quiet same => exact Nat.le_of_eq (congrArg Engine.nextEffect same).symm
  | arrival | skip => exact Nat.le_succ _
  | turn | enter | profile | leave => exact Nat.le_refl _

namespace Sound

theorem bearer (hg : g.Sound) (found : g.world.get? id = some a) :
    a.bearer.Sound g.codex g.nextEffect id :=
  hg id _ (World.bearer?_of_get? found)

theorem step (hg : g.Sound) (h : Step g g') : g'.Sound := by
  intro k c hc
  rw [codex_step h]
  have hnext := nextEffect_step h
  cases made_step h hc with
  | same before => exact (hg k c before).mono hnext
  | fresh => exact Bearer.sound_fresh _ _ _
  | turn before change => exact ((hg k _ before).turn change).mono hnext
  | arrival before pending change next =>
    rw [next]
    exact (hg k _ before).arrival pending change

theorem steps (hg : g.Sound) (h : Steps g g') : g'.Sound := by
  induction h with
  | refl => exact hg
  | tail _ hstep ih => exact ih.step hstep

end Sound

theorem sound_opened (settings : Settings) (codex : Codex) (start : UInt64) (manual : Bool)
    (capacity : Nat) : (opened settings codex start manual capacity).Sound :=
  fun _ _ h => nomatch h

/-! ### Acts and runs as chains of steps -/

theorem conclude_eq {α : Type} (g : Engine) (id : ActorId) (moment : Nat) (o : Outcome α) :
    g.conclude id moment o =
      { g.tell id moment o.bearer o.events with queue := cancelEnded g.queue o.events } :=
  rfl

theorem step_reschedule (g : Engine) (moment : Nat) (f : Firing) :
    Step g (g.reschedule moment f) := by
  cases f <;> exact .quiet rfl

theorem step_scheduleFor (g : Engine) (x : Admission) : Step g (g.scheduleFor x) := by
  simp only [scheduleFor]
  split <;> exact .quiet rfl

theorem steps_conclude {α : Type} (found : g.world.get? id = some a) (moment : Nat)
    (o : Outcome α) (h : a.bearer.Turns o.events o.bearer) :
    Steps g (g.conclude id moment o) :=
  (steps_turns found moment h).tail (.quiet rfl)

theorem gate_tell (passed : g.gate t r = .ok a) :
    (g.tell r.target moment b events).gate t r = .ok { a with bearer := b } := by
  obtain ⟨found, halive, hcond⟩ := gate_eq_ok_iff.1 passed
  have hscene : (g.tell r.target moment b events).scene r = g.scene r := by
    simp only [scene, tell, World.surroundings_setBearer, World.profile?_setBearer]
  refine gate_eq_ok_iff.2 ⟨get?_tell found, halive, ?_⟩
  rwa [hscene]

theorem applyTemplate_of_error {refusal : Refusal} (refused : g.gate t r = .error refusal) :
    g.applyTemplate t r = (g, .error refusal) := by
  simp only [applyTemplate, refused]

/-- Past the gate the bearer decides, whether or not a timer is queued in the end. -/
theorem applyTemplate_of_gate (passed : g.gate t r = .ok a) :
    let o := a.bearer.apply a.profile g.settings (g.incoming t r)
    (g.applyTemplate t r).1.world = g.world.setBearer r.target o.bearer ∧
      (g.applyTemplate t r).1.feed = g.feed.publishAll g.now o.events ∧
      (g.applyTemplate t r).1.settings = g.settings := by
  simp only [applyTemplate, passed]
  split
  · exact ⟨rfl, rfl, rfl⟩
  · simp only [scheduleFor]
    split <;> exact ⟨rfl, rfl, rfl⟩

theorem steps_applyTemplate (hg : g.Sound) (known : t ∈ g.codex.templates) :
    Steps g (g.applyTemplate t r).1 := by
  simp only [applyTemplate]
  cases passed : g.gate t r with
  | error refusal => exact .refl
  | ok a =>
    have found := get?_of_gate passed
    have hconclude : Steps g ({ g with nextEffect := g.nextEffect + 1 }.conclude r.target g.now
        (a.bearer.apply a.profile g.settings (g.incoming t r))) := by
      rcases (hg.bearer found).apply_changes (incoming_incoming known) a.profile g.settings with
        ⟨refusal, h⟩ | ⟨losses, b₁, ev, hturns, harrival, hevents⟩
      · rw [h, conclude_eq, tell_nil (g := { g with nextEffect := g.nextEffect + 1 }) found]
        exact .single (.skip g)
      · -- the losses are told first, and the gate is as open after them as before
        have harrival' := Step.arrival (g := g.tell r.target g.now b₁ losses) known
          (gate_tell passed) harrival
        have htell := tell_tell { g with nextEffect := g.nextEffect + 1 } r.target g.now b₁
          (a.bearer.apply a.profile g.settings (g.incoming t r)).bearer losses [ev]
        rw [← hevents] at htell
        refine ((steps_turns found g.now hturns).tail harrival').tail ?_
        exact .quiet (by rw [conclude_eq, ← htell]; rfl)
    simp only
    split
    · exact hconclude
    · exact hconclude.tail (step_scheduleFor _ _)

/-- A removal from an unknown actor changes nothing. -/
theorem dispelFor_of_absent (absent : g.world.get? id = none) (selector : Selector)
    (cause : Cause) : g.dispelFor id selector cause = (g, 0) := by
  simp only [dispelFor, absent]

theorem remove_of_absent (absent : g.world.get? id = none) : g.remove id = (g, 0) := by
  simp only [remove, absent]

theorem steps_dispelFor (g : Engine) (actor : ActorId) (selector : Selector) (cause : Cause) :
    Steps g (g.dispelFor actor selector cause).1 := by
  simp only [dispelFor]
  cases found : g.world.get? actor with
  | none => exact .refl
  | some a => exact steps_conclude found g.now _ (Bearer.turns_dispel a.bearer _ selector cause)

theorem steps_remove (g : Engine) (actor : ActorId) : Steps g (g.remove actor).1 := by
  simp only [remove]
  cases found : g.world.get? actor with
  | none => exact .refl
  | some a =>
    have hturns := steps_turns found g.now (Bearer.turns_clear a.bearer
      (show EndReason.isParting .actorRemoved = true from rfl))
    have hleave := Step.leave (g := g.tell actor g.now (a.bearer.clear .actorRemoved).bearer
      (a.bearer.clear .actorRemoved).events) (get?_tell found) rfl
    simp only [tell, World.remove_setBearer] at hleave
    exact (hturns.tail hleave).tail (.quiet rfl)

theorem steps_fire (g : Engine) (e : Entry) : Steps g (g.fire e) := by
  simp only [fire]
  cases found : g.world.get? e.timer.actor with
  | none => exact .single (.quiet rfl)
  | some a =>
    have hfound : (g.reschedule e.due (a.bearer.fire g.settings e.timer).answer).world.get?
        e.timer.actor = some a := by
      rw [← found]
      cases (a.bearer.fire g.settings e.timer).answer <;> rfl
    exact (Relation.ReflTransGen.head (step_reschedule g e.due _)
      (steps_conclude hfound e.due _ (Bearer.turns_fire a.bearer g.settings e.timer))).tail
      (.quiet rfl)

theorem step_spawn (g : Engine) (p : Profile) : Step g (g.spawn p) := by
  cases h : g.world.get? p.id with
  | none => exact .enter h
  | some a =>
    have keeps : ∀ q : Profile, q.id = p.id → ((fun _ => p) q).id = p.id := fun _ _ => rfl
    have hstep := Step.profile g keeps
    rwa [← World.spawn_known h] at hstep

/-- An act is a chain of steps. -/
theorem steps_act {taken taken' : List Entry} (hg : g.Sound) (h : Act (g, taken) (g', taken')) :
    Steps g g' := by
  cases h with
  | spawn _ p => exact .single (step_spawn g p)
  | locate => exact .single (.quiet rfl)
  | receive _ t r known => exact steps_applyTemplate hg known
  | dispel _ actor selector cause => exact steps_dispelFor g actor selector cause
  | animate => exact .single (.profile g fun _ h => h)
  | remove _ actor => exact steps_remove g actor
  | setClock => exact .single (.quiet rfl)
  | pass => exact .single (.quiet rfl)
  | sweep => exact .single (.quiet rfl)
  | take => exact .single (.quiet rfl)
  | fire _ e => exact steps_fire g e

theorem steps_acts {s s' : Engine × List Entry} (hg : s.1.Sound) (h : Acts s s') :
    Steps s.1 s'.1 := by
  induction h with
  | refl => exact .refl
  | tail _ hact ih => exact ih.trans (steps_act (hg.steps ih) hact)

/-- **A run is a chain of steps.** -/
theorem steps_run (hg : g.Sound) (ops : List Op) : Steps g (g.run ops) :=
  steps_acts (s := (g, [])) hg (acts_run g ops)

theorem sound_run (hg : g.Sound) (ops : List Op) : (g.run ops).Sound :=
  hg.steps (steps_run hg ops)

/-! ### Properties of bearers -/

theorem codex_steps (h : Steps g g') : g'.codex = g.codex := by
  induction h with
  | refl => rfl
  | tail _ hstep ih => rw [codex_step hstep, ih]

theorem settings_steps (h : Steps g g') : g'.settings = g.settings := by
  induction h with
  | refl => rfl
  | tail _ hstep ih => rw [settings_step hstep, ih]

/-- A property of bearers that every small change of a sound bearer keeps. -/
structure Keeps (codex : Codex) (settings : Settings) (P : Bearer → Prop) : Prop where
  fresh : ∀ id, P (.fresh id)
  turn : ∀ {next id b ev b'}, b.Sound codex next id → P b → b.Turn ev b' → P b'
  arrival : ∀ {next id b p incoming ev b'}, b.Sound codex next id →
    incoming.Incoming codex next id → P b → b.Arrival p settings incoming ev b' → P b'

namespace Keeps

variable {P : Bearer → Prop}

theorem step (hP : Keeps g.codex g.settings P) (hg : g.Sound)
    (h₀ : ∀ id b, g.world.bearer? id = some b → P b) (h : Step g g') :
    ∀ id b, g'.world.bearer? id = some b → P b := by
  intro k c hc
  cases made_step h hc with
  | same before => exact h₀ k c before
  | fresh => exact hP.fresh k
  | turn before change => exact hP.turn (hg k _ before) (h₀ k _ before) change
  | arrival before pending change _ =>
    exact hP.arrival (hg k _ before) pending (h₀ k _ before) change

theorem steps (hP : Keeps g.codex g.settings P) (hg : g.Sound)
    (h₀ : ∀ id b, g.world.bearer? id = some b → P b) (h : Steps g g') :
    ∀ id b, g'.world.bearer? id = some b → P b := by
  induction h with
  | refl => exact h₀
  | @tail g₁ g₂ hsteps hstep ih =>
    have hP₁ : Keeps g₁.codex g₁.settings P := by
      rw [codex_steps hsteps, settings_steps hsteps]
      exact hP
    exact hP₁.step (hg.steps hsteps) ih hstep

/-- What small changes keep holds of every bearer after every run over an empty world. -/
theorem run {settings : Settings} {codex : Codex} (hP : Keeps codex settings P) (start : UInt64)
    (manual : Bool) (capacity : Nat) (ops : List Op) :
    ∀ id b, ((opened settings codex start manual capacity).run ops).world.bearer? id = some b →
      P b := by
  have hsound := sound_opened settings codex start manual capacity
  exact hP.steps hsound (fun _ _ h => nomatch h) (steps_run hsound ops)

end Keeps

end Engine

end StatusEffects
