import StatusEffects.Proofs.Cast
import StatusEffects.Proofs.SameBut
import StatusEffects.Proofs.Waiting

/-!
# Isolation of actors

What is done to one actor goes unnoticed by the others.  Requests and time keep engines the same but
for one actor, and a removal that is aimed at the actor may be left out.  It changes which casts on
the actor are renewals, which timers it has and which numbers the timers of all others get; but
every application that passes the gate uses up a key, whatever comes of it, and timers that are due
at one moment fire in the order in which they were asked for.

## Main definitions

* `Engine.Abreast` : two engines that are the same but for one actor, at the same moment.
* `Step.relieved?` : the actor whose effects a step is to remove.

## Main statements

* `Engine.Abreast.applyTemplate`, `Engine.Abreast.dispelFor` : requests keep engines abreast.
* `Engine.SameBut.advanceTo` : time keeps engines the same but for one actor.
* `Service.isolation_replay` : a removal that is left out goes unnoticed by the others.
-/

namespace StatusEffects

namespace Engine

open Bearer TimerQueue

variable {g g' : Engine} {a k : ActorId} {c : Actor} {t : Template} {r : Request} {x y : Entry}
  {q q' : TimerQueue} {d : Nat}

/-! ### Requests -/

/-- What an engine and its queue need to be for operations to do what they should. -/
structure Fit (g : Engine) : Prop where
  sound : g.Sound
  queue : g.queue.Sound

theorem Fit.act {taken taken' : List Entry} (hg : g.Fit) (h : Act (g, taken) (g', taken')) :
    g'.Fit :=
  ⟨hg.sound.steps (steps_act hg.sound h), sound_queue_act hg.queue h⟩

theorem Fit.acts {s s' : Engine × List Entry} (hg : s.1.Fit) (h : Acts s s') : s'.1.Fit :=
  ⟨hg.sound.steps (steps_acts hg.sound h), sound_queue_acts hg.queue h⟩

/-- Two engines that are the same but for one actor, at the same moment and with the same next
key. -/
structure Abreast (a : ActorId) (g g' : Engine) : Prop extends SameBut a g g' where
  clock : g'.clock = g.clock
  next : g'.nextEffect = g.nextEffect
  fit : g.Fit
  fit' : g'.Fit

theorem nextEffect_applyTemplate (passed : g.gate t r = .ok c) :
    (g.applyTemplate t r).1.nextEffect = g.nextEffect + 1 := by
  unfold applyTemplate
  simp only [passed]
  split
  · rfl
  · unfold scheduleFor
    split <;> rfl

namespace Abreast

theorem refl (a : ActorId) (hg : g.Fit) : g.Abreast a g := ⟨.refl a g, rfl, rfl, hg, hg⟩

theorem now (h : g.Abreast a g') : g'.now = g.now := congrArg Clock.now h.clock

/-- **An application finds the same in both.**  Where it is for the actor itself, both use up a key
whatever comes of it. -/
theorem applyTemplate (h : g.Abreast a g') (known : t ∈ g.codex.templates) (r : Request) :
    (g.applyTemplate t r).1.Abreast a (g'.applyTemplate t r).1 := by
  have known' : t ∈ g'.codex.templates := h.codex ▸ known
  cases passed : g.gate t r with
  | error refusal =>
    cases passed' : g'.gate t r with
    | error refusal' =>
      rw [applyTemplate_of_error passed, applyTemplate_of_error passed']
      exact h
    | ok c =>
      obtain ⟨b, hok, -⟩ := h.toSameBut.symm.gate passed'
      rw [passed] at hok
      cases hok
  | ok c =>
    obtain ⟨b, passed', hb⟩ := h.gate passed
    have hincoming : g'.incoming t r = g.incoming t r := by
      unfold incoming
      rw [h.next]
    have hu := upshot_applyTemplate h.fit.sound known passed
    have hu' := upshot_applyTemplate h.fit'.sound known' passed'
    rw [hincoming, h.settings, h.now] at hu'
    refine ⟨h.upshot h.fit.queue h.fit'.queue hu hu' ?_ fun hk => ?_, ?_, ?_,
      h.fit.act (.receive g t r known), h.fit'.act (.receive g' t r known')⟩
    · exact h.world.setBearer (get?_of_gate passed) fun hk => by rw [hb hk]
    · rw [hb hk]
      exact ⟨rfl, rfl⟩
    · rw [clock_applyTemplate, clock_applyTemplate, h.clock]
    · rw [nextEffect_applyTemplate passed, nextEffect_applyTemplate passed', h.next]

theorem applyEach (h : g.Abreast a g') (caster target : ActorId) (skill : Skill)
    (ts : List Template) (known : ∀ t ∈ ts, t ∈ g.codex.templates) :
    (g.applyEach caster target skill ts).1.Abreast a (g'.applyEach caster target skill ts).1 := by
  induction ts generalizing g g' with
  | nil => exact h
  | cons t rest ih =>
    have hfirst := h.applyTemplate (known t List.mem_cons_self)
      ⟨t.id, caster, target, some skill, .zero⟩
    have hcodex := codex_applyTemplate g t ⟨t.id, caster, target, some skill, .zero⟩
    exact ih hfirst fun u hu => hcodex.symm ▸ known u (List.mem_cons_of_mem _ hu)

theorem applySkill (h : g.Abreast a g') (caster target : ActorId) (skill : Skill) :
    (g.applySkill caster target skill).1.Abreast a (g'.applySkill caster target skill).1 := by
  unfold Engine.applySkill
  rw [h.codex]
  exact h.applyEach caster target skill _ fun t ht => List.mem_of_mem_filter ht

theorem dispelFor (h : g.Abreast a g') (k : ActorId) (selector : Selector) (cause : Cause) :
    (g.dispelFor k selector cause).1.Abreast a (g'.dispelFor k selector cause).1 := by
  refine ⟨?_, ?_, ?_, h.fit.act (.dispel g k selector cause),
    h.fit'.act (.dispel g' k selector cause)⟩
  · cases found : g.world.get? k with
    | none =>
      unfold Engine.dispelFor
      rw [found, h.world.get?_eq_none found]
      exact h.toSameBut
    | some c =>
      obtain ⟨b, found', hb⟩ := h.world.exists_get? found
      have hu := upshot_dispelFor h.fit.sound found selector cause
      have hu' := upshot_dispelFor h.fit'.sound found' selector cause
      rw [h.settings, h.now] at hu'
      refine h.upshot h.fit.queue h.fit'.queue hu hu' ?_ fun hk => ?_
      · exact h.world.setBearer found fun hk => by rw [hb hk]
      · rw [hb hk]
        exact ⟨rfl, rfl⟩
  · rw [clock_dispelFor, clock_dispelFor, h.clock]
  · rw [nextEffect_dispelFor, nextEffect_dispelFor, h.next]

/-- **A removal aimed at the actor goes unnoticed.** -/
theorem dispelFor_self (h : g.Abreast a g') (selector : Selector) (cause : Cause) :
    g.Abreast a (g'.dispelFor a selector cause).1 := by
  refine ⟨?_, ?_, ?_, h.fit, h.fit'.act (.dispel g' a selector cause)⟩
  · cases found : g'.world.get? a with
    | none =>
      unfold Engine.dispelFor
      rw [found]
      exact h.toSameBut
    | some c =>
      have hu := upshot_dispelFor h.fit'.sound found selector cause
      exact h.upshot_self h.fit'.queue hu (h.world.setBearer_self _)
  · rw [clock_dispelFor, h.clock]
  · rw [nextEffect_dispelFor, h.next]

theorem mayCancel (h : g.Abreast a g') (requester k : ActorId) :
    g'.mayCancel requester k = g.mayCancel requester k := by
  unfold Engine.mayCancel
  rw [h.world.profile?]

theorem cancelBuff (h : g.Abreast a g') (requester k : ActorId) (skill : SkillId) :
    (g.cancelBuff requester k skill).1.Abreast a (g'.cancelBuff requester k skill).1 := by
  unfold Engine.cancelBuff
  rw [h.mayCancel]
  split_ifs
  · exact h.dispelFor k (.skill skill) .voluntary
  · exact h

theorem cancelBuff_self (h : g.Abreast a g') (requester : ActorId) (skill : SkillId) :
    g.Abreast a (g'.cancelBuff requester a skill).1 := by
  unfold Engine.cancelBuff
  split_ifs
  · exact h.dispelFor_self (.skill skill) .voluntary
  · exact h

theorem animate (h : g.Abreast a g') (k : ActorId) (alive : Bool) :
    Abreast a { g with world := g.world.modifyProfile k fun p => { p with alive } }
      { g' with world := g'.world.modifyProfile k fun p => { p with alive } } where
  settings := h.settings
  codex := h.codex
  world := by
    have keeps : ∀ p : Profile, p.id = k → ({ p with alive } : Profile).id = k := fun _ hp => hp
    exact h.world.modifyProfile keeps
  timers := h.timers
  heard := h.heard
  clock := h.clock
  next := h.next
  fit := h.fit.act (.animate g k alive)
  fit' := h.fit'.act (.animate g' k alive)

theorem death (h : g.Abreast a g') (k : ActorId) :
    (g.death k).1.Abreast a (g'.death k).1 := by
  have hcontains : g'.world.contains k = g.world.contains k := by
    have hprofile := congrArg Option.isSome (h.world.profile? k)
    unfold World.profile? at hprofile
    rwa [Option.isSome_map, Option.isSome_map] at hprofile
  unfold Engine.death
  rw [hcontains]
  split_ifs
  · exact (h.animate k false).dispelFor k .all .death
  · exact h

theorem remove (h : g.Abreast a g') (k : ActorId) :
    (g.remove k).1.Abreast a (g'.remove k).1 := by
  have hnext : ∀ g : Engine, (g.remove k).1.nextEffect = g.nextEffect := by
    intro g
    unfold Engine.remove
    split <;> rfl
  refine ⟨?_, ?_, ?_, h.fit.act (.remove g k), h.fit'.act (.remove g' k)⟩
  · cases found : g.world.get? k with
    | none =>
      unfold Engine.remove
      rw [found, h.world.get?_eq_none found]
      exact h.toSameBut
    | some c =>
      obtain ⟨b, found', hb⟩ := h.world.exists_get? found
      have hu := upshot_remove h.fit.sound found
      have hu' := upshot_remove h.fit'.sound found'
      rw [h.now] at hu'
      refine h.upshot h.fit.queue h.fit'.queue hu hu' (h.world.remove k) fun hk => ?_
      rw [hb hk]
      exact ⟨rfl, rfl⟩
  · rw [clock_remove, clock_remove, h.clock]
  · rw [hnext, hnext, h.next]

end Abreast

/-! ### Time -/

theorem Fit.fireNext (hg : g.Fit) (hpop : g.queue.pop d = (q, some x)) : (g.fireNext q x).Fit := by
  have hsound : ({ g with queue := q, clock := g.clock.advanceTo x.due } : Engine).Sound := hg.sound
  exact ⟨hsound.steps (steps_fire _ x), sound_fireNext hg.queue hpop⟩

namespace SameBut

/-- A timer of the actor goes unnoticed. -/
theorem fireNext_self (h : g.SameBut a g') (hg' : g'.Fit) (hpop : g'.queue.pop d = (q, some x))
    (hx : x.timer.actor = a) : g.SameBut a (g'.fireNext q x) := by
  obtain ⟨hq, hpending, -⟩ := hg'.queue.pop_some hpop
  have htimers := h.timers
  rw [hpending, besides_cons_self hx] at htimers
  have htaken : g.SameBut a { g' with queue := q, clock := g'.clock.advanceTo x.due } :=
    ⟨h.settings, h.codex, h.world, htimers, h.heard⟩
  have hu := upshot_fire (g := { g' with queue := q, clock := g'.clock.advanceTo x.due })
    hg'.sound x
  rw [hx] at hu
  exact htaken.upshot_self hq hu (h.world.fire_self g'.settings hx)

/-- A timer of another actor comes to the same, whatever its number in the queue. -/
theorem fireNext (h : g.SameBut a g') (hg : g.Fit) (hg' : g'.Fit)
    (hpop : g.queue.pop d = (q, some x)) (hpop' : g'.queue.pop d = (q', some y))
    (hplace : place y = place x) (hx : x.timer.actor ≠ a) :
    (g.fireNext q x).SameBut a (g'.fireNext q' y) := by
  obtain ⟨hq, hpending, -⟩ := hg.queue.pop_some hpop
  obtain ⟨hq', hpending', -⟩ := hg'.queue.pop_some hpop'
  obtain ⟨due, seq, timer⟩ := y
  obtain ⟨rfl, rfl⟩ : due = x.due ∧ timer = x.timer := Prod.mk.inj hplace
  have htimers := h.timers
  rw [hpending, hpending', besides_cons_of_ne hx,
    besides_cons_of_ne (e := ⟨x.due, seq, x.timer⟩) hx] at htimers
  have htaken : SameBut a { g with queue := q, clock := g.clock.advanceTo x.due }
      { g' with queue := q', clock := g'.clock.advanceTo x.due } :=
    ⟨h.settings, h.codex, h.world, (List.cons.inj htimers).2, h.heard⟩
  have hu := upshot_fire (g := { g with queue := q, clock := g.clock.advanceTo x.due }) hg.sound x
  have hu' := upshot_fire (g := { g' with queue := q', clock := g'.clock.advanceTo x.due })
    hg'.sound ⟨x.due, seq, x.timer⟩
  obtain ⟨hanswer, hworld⟩ := h.world.fire g.settings hx
  refine htaken.upshot hq hq' hu hu' ?_ fun _ => ?_
  · simp only [h.settings]
    exact hworld
  · simp only [h.settings, hanswer, and_self]

/-- **Time keeps engines the same but for one actor.**  Timers of the actor may come between those of
the others, which then fire at the same moments in the same order. -/
theorem advanceTo (h : g.SameBut a g') (hg : g.Fit) (hg' : g'.Fit) (hd : d < lastMoment) :
    (g.advanceTo d).1.SameBut a (g'.advanceTo d).1 := by
  -- the induction is on the timers that may still fire on either side: one of the actor fires on its
  -- side alone, and only the timers of the others fire on both
  induction hn : g.queue.allowance d + g'.queue.allowance d using Nat.strong_induction_on
    generalizing g g' with
  | _ n ih =>
  cases hpop : g.queue.pop d with
  | mk q found =>
  cases hpop' : g'.queue.pop d with
  | mk q' found' =>
    by_cases hself : ∃ x, found = some x ∧ x.timer.actor = a
    · obtain ⟨x, rfl, hx⟩ := hself
      have hlt := allowance_fireNext_lt hg.queue hpop hd
      rw [advanceTo_of_some hg.queue hd hpop]
      exact ih _ (by omega) (h.symm.fireNext_self hg hpop hx).symm (hg.fireNext hpop) hg' rfl
    by_cases hself' : ∃ x, found' = some x ∧ x.timer.actor = a
    · obtain ⟨x, rfl, hx⟩ := hself'
      have hlt := allowance_fireNext_lt hg'.queue hpop' hd
      rw [advanceTo_of_some hg'.queue hd hpop']
      exact ih _ (by omega) (h.fireNext_self hg' hpop' hx) hg (hg'.fireNext hpop') rfl
    -- now both queues give out the same timer or none
    have hfound := besides_pop hg.queue hpop fun x hx ha => hself ⟨x, hx, ha⟩
    have hfound' := besides_pop hg'.queue hpop' fun x hx ha => hself' ⟨x, hx, ha⟩
    rw [h.timers, ← hfound] at hfound'
    cases found with
    | none =>
      rw [Option.map_eq_none_iff.1 hfound'] at hpop'
      rw [advanceTo_of_none hpop, advanceTo_of_none hpop']
      exact ⟨h.settings, h.codex, h.world, h.timers, h.heard⟩
    | some x =>
      obtain ⟨y, rfl, hplace⟩ := Option.map_eq_some_iff.1 hfound'
      have hlt := allowance_fireNext_lt hg.queue hpop hd
      have hlt' := allowance_fireNext_lt hg'.queue hpop' hd
      have hx : x.timer.actor ≠ a := fun ha => hself ⟨x, rfl, ha⟩
      rw [advanceTo_of_some hg.queue hd hpop, advanceTo_of_some hg'.queue hd hpop']
      exact ih _ (by omega) (h.fireNext hg hg' hpop hpop' hplace hx) (hg.fireNext hpop)
        (hg'.fireNext hpop') rfl

end SameBut

namespace Abreast

theorem advanceTo (h : g.Abreast a g') (hd : d < lastMoment) :
    (g.advanceTo d).1.Abreast a (g'.advanceTo d).1 where
  toSameBut := h.toSameBut.advanceTo h.fit h.fit' hd
  clock := by rw [clock_advanceTo h.fit.queue hd, clock_advanceTo h.fit'.queue hd, h.clock]
  next := (nextEffect_fireAll g' d 0 _).trans (h.next.trans (nextEffect_fireAll g d 0 _).symm)
  fit := h.fit.acts (acts_advanceTo g d)
  fit' := h.fit'.acts (acts_advanceTo g' d)

/-- The effects of another actor, with the time that is left of them. -/
theorem effects (h : g.Abreast a g') (hk : k ≠ a) : g'.effects k = g.effects k := by
  have hcounted : ∀ s : Summary, g'.counted k s = g.counted k s := by
    intro s
    have hexpiry := expiryOf_of_besides h.fit.queue h.fit'.queue h.timers (k := (k, s.id)) hk
    unfold counted unitsUntil
    rw [hexpiry, h.settings, h.now]
  unfold Engine.effects
  rw [h.world.get?_of_ne hk, funext hcounted]

end Abreast

theorem Fit.spawns {α : Type} (hg : g.Fit) (profile : α → Profile) (ps : List α) :
    (ps.foldl (fun g p => g.spawn (profile p)) g).Fit := by
  induction ps generalizing g with
  | nil => exact hg
  | cons p rest ih => exact ih (hg.act (.spawn g (profile p)))

end Engine

/-! ### Replays -/

/-- The actor whose effects a step is to remove. -/
def Step.relieved? : Step → Option ActorId
  | .dispel actor _ | .cancel _ actor _ | .cleanse actor _ => some actor
  | .cast .. | .kill _ | .remove _ | .wait _ => none

namespace Service

variable {s s' : Service} {a : ActorId} {step : Step}

/-- **A step of both keeps services abreast.** -/
theorem abreast_step (hs : s.Virtual) (hs' : s'.Virtual) (h : s.engine.Abreast a s'.engine)
    (step : Step) (hwait : s.engine.now + step.waited < lastMoment) :
    (s.step step).1.engine.Abreast a (s'.step step).1.engine := by
  cases step with
  | wait ms =>
    have hwait' : s'.engine.now + ms.toNat < lastMoment := h.now.symm ▸ hwait
    rw [hs.wait_eq hwait, hs'.wait_eq hwait', h.now]
    exact h.advanceTo hwait
  | cast caster target skill level enchant =>
    rw [hs.engine_step, hs'.engine_step]
    exact h.applySkill caster target _
  | dispel actor selector =>
    rw [hs.engine_step, hs'.engine_step]
    exact h.dispelFor actor selector .cleanse
  | cancel requester actor skill =>
    rw [hs.engine_step, hs'.engine_step]
    exact h.cancelBuff requester actor skill
  | cleanse actor group =>
    rw [hs.engine_step, hs'.engine_step]
    exact h.dispelFor actor (.abnormal group) .cleanse
  | kill actor =>
    rw [hs.engine_step, hs'.engine_step]
    exact h.death actor
  | remove actor =>
    rw [hs.engine_step, hs'.engine_step]
    exact h.remove actor

theorem abreast_steps (hs : s.Virtual) (hs' : s'.Virtual) (h : s.engine.Abreast a s'.engine)
    (steps : List Step) (hwait : s.engine.now + waited steps < lastMoment) :
    (s.steps steps).1.engine.Abreast a (s'.steps steps).1.engine := by
  induction steps generalizing s s' with
  | nil => exact h
  | cons step rest ih =>
    rw [waited_cons] at hwait
    obtain ⟨hfirst, hnow⟩ := hs.step step (by omega)
    obtain ⟨hfirst', -⟩ := hs'.step step (by rw [h.now]; omega)
    have hrest : (s.step step).1.engine.now + waited rest < lastMoment := by omega
    exact ih hfirst hfirst' (abreast_step hs hs' h step (by omega)) hrest

/-- **A removal that is aimed at the actor may be left out.** -/
theorem abreast_relieved (hs : s.Virtual) (h : s.engine.Fit) (haim : step.relieved? = some a) :
    s.engine.Abreast a (s.step step).1.engine := by
  have hsame := Engine.Abreast.refl a h
  rw [hs.engine_step]
  cases step with
  | dispel actor selector =>
    obtain rfl := Option.some.inj haim
    exact hsame.dispelFor_self selector .cleanse
  | cancel requester actor skill =>
    obtain rfl := Option.some.inj haim
    exact hsame.cancelBuff_self requester skill
  | cleanse actor group =>
    obtain rfl := Option.some.inj haim
    exact hsame.dispelFor_self (.abnormal group) .cleanse
  | cast | kill | remove | wait => cases haim

theorem fit_build {c : Config} {codex : Codex} {roster : List Profile}
    (h : build c (some codex) {} roster = .ok s) : s.engine.Fit := by
  simp only [build] at h
  split at h
  · cases h
  · cases h
    have hempty : ({ settings := c.settings, codex, feed := .ofCapacity c.eventBuffer.toNat } :
        Engine).Fit := ⟨(by intro _ _ hb; cases hb), TimerQueue.sound_empty⟩
    exact hempty.spawns id roster

/-- **Actors are isolated.**  Take any scenario, replayed without workers and without waiting until
the end of time, and leave out a step that is to remove effects of one actor.  Then the events that
are published about all the other actors are the same, at the same moments and in the same order,
and so are the effects and the status of each of them in the end. -/
theorem isolation_replay {c : Config} {codex : Codex} {roster : List Profile}
    (hbuild : build c (some codex) {} roster = .ok s) (hworkers : c.workers = 0) (name : String)
    (actors : List CastMember) (before after : List Step) (haim : step.relieved? = some a)
    (hwait : waited (before ++ step :: after) < lastMoment) :
    let g := (s.replay ⟨name, actors, before ++ step :: after⟩).1.engine
    let g' := (s.replay ⟨name, actors, before ++ after⟩).1.engine
    g'.heard a = g.heard a ∧ ∀ b, b ≠ a →
      g'.told b = g.told b ∧ g'.effects b = g.effects b ∧ g'.status b = g.status b := by
  intro g g'
  obtain ⟨hs, hnow⟩ := virtual_build hbuild hworkers
  obtain ⟨hcast, hnow'⟩ := hs.cast actors
  rw [waited_append, waited_cons] at hwait
  obtain ⟨hbefore, hmoment⟩ := hcast.steps before (by omega)
  obtain ⟨hstep, hmoment'⟩ := hbefore.step step (by omega)
  have hfit : (s.cast actors).engine.Fit := (fit_build hbuild).spawns CastMember.profile actors
  -- both replays are one up to the step, and go abreast from there on
  have hsame := abreast_steps hcast hcast (.refl a hfit) before (by omega)
  have habreast := abreast_relieved hbefore hsame.fit haim
  have hafter := abreast_steps hbefore hstep habreast after (by omega)
  have hg : g = ((((s.cast actors).steps before).1.step step).1.steps after).1.engine := by
    simp only [g, replay, steps_append, Service.steps]
  have hg' : g' = (((s.cast actors).steps before).1.steps after).1.engine := by
    simp only [g', replay, steps_append]
  rw [← hg, ← hg'] at hafter
  exact ⟨hafter.heard.symm, fun b hb => ⟨(hafter.told hb).symm, (hafter.effects hb).symm,
    (hafter.status hb).symm⟩⟩

open Engine in
/-- One of two actors that are held is cleansed, so that its next hold starts anew and is not a
renewal; the other goes on to tick and gets its haste under the same key. -/
theorem isolation_replay_hold :
    let c : Config := { workers := 0 }
    let cast (k : ActorId) (skill : SkillId) : Step := .cast k k skill 1 0
    let before := [cast ⟨1⟩ ⟨2⟩, cast ⟨2⟩ ⟨2⟩]
    let after := [.wait 700, cast ⟨1⟩ ⟨2⟩, cast ⟨2⟩ ⟨1⟩, .wait 500]
    let step : Step := .dispel ⟨1⟩ .all
    step.relieved? = some ⟨1⟩ ∧ waited (before ++ step :: after) < lastMoment ∧
    ∃ s, build c (some trialCodex) {} [{ id := ⟨1⟩ }, { id := ⟨2⟩ }] = .ok s ∧
      let g := (s.replay ⟨"holds", [], before ++ step :: after⟩).1.engine
      let g' := (s.replay ⟨"holds", [], before ++ after⟩).1.engine
      g'.told ⟨1⟩ ≠ g.told ⟨1⟩ ∧ g'.told ⟨2⟩ = g.told ⟨2⟩ ∧
        (g.told ⟨2⟩).map (fun n => (n.event.effect.id.val, n.event.label)) =
          [(2, "started"), (2, "ticked"), (4, "started"), (4, "ended"), (5, "started"),
            (2, "ticked")] ∧
        g'.effects ⟨2⟩ = g.effects ⟨2⟩ ∧ g'.status ⟨2⟩ = g.status ⟨2⟩ := by
  intro c cast before after step
  have hwait : waited (before ++ step :: after) < lastMoment := by decide
  obtain ⟨-, hothers⟩ := @isolation_replay _ ⟨1⟩ step c trialCodex [{ id := ⟨1⟩ }, { id := ⟨2⟩ }]
    rfl rfl "holds" [] before after rfl hwait
  obtain ⟨htold, heffects, hstatus⟩ := hothers ⟨2⟩ (by decide)
  refine ⟨rfl, hwait, _, rfl, ?_, htold, ?_, heffects, hstatus⟩
  · decide +kernel
  · decide +kernel

end Service

end StatusEffects
