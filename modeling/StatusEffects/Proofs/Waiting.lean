import StatusEffects.Proofs.Prepared
import StatusEffects.Replay

/-!
# Waiting in a replay

A service without workers waits by advancing its engine, whose clock is moved by hand and shows in
the end for how long the steps of the scenario have waited.  A wait may therefore be split in two:
the engine is advanced to the same moment in two slices.

## Main definitions

* `Step.waited`, `waited` : how long steps wait.
* `Step.op` : the request of an engine that a step is without workers.
* `Service.Virtual` : a service without workers over a clock moved by hand.

## Main statements

* `Service.exists_run_replay` : a replay without workers is a run.
* `Service.Virtual.steps` : steps keep a service virtual and move its clock as far as they wait.
* `Service.Virtual.wait_split` : waiting twice is waiting once.
* `Service.time_slices` : time slices of engines, and split waits in replays.
-/

namespace StatusEffects

/-- The milliseconds that a step waits. -/
def Step.waited : Step → Nat
  | .wait ms => ms.toNat
  | _ => 0

/-- The milliseconds that steps wait in all. -/
def waited (steps : List Step) : Nat := (steps.map Step.waited).sum

theorem waited_cons (step : Step) (rest : List Step) :
    waited (step :: rest) = step.waited + waited rest := rfl

theorem waited_append (steps others : List Step) :
    waited (steps ++ others) = waited steps + waited others := by
  simp [waited]

/-- The request that a step is without workers, when the clock shows `now`. -/
def Step.op (now : Nat) : Step → Engine.Op
  | .cast caster target skill level enchant =>
    .applySkill caster target (.ofCombined skill level enchant)
  | .dispel actor selector => .dispel actor selector
  | .cancel requester actor skill => .cancelBuff requester actor skill
  | .cleanse actor group => .dispel actor (.abnormal group)
  | .kill actor => .death actor
  | .remove actor => .remove actor
  | .wait ms => .advanceTo (.ofNat (later now ms.toNat))

namespace Engine

/-! ### The clock -/

theorem clock_applyTemplate (g : Engine) (t : Template) (r : Request) :
    (g.applyTemplate t r).1.clock = g.clock :=
  (congrArg Engine.clock (frame_applyTemplate g t r)).trans rfl

theorem clock_applyEach (g : Engine) (caster target : ActorId) (skill : Skill)
    (ts : List Template) : (g.applyEach caster target skill ts).1.clock = g.clock := by
  induction ts generalizing g with
  | nil => rfl
  | cons t rest ih => exact (ih _).trans (clock_applyTemplate g t _)

theorem clock_dispelFor (g : Engine) (actor : ActorId) (selector : Selector) (cause : Cause) :
    (g.dispelFor actor selector cause).1.clock = g.clock := by
  simp only [dispelFor]
  split <;> rfl

theorem clock_cancelBuff (g : Engine) (requester actor : ActorId) (skill : SkillId) :
    (g.cancelBuff requester actor skill).1.clock = g.clock := by
  simp only [cancelBuff]
  split_ifs
  · exact clock_dispelFor g actor _ _
  · rfl

theorem clock_death (g : Engine) (actor : ActorId) : (g.death actor).1.clock = g.clock := by
  simp only [death]
  split_ifs
  · exact clock_dispelFor _ actor _ _
  · rfl

theorem clock_remove (g : Engine) (actor : ActorId) : (g.remove actor).1.clock = g.clock := by
  simp only [remove]
  split <;> rfl

/-- Actors that enter the world touch neither clock nor queue. -/
theorem frame_spawns {α : Type} (g : Engine) (profile : α → Profile) (ps : List α) :
    (ps.foldl (fun g p => g.spawn (profile p)) g).clock = g.clock ∧
      (ps.foldl (fun g p => g.spawn (profile p)) g).queue = g.queue := by
  induction ps generalizing g with
  | nil => exact ⟨rfl, rfl⟩
  | cons p rest ih => exact ih (g.spawn (profile p))

end Engine

namespace Service

variable {s : Service} {a b w : UInt64}

/-- A service without workers over a clock moved by hand. -/
structure Virtual (s : Service) : Prop where
  idle : s.workers = []
  manual : s.engine.clock.manual = true
  queue : s.engine.queue.Sound

theorem round_eq (h : s.workers = []) : s.round = s := by
  cases s
  cases h
  rfl

theorem idle_act (h : s.workers = []) (step : Step) : (s.act step).1.workers = [] := by
  cases step with
  | wait ms =>
    simp only [act, wait, h, List.isEmpty_nil, if_true]
    exact h
  | _ => exact h

/-- Without workers a wait is an advance. -/
theorem step_wait (h : s.workers = []) (w : UInt64) :
    let d := later s.engine.now w.toNat
    s.step (.wait w) =
      ({ s with engine := (s.engine.advanceTo d).1 }, [.advanced w (s.engine.advanceTo d).2]) := by
  intro d
  simp only [Service.step, act, wait, h, List.isEmpty_nil, if_true, ask]
  rw [round_eq]
  rfl

theorem idle_steps (h : s.workers = []) (steps : List Step) : (s.steps steps).1.workers = [] := by
  induction steps generalizing s with
  | nil => exact h
  | cons step rest ih =>
    have hstep : (s.step step).1 = (s.act step).1 := round_eq (idle_act h step)
    exact ih (s := (s.step step).1) (hstep ▸ idle_act h step)

/-- What a step does to the engine falls apart into acts. -/
theorem acts_act (h : s.workers = []) (step : Step) :
    Engine.Acts (s.engine, []) ((s.act step).1.engine, []) := by
  cases step with
  | cast caster target skill level enchant =>
    exact Engine.acts_applyEach s.engine caster target _ _ fun t ht => List.mem_of_mem_filter ht
  | dispel actor selector => exact Engine.acts_dispelFor s.engine actor selector .cleanse
  | cancel requester actor skill => exact Engine.acts_cancelBuff s.engine requester actor skill
  | cleanse actor group => exact Engine.acts_dispelFor s.engine actor (.abnormal group) .cleanse
  | kill actor => exact Engine.acts_death s.engine actor
  | remove actor => exact .single (.remove s.engine actor)
  | wait ms =>
    simp only [act, wait, h, List.isEmpty_nil, if_true]
    exact Engine.acts_advanceTo s.engine _

namespace Virtual

theorem wait_eq (hs : s.Virtual) (h : s.engine.now + w.toNat < lastMoment) :
    s.step (.wait w) =
      ({ s with engine := (s.engine.advanceTo (s.engine.now + w.toNat)).1 },
        [.advanced w (s.engine.advanceTo (s.engine.now + w.toNat)).2]) := by
  rw [step_wait hs.idle, later_eq_add (Nat.le_of_lt h)]

/-- The workers that there are not have no turn after a step. -/
theorem engine_step (hs : s.Virtual) (step : Step) :
    (s.step step).1.engine = (s.act step).1.engine :=
  congrArg Service.engine (round_eq (idle_act hs.idle step))

/-- **The clock shows how long has been waited.** -/
theorem step (hs : s.Virtual) (step : Step) (h : s.engine.now + step.waited < lastMoment) :
    (s.step step).1.Virtual ∧ (s.step step).1.engine.now = s.engine.now + step.waited := by
  have hidle := idle_act hs.idle step
  have hqueue := Engine.sound_queue_acts hs.queue (acts_act hs.idle step)
  have hclock : (s.act step).1.engine.clock =
      ⟨s.engine.clock.now + step.waited, s.engine.clock.manual⟩ := by
    cases step with
    | wait ms =>
      have hlater := later_eq_add (Nat.le_of_lt h)
      have hset : s.engine.clock.advanceTo (s.engine.now + ms.toNat) =
          ⟨s.engine.clock.now + ms.toNat, s.engine.clock.manual⟩ := by
        simp [Clock.advanceTo, hs.manual, Engine.now]
      simp only [Step.waited] at hlater h
      simp only [act, wait, hs.idle, List.isEmpty_nil, if_true, ask, hlater]
      rw [Engine.clock_advanceTo hs.queue h]
      exact hset
    | cast => exact Engine.clock_applyEach _ _ _ _ _
    | dispel | cleanse => exact Engine.clock_dispelFor _ _ _ _
    | cancel => exact Engine.clock_cancelBuff _ _ _ _
    | kill => exact Engine.clock_death _ _
    | remove => exact Engine.clock_remove _ _
  have hstep : (s.step step).1 = (s.act step).1 := round_eq hidle
  rw [hstep]
  refine ⟨⟨hidle, ?_, hqueue⟩, ?_⟩
  · rw [hclock]
    exact hs.manual
  · rw [Engine.now, hclock, Engine.now]

theorem steps (hs : s.Virtual) (steps : List Step)
    (h : s.engine.now + waited steps < lastMoment) :
    (s.steps steps).1.Virtual ∧ (s.steps steps).1.engine.now = s.engine.now + waited steps := by
  induction steps generalizing s with
  | nil => exact ⟨hs, rfl⟩
  | cons step rest ih =>
    rw [waited_cons] at h
    obtain ⟨hvirtual, hnow⟩ := hs.step step (by omega)
    obtain ⟨hvirtual', hnow'⟩ := ih hvirtual (by omega)
    refine ⟨hvirtual', ?_⟩
    simp only [Service.steps, hnow', hnow, waited_cons]
    omega

/-- **A wait may be split in two.** -/
theorem wait_split (hs : s.Virtual) (hw : w.toNat = a.toNat + b.toNat)
    (h : s.engine.now + w.toNat < lastMoment) :
    ∃ m n, (s.step (.wait a)).2 = [.advanced a m] ∧
      ((s.step (.wait a)).1.step (.wait b)).2 = [.advanced b n] ∧
      s.step (.wait w) = (((s.step (.wait a)).1.step (.wait b)).1, [.advanced w (m + n)]) := by
  have ha : s.engine.now + a.toNat < lastMoment := by omega
  obtain ⟨hvirtual, hnow⟩ := hs.step (.wait a) ha
  have hb : (s.step (.wait a)).1.engine.now + b.toNat = s.engine.now + w.toNat := by
    rw [hnow, Step.waited, hw, Nat.add_assoc]
  have hfirst := hs.wait_eq ha
  have hsecond := hvirtual.wait_eq (w := b) (by rwa [hb])
  rw [hb] at hsecond
  obtain ⟨hengine, hcount⟩ := Engine.advanceTo_advanceTo (a := s.engine.now + a.toNat)
    hs.queue (by omega) h
  have hadvanced : (s.step (.wait a)).1.engine =
      (s.engine.advanceTo (s.engine.now + a.toNat)).1 := by rw [hfirst]
  rw [hadvanced] at hsecond
  refine ⟨_, _, by rw [hfirst], by rw [hsecond], ?_⟩
  rw [hs.wait_eq h, hsecond, hengine, hcount, hfirst]

end Virtual

theorem steps_append (s : Service) (steps others : List Step) :
    s.steps (steps ++ others) =
      (((s.steps steps).1.steps others).1,
        (s.steps steps).2 ++ ((s.steps steps).1.steps others).2) := by
  induction steps generalizing s with
  | nil => rfl
  | cons step rest ih =>
    simp only [List.cons_append, Service.steps, ih, List.append_assoc]

/-! ### Replays as runs -/

theorem engine_act (h : s.workers = []) (step : Step) :
    (s.act step).1.engine = s.engine.perform (step.op s.engine.now) := by
  cases step with
  | wait ms =>
    have hsize : later s.engine.now ms.toNat < UInt64.size :=
      Nat.lt_of_le_of_lt (later_le_lastMoment _ _) (by decide)
    simp only [act, wait, h, List.isEmpty_nil, if_true, Step.op, Engine.perform,
      UInt64.toNat_ofNat_of_lt' hsize]
    rfl
  | _ => rfl

/-- **The steps of a scenario are a run**, in which the clock is moved by waiting only. -/
theorem exists_run_steps (h : s.workers = []) (steps : List Step) :
    ∃ ops, (s.steps steps).1.engine = s.engine.run ops ∧ ∀ moment, .setClock moment ∉ ops := by
  induction steps generalizing s with
  | nil => exact ⟨[], rfl, fun _ => List.not_mem_nil⟩
  | cons step rest ih =>
    have hidle := idle_act h step
    have hstep : (s.step step).1 = (s.act step).1 := round_eq hidle
    obtain ⟨ops, hrun, hclock⟩ := ih (s := (s.step step).1) (hstep ▸ hidle)
    refine ⟨step.op s.engine.now :: ops, ?_, fun moment hmem => ?_⟩
    · simp only [Service.steps, hrun]
      rw [hstep, engine_act h]
      rfl
    · rcases List.mem_cons.1 hmem with hop | hmem
      · cases step <;> cases hop
      · exact hclock moment hmem

/-- The actors of a scenario enter the world one after the other. -/
theorem engine_cast (s : Service) (actors : List CastMember) :
    (s.cast actors).engine = s.engine.run (actors.map fun m => .spawn m.profile) := by
  simp only [Service.cast, Engine.run, List.foldl_map]
  rfl

theorem exists_run_replay (h : s.workers = []) (sc : Scenario) :
    ∃ ops, (s.replay sc).1.engine = s.engine.run ops ∧ ∀ moment, .setClock moment ∉ ops := by
  obtain ⟨ops, hrun, hclock⟩ := exists_run_steps (s := s.cast sc.actors) h sc.steps
  rw [engine_cast, ← Engine.run_append] at hrun
  refine ⟨_, hrun, fun moment hmem => ?_⟩
  rcases List.mem_append.1 hmem with hmem | hmem
  · obtain ⟨m, -, hm⟩ := List.mem_map.1 hmem
    cases hm
  · exact hclock moment hmem

/-- A service is built over a run in which its actors enter the world. -/
theorem engine_build {c : Config} {codex : Codex} {start : UInt64} {roster : List Profile}
    (h : build c (some codex) ⟨start.toNat, true⟩ roster = .ok s) :
    s.engine = (Engine.opened c.settings codex start true c.eventBuffer.toNat).run
        (roster.map .spawn) ∧ (c.workers = 0 → s.workers = []) := by
  simp only [build] at h
  split at h
  · cases h
  · cases h
    refine ⟨?_, fun hc => by simp [hc]⟩
    simp only [engineOf, Engine.run, List.foldl_map]
    rfl

/-! ### Replays -/

theorem Virtual.cast (hs : s.Virtual) (actors : List CastMember) :
    (s.cast actors).Virtual ∧ (s.cast actors).engine.now = s.engine.now := by
  obtain ⟨hclock, hqueue⟩ := s.engine.frame_spawns CastMember.profile actors
  refine ⟨⟨hs.idle, ?_, ?_⟩, ?_⟩
  · simp only [Service.cast, hclock]
    exact hs.manual
  · simp only [Service.cast, hqueue]
    exact hs.queue
  · simp only [Service.cast, Engine.now, hclock]

/-- A service that is built without workers over a fresh clock is virtual. -/
theorem virtual_build {c : Config} {codex : Codex} {roster : List Profile}
    (h : build c (some codex) {} roster = .ok s) (hc : c.workers = 0) :
    s.Virtual ∧ s.engine.now = 0 := by
  simp only [build] at h
  split at h
  · cases h
  · cases h
    obtain ⟨hclock, hqueue⟩ : (engineOf c codex {} roster).clock = {} ∧
        (engineOf c codex {} roster).queue = {} := Engine.frame_spawns _ id roster
    refine ⟨⟨?_, ?_, ?_⟩, ?_⟩
    · simp [hc]
    · simp only [hclock]
    · simp only [hqueue]
      exact TimerQueue.sound_empty
    · simp only [Engine.now, hclock]

/-- A replay in which one wait is split ends as the other does, and its notes differ in nothing but
the number of steps and the split wait. -/
theorem Virtual.replay_split (hs : s.Virtual) (name : String) (actors : List CastMember)
    (before after : List Step) (hw : w.toNat = a.toNat + b.toNat)
    (h : s.engine.now + waited (before ++ .wait w :: after) < lastMoment) :
    let whole := s.replay ⟨name, actors, before ++ .wait w :: after⟩
    let split := s.replay ⟨name, actors, before ++ .wait a :: .wait b :: after⟩
    split.1 = whole.1 ∧ ∃ earlier m n later,
      whole.2 = .begins name actors.length (before.length + (after.length + 1)) ::
        (earlier ++ .advanced w (m + n) :: later) ∧
      split.2 = .begins name actors.length (before.length + (after.length + 2)) ::
        (earlier ++ .advanced a m :: .advanced b n :: later) := by
  intro whole split
  obtain ⟨hcast, hnow⟩ := hs.cast actors
  rw [waited_append, waited_cons] at h
  obtain ⟨hbefore, hnow'⟩ := hcast.steps before (by omega)
  have hwait : ((s.cast actors).steps before).1.engine.now + w.toNat < lastMoment := by
    rw [hnow', hnow]
    simp only [Step.waited] at h
    omega
  obtain ⟨m, n, hfirst, hsecond, hwhole⟩ := hbefore.wait_split hw hwait
  have hsplit : split.1 = whole.1 := by
    simp only [whole, split, replay, steps_append, Service.steps, hwhole]
  refine ⟨hsplit, ((s.cast actors).steps before).2, m, n,
    ((((s.cast actors).steps before).1.step (.wait w)).1.steps after).2, ?_, ?_⟩
  · simp only [whole, replay, steps_append, Service.steps, hwhole, List.length_append,
      List.length_cons, List.singleton_append]
  · simp only [split, replay, steps_append, Service.steps, hwhole, hfirst, hsecond,
      List.length_append, List.length_cons, List.singleton_append]

/-- **Time slices do not matter.**  After every run of an engine over a clock moved by hand,
advancing it to a moment and then to a later one gives the same engine as advancing it to the later
one at once, with everything it has published, what its queue holds and in which order, and what its
clock shows; and the timers fired in the two slices add up.  A replay without workers that does not
wait until the end of time may therefore have any of its waits split in two. -/
theorem time_slices :
    (∀ (settings : Settings) (codex : Codex) (start : UInt64) (capacity : Nat)
      (ops : List Engine.Op) (a b : Nat), a ≤ b → b < lastMoment →
      let g := (Engine.opened settings codex start true capacity).run ops
      ((g.advanceTo a).1.advanceTo b).1 = (g.advanceTo b).1 ∧
        (g.advanceTo a).2 + ((g.advanceTo a).1.advanceTo b).2 = (g.advanceTo b).2) ∧
    ∀ (c : Config) (codex : Codex) (roster : List Profile) (s : Service) (name : String)
      (actors : List CastMember) (before after : List Step) (a b w : UInt64),
      build c (some codex) {} roster = .ok s → c.workers = 0 → w.toNat = a.toNat + b.toNat →
      waited (before ++ .wait w :: after) < lastMoment →
      let whole := s.replay ⟨name, actors, before ++ .wait w :: after⟩
      let split := s.replay ⟨name, actors, before ++ .wait a :: .wait b :: after⟩
      split.1 = whole.1 ∧ ∃ earlier m n later,
        whole.2 = .begins name actors.length (before.length + (after.length + 1)) ::
          (earlier ++ .advanced w (m + n) :: later) ∧
        split.2 = .begins name actors.length (before.length + (after.length + 2)) ::
          (earlier ++ .advanced a m :: .advanced b n :: later) := by
  constructor
  · intro settings codex start capacity ops a b hab hb
    have ht := Engine.timed_run settings codex start true capacity ops
    exact Engine.advanceTo_advanceTo ht.queue hab hb
  · intro c codex roster s name actors before after a b w hbuild hworkers hw h
    obtain ⟨hs, hnow⟩ := virtual_build hbuild hworkers
    exact hs.replay_split name actors before after hw (by rwa [hnow, Nat.zero_add])

open Engine in
/-- A hold ticks once before the cut and once after it. -/
theorem time_slices_hold :
    let g := (opened {} trialCodex 0 true 1).run [.enter 1, .cast 1 3]
    let c : Config := { workers := 0 }
    let hold : Step := .cast ⟨1⟩ ⟨1⟩ ⟨2⟩ 1 0
    ((g.advanceTo 700).1.advanceTo 1200).1 = (g.advanceTo 1200).1 ∧
      (g.advanceTo 700).2 = 1 ∧ ((g.advanceTo 700).1.advanceTo 1200).2 = 1 ∧
      (g.advanceTo 1200).2 = 2 ∧
      ∃ s, build c (some trialCodex) {} [{ id := ⟨1⟩ }] = .ok s ∧
        waited [hold, .wait 1200] < lastMoment ∧
        (s.replay ⟨"hold", [], [hold, .wait 700, .wait 500]⟩).1 =
          (s.replay ⟨"hold", [], [hold, .wait 1200]⟩).1 := by
  intro g c hold
  obtain ⟨hengine, hcount⟩ :=
    time_slices.1 {} trialCodex 0 1 [.enter 1, .cast 1 3] 700 1200 (by decide) (by decide)
  have hfirst : (g.advanceTo 700).2 = 1 := by decide +kernel
  have hboth : (g.advanceTo 1200).2 = 2 := by decide +kernel
  have hsecond : ((g.advanceTo 700).1.advanceTo 1200).2 = 1 :=
    Nat.add_left_cancel ((hcount.trans hboth).trans (congrArg (· + 1) hfirst.symm))
  have hwaited : waited ([hold] ++ .wait 1200 :: []) < lastMoment := by decide
  have hreplay := time_slices.2 c trialCodex [{ id := ⟨1⟩ }] _ "hold" [] [hold] [] 700 500 1200
    rfl rfl (by decide) hwaited
  exact ⟨hengine, hfirst, hsecond, hboth, _, rfl, hwaited, hreplay.1⟩

end Service

end StatusEffects
