import StatusEffects.Engine.Apply
import StatusEffects.Engine.Removal
import StatusEffects.Engine.Timers
import StatusEffects.Proofs.Queue
import StatusEffects.Proofs.World
import Mathlib.Logic.Relation

/-!
# Runs of an engine

An engine starts over an empty world and is then given one request after the other.  Requests fall
apart into acts: each of them changes what one actor bears, or the world, the clock or the queue.
Timers that are due are taken out of the queue in one act and fired in another, so that between the
two they are in neither the queue nor the past.

## Main definitions

* `Engine.Op`, `Engine.perform`, `Engine.run` : requests, and runs of them.
* `Engine.opened` : an engine over an empty world.
* `Engine.Act`, `Engine.Acts` : acts on an engine and the timers taken out of its queue.

## Main statements

* `Engine.acts_run` : a run is a chain of acts that leaves no timer between queue and past.
-/

namespace StatusEffects

namespace Engine

/-- What an engine can be asked for. -/
inductive Op where
  /-- An actor enters the world, or gets another profile. -/
  | spawn (p : Profile)
  /-- It becomes known or unknown where the actors are. -/
  | locate (ready : Bool)
  | apply (r : Request)
  | applySkill (caster target : ActorId) (skill : Skill)
  | dispel (actor : ActorId) (selector : Selector)
  | cancelBuff (requester actor : ActorId) (skill : SkillId)
  | death (actor : ActorId)
  | revive (actor : ActorId)
  | remove (actor : ActorId)
  /-- A clock moved by hand is set forward. -/
  | setClock (moment : UInt64)
  /-- Time passes for a clock that follows it. -/
  | pass (ms : UInt64)
  | advanceTo (deadline : UInt64)
  | drainDue (max : UInt64)

/-- The engine after a request. -/
def perform (g : Engine) : Op → Engine
  | .spawn p => g.spawn p
  | .locate ready => { g with world := { g.world with spatialReady := ready } }
  | .apply r => (g.apply r).1
  | .applySkill caster target skill => (g.applySkill caster target skill).1
  | .dispel actor selector => (g.dispel actor selector).1
  | .cancelBuff requester actor skill => (g.cancelBuff requester actor skill).1
  | .death actor => (g.death actor).1
  | .revive actor => (g.revive actor).1
  | .remove actor => (g.remove actor).1
  | .setClock moment => { g with clock := g.clock.advanceTo moment.toNat }
  | .pass ms => { g with clock := g.clock.pass ms.toNat }
  | .advanceTo deadline => (g.advanceTo deadline.toNat).1
  | .drainDue max => (g.drainDue max.toNat).1

/-- The engine after a list of requests. -/
def run (g : Engine) (ops : List Op) : Engine := ops.foldl perform g

theorem run_append (g : Engine) (ops others : List Op) :
    g.run (ops ++ others) = (g.run ops).run others :=
  List.foldl_append

/-- An engine over an empty world. -/
def opened (settings : Settings) (codex : Codex) (start : UInt64) (manual : Bool)
    (capacity : Nat) : Engine where
  settings
  codex
  clock := ⟨start.toNat, manual⟩
  feed := .ofCapacity capacity

/-! ### Acts -/

/-- Acts on an engine and the timers that have been taken out of its queue and are yet to be
fired. -/
inductive Act : Engine × List Entry → Engine × List Entry → Prop
  | spawn (g : Engine) (p : Profile) : Act (g, []) (g.spawn p, [])
  | locate (g : Engine) (ready : Bool) :
      Act (g, []) ({ g with world := { g.world with spatialReady := ready } }, [])
  | receive (g : Engine) (t : Template) (r : Request) (known : t ∈ g.codex.templates) :
      Act (g, []) ((g.applyTemplate t r).1, [])
  | dispel (g : Engine) (actor : ActorId) (selector : Selector) (cause : Cause) :
      Act (g, []) ((g.dispelFor actor selector cause).1, [])
  /-- An actor dies or comes back to life. -/
  | animate (g : Engine) (actor : ActorId) (alive : Bool) :
      Act (g, [])
        ({ g with world := g.world.modifyProfile actor fun p => { p with alive := alive } }, [])
  | remove (g : Engine) (actor : ActorId) : Act (g, []) ((g.remove actor).1, [])
  /-- A clock moved by hand is set forward. -/
  | setClock (g : Engine) (taken : List Entry) (moment : Nat) :
      Act (g, taken) ({ g with clock := g.clock.advanceTo moment }, taken)
  /-- Time passes for a clock that follows it. -/
  | pass (g : Engine) (ms : Nat) : Act (g, []) ({ g with clock := g.clock.pass ms }, [])
  /-- Dead timers are passed over. -/
  | sweep (g : Engine) (taken : List Entry) :
      Act (g, taken) ({ g with queue := g.queue.skipDead }, taken)
  /-- A timer is taken out of the queue. -/
  | take (g : Engine) (taken : List Entry) {now : Nat} {queue : TimerQueue} {e : Entry}
      (due : g.queue.pop now = (queue, some e)) :
      Act (g, taken) ({ g with queue }, taken ++ [e])
  /-- The timer taken out first is fired. -/
  | fire (g : Engine) (e : Entry) (taken : List Entry) : Act (g, e :: taken) (g.fire e, taken)

/-- Chains of acts. -/
abbrev Acts : Engine × List Entry → Engine × List Entry → Prop := Relation.ReflTransGen Act

theorem acts_dispelFor (g : Engine) (actor : ActorId) (selector : Selector) (cause : Cause) :
    Acts (g, []) ((g.dispelFor actor selector cause).1, []) :=
  .single (.dispel g actor selector cause)

/-! ### Requests as chains of acts -/

section Apply

/-- A template is applied without a change of the clock, the settings and the codex, and no timer
is counted. -/
theorem frame_applyTemplate (g : Engine) (t : Template) (r : Request) :
    let g' := (g.applyTemplate t r).1
    g' = { g with
      nextEffect := g'.nextEffect
      world := g'.world
      queue := g'.queue
      feed := g'.feed
      metrics := { g.metrics with peak := g'.metrics.peak } } := by
  simp only [applyTemplate]
  split
  · rfl
  · split
    · rfl
    · simp only [scheduleFor]
      split <;> rfl

theorem codex_applyTemplate (g : Engine) (t : Template) (r : Request) :
    (g.applyTemplate t r).1.codex = g.codex :=
  (congrArg Engine.codex (frame_applyTemplate g t r)).trans rfl

theorem acts_apply (g : Engine) (r : Request) : Acts (g, []) ((g.apply r).1, []) := by
  simp only [apply]
  cases h : g.codex.get? r.template with
  | none => exact .refl
  | some t => exact .single (.receive g t r (List.mem_of_find?_eq_some h))

theorem acts_applyEach (g : Engine) (caster target : ActorId) (skill : Skill) (ts : List Template)
    (h : ∀ t ∈ ts, t ∈ g.codex.templates) :
    Acts (g, []) ((g.applyEach caster target skill ts).1, []) := by
  induction ts generalizing g with
  | nil => exact .refl
  | cons t rest ih =>
    have hfirst := Act.receive g t ⟨t.id, caster, target, some skill, .zero⟩
      (h t List.mem_cons_self)
    refine .head hfirst (ih _ fun u hu => ?_)
    -- the templates are still known
    rw [codex_applyTemplate]
    exact h u (List.mem_cons_of_mem _ hu)

end Apply

theorem acts_death (g : Engine) (actor : ActorId) : Acts (g, []) ((g.death actor).1, []) := by
  simp only [death]
  split_ifs
  · exact .head (.animate g actor false) (acts_dispelFor _ actor .all .death)
  · exact .refl

theorem acts_cancelBuff (g : Engine) (requester actor : ActorId) (skill : SkillId) :
    Acts (g, []) ((g.cancelBuff requester actor skill).1, []) := by
  simp only [cancelBuff]
  split_ifs
  · exact acts_dispelFor g actor (.skill skill) .voluntary
  · exact .refl

/-- A batch is taken out of the queue one timer after the other. -/
theorem acts_popDue (g : Engine) (taken : List Entry) (now max : Nat) :
    Acts (g, taken)
      ({ g with queue := (g.queue.popDue now max).1 }, taken ++ (g.queue.popDue now max).2) := by
  induction max generalizing g taken with
  | zero =>
    simp only [TimerQueue.popDue, List.append_nil]
    exact .refl
  | succ max ih =>
    simp only [TimerQueue.popDue]
    cases h : g.queue.pop now with
    | mk q found =>
      cases found with
      | none =>
        simp only [List.append_nil, (TimerQueue.pop_none_eq h).1]
        exact .single (.sweep g taken)
      | some e =>
        have htail := ih { g with queue := q } (taken ++ [e])
        simp only [List.append_assoc, List.singleton_append] at htail
        exact .head (.take g taken h) htail

theorem acts_fires (g : Engine) (es : List Entry) : Acts (g, es) (es.foldl fire g, []) := by
  induction es generalizing g with
  | nil => exact .refl
  | cons e rest ih => exact .head (.fire g e rest) (ih _)

theorem acts_drainDue (g : Engine) (max : Nat) : Acts (g, []) ((g.drainDue max).1, []) :=
  (acts_popDue g [] g.now max).trans (acts_fires _ _)

/-- A timer that is taken out, reached by the clock and fired. -/
theorem acts_fireNext {g : Engine} {deadline : Nat} {q : TimerQueue} {e : Entry}
    (due : g.queue.pop deadline = (q, some e)) : Acts (g, []) (g.fireNext q e, []) := by
  have hset := Act.setClock { g with queue := q } [e] e.due
  exact .head (.take g [] due) (.head hset (.single (.fire _ e [])))

theorem acts_fireAll (g : Engine) (deadline fired fuel : Nat) :
    Acts (g, []) ((g.fireAll deadline fired fuel).1, []) := by
  induction fuel generalizing g fired with
  | zero => exact .refl
  | succ fuel ih =>
    simp only [fireAll]
    cases h : g.queue.pop deadline with
    | mk q found =>
      cases found with
      | none => exact .refl
      | some e => exact (acts_fireNext h).trans (ih _ _)

theorem acts_advanceTo (g : Engine) (deadline : Nat) :
    Acts (g, []) ((g.advanceTo deadline).1, []) :=
  (acts_fireAll g deadline 0 _).tail (.setClock _ [] deadline)

theorem acts_perform (g : Engine) (op : Op) : Acts (g, []) (g.perform op, []) := by
  cases op with
  | spawn p => exact .single (.spawn g p)
  | locate ready => exact .single (.locate g ready)
  | apply r => exact acts_apply g r
  | applySkill caster target skill =>
    exact acts_applyEach g caster target skill _ fun t ht => List.mem_of_mem_filter ht
  | dispel actor selector => exact acts_dispelFor g actor selector .cleanse
  | cancelBuff requester actor skill => exact acts_cancelBuff g requester actor skill
  | death actor => exact acts_death g actor
  | revive actor => exact .single (.animate g actor true)
  | remove actor => exact .single (.remove g actor)
  | setClock moment => exact .single (.setClock g [] moment.toNat)
  | pass ms => exact .single (.pass g ms.toNat)
  | advanceTo deadline => exact acts_advanceTo g deadline.toNat
  | drainDue max => exact acts_drainDue g max.toNat

/-- **A run is a chain of acts**, and no timer is left between queue and past. -/
theorem acts_run (g : Engine) (ops : List Op) : Acts (g, []) (g.run ops, []) := by
  induction ops generalizing g with
  | nil => exact .refl
  | cons op rest ih => exact (acts_perform g op).trans (ih _)

/-! ### A codex for trials -/

/-- A template that grants speed, a greater one of the same group, and one that holds its actor for
four ticks. -/
def trialCodex : Codex where
  templates := [
    { id := ⟨1⟩, name := "Haste", skill := ⟨1⟩, kind := .buff, abnormalType := .speedUp,
      duration := 10, visual := .single 11, bonuses := [⟨.runSpeed, .flat 20⟩] },
    { id := ⟨2⟩, name := "Greater Haste", skill := ⟨1⟩, kind := .buff, abnormalType := .speedUp,
      duration := 20, priority := 1, bonuses := [⟨.runSpeed, .flat 33⟩] },
    { id := ⟨3⟩, name := "Hold", skill := ⟨2⟩, kind := .paralyze, abnormalType := .paralyze,
      duration := 4, tickInterval := 500 }]
  ids_nodup := by decide
  routes_pos := by decide

/-- An actor enters a world of its own. -/
def Op.enter (actor : UInt32) : Op := .spawn { id := ⟨actor⟩ }

/-- An actor casts a template on itself. -/
def Op.cast (actor template : UInt32) : Op :=
  .apply { template := ⟨template⟩, caster := ⟨actor⟩, target := ⟨actor⟩ }

end Engine

end StatusEffects
