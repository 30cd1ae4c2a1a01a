import StatusEffects.Proofs.Exclusion
import StatusEffects.Proofs.Purpose
import Mathlib.Data.List.Induction

/-!
# Casts

An effect starts, or is renewed, by a request to apply one template.  Such a request tells of its cast
last, after the ends of the effects that it supersedes, and leaves an effect with the parameters of
the cast and with all of their duration.  A request for all the templates of a skill is a list of
requests for one template each, so that every start and every renewal in the journal has a request
of its own.

## Main definitions

* `Cast` : a template with the parameters it has been resolved to, the moment and the expiry unit.
* `Cast.Runs` : an effect has ticked a number of times since a cast.
* `Engine.Op.casts` : a request as requests for one template each.

## Main statements

* `Bearer.Sound.cast_apply` : what an application that tells of a cast leaves.
* `Engine.run_casts` : a run may be taken apart into casts.
* `Engine.exists_cast` : the request behind a start or a renewal.
-/

namespace StatusEffects

/-- A cast that has taken effect. -/
structure Cast where
  template : Template
  /-- The parameters that the template has been resolved to. -/
  params : Params
  moment : Nat
  /-- Milliseconds of one unit of duration. -/
  unit : UInt64

namespace Cast

/-- Milliseconds between two ticks. -/
def interval (c : Cast) : Nat := c.template.tickInterval.toNat

/-- Ticks or units until the effect ends; zero for never. -/
def duration (c : Cast) : Nat := c.params.duration.toNat

/-- The tick with which an effect that ticks ends; zero for none. -/
def total (c : Cast) : Nat := if c.template.kind = .recovery then 1 else c.duration

/-- The effect of a cast that has ticked `m` times since and goes on. -/
structure Runs (c : Cast) (m : Nat) (e : Effect) : Prop where
  active : e.isActive = true
  template : e.template = c.template
  duration : e.params.duration = c.params.duration
  power : e.params.power = c.params.power
  remaining : e.remaining.toNat = c.duration - m
  unfinished : c.total = 0 ∨ m < c.total
  silent : c.template.isPeriodic = false → m = 0

theorem runs_zero {c : Cast} {e : Effect} (active : e.isActive = true)
    (template : e.template = c.template) (duration : e.params.duration = c.params.duration)
    (power : e.params.power = c.params.power) (remaining : e.remaining = c.params.duration) :
    c.Runs 0 e :=
  ⟨active, template, duration, power, congrArg UInt32.toNat remaining, by omega, fun _ => rfl⟩

end Cast

/-! ### Applications that tell of a cast -/

namespace Bearer

variable {codex : Codex} {next : Nat} {id : ActorId} {b : Bearer} {p : Profile}
  {settings : Settings} {incoming e : Effect} {ev : Event}

/-- Ends are no casts. -/
theorem not_isCast_dropAll {reason : EndReason} {ids : List EffectId}
    (h : ev ∈ (b.dropAll reason ids).2) : ev.isCast = false := by
  obtain ⟨s, rfl, -⟩ := ended_of_dropAll h
  rfl

/-- An application that tells of the cast of an effect tells it last.  It leaves the effect with the
parameters of the cast, and asks for the timer that the effect needs. -/
structure Casts {α : Type} (c : Cast) (b : Bearer) (o : Outcome α) (asked : Option Timer)
    (ev : Event) : Prop where
  told : ∃ losses, o.events = losses ++ [ev] ∧ ∀ x ∈ losses, x.isCast = false
  left : ∃ e, o.bearer.list.get? e.id = some e ∧ c.Runs 0 e ∧ ev.actor = b.owner ∧
    ev.effect.id = e.id ∧ asked = e.timer? c.unit

theorem casts_begin (moment : Nat) (hp : incoming.phase = .pending)
    (absent : b.list.get? incoming.id = none)
    (whole : incoming.remaining = incoming.params.duration)
    (hev : ev ∈ (b.begin p settings incoming).events) (hcast : ev.isCast = true) :
    Casts ⟨incoming.template, incoming.params, moment, settings.expiryUnit⟩ b
      (b.begin p settings incoming) (timerAsked (b.begin p settings incoming).answer) ev := by
  cases hc : incoming.contribute p b.status with
  | made s =>
    rw [begin_made hp hc] at hev ⊢
    obtain rfl := List.mem_singleton.1 hev
    refine ⟨⟨[], rfl, fun _ h => nomatch h⟩, b.begun incoming, ?_,
      Cast.runs_zero rfl rfl rfl rfl whole, rfl, rfl, rfl⟩
    have hnone : b.list.effects.find? (·.id == incoming.id) = none := absent
    simp [EffectList.get?, List.find?_append, begun, hnone]
  | vetoed =>
    rw [begin_vetoed hp hc] at hev
    rw [List.mem_singleton.1 hev] at hcast
    cases hcast
  | failed cause =>
    rw [begin_failed hp hc] at hev
    rw [List.mem_singleton.1 hev] at hcast
    cases hcast

/-- **What an application that tells of a cast leaves.** -/
theorem Sound.cast_apply (hb : b.Sound codex next id) (hin : incoming.Incoming codex next id)
    (moment : Nat) (hev : ev ∈ (b.apply p settings incoming).events) (hcast : ev.isCast = true) :
    Casts ⟨incoming.template, incoming.params, moment, settings.expiryUnit⟩ b
      (b.apply p settings incoming) (timerAsked (b.apply p settings incoming).answer) ev := by
  rcases b.apply_cases p settings incoming with ⟨_, -, h⟩ | ⟨x, _, found, rfl, h⟩ | ⟨-, -, -, h⟩
  · rw [h] at hev
    cases hev
  · have hmem := List.mem_of_find?_eq_some found
    have hseated := hb.seated x hmem
    have hrenews := List.find?_some found
    simp only [EffectList.renews, Bool.and_eq_true, beq_iff_eq] at hrenews
    rw [h] at hev ⊢
    obtain rfl := List.mem_singleton.1 hev
    -- the effect that is renewed is of the same template, as it is of a template with that key
    have hruns : Cast.Runs ⟨incoming.template, incoming.params, moment, settings.expiryUnit⟩ 0
        (x.refresh incoming.params settings.refreshAdoptsEnchant) :=
      Cast.runs_zero (by simp [Effect.isActive, Effect.refresh, hseated.active])
        (codex.eq_of_id_eq hseated.known hin.known hrenews.1.2) rfl rfl rfl
    refine ⟨⟨[], rfl, List.forall_mem_nil _⟩, _, ?_, hruns, rfl, rfl, rfl⟩
    rw [hb.renew_eq_update found]
    exact get?_update_self (hb.get?_of_mem hmem) rfl
  · have hb₁ := hb.turns (turns_dropAll b (show EndReason.isParting .superseded = true from rfl)
      (b.list.rivals incoming))
    rw [h] at hev ⊢
    rcases List.mem_append.1 hev with hev | hev
    · rw [not_isCast_dropAll hev] at hcast
      cases hcast
    · obtain ⟨⟨losses, hlosses, hnone⟩, e, hget, hruns, howner, hid, hasked⟩ :=
        casts_begin moment hin.pending (hb₁.get?_incoming hin) hin.whole hev hcast
      refine ⟨⟨(b.dropAll .superseded (b.list.rivals incoming)).2 ++ losses, ?_, fun y hy => ?_⟩,
        e, hget, hruns, ?_, hid, hasked⟩
      · simp only [replace, hlosses, List.append_assoc]
      · rcases List.mem_append.1 hy with hy | hy
        · exact not_isCast_dropAll hy
        · exact hnone y hy
      · rw [howner, hb₁.owner, hb.owner]

end Bearer

namespace Engine

open Bearer

variable {g : Engine} {codex : Codex} {r : Request} {op : Op} {ops : List Op}
  {earlier rest more : List Stamped} {x : Stamped}

/-! ### Runs as lists of casts -/

/-- A request for the templates of a skill as requests for one template each. -/
def Op.casts (codex : Codex) : Op → List Op
  | .applySkill caster target skill =>
    (codex.forSkill skill.id).map fun t => .apply ⟨t.id, caster, target, some skill, .zero⟩
  | op => [op]

/-- The templates of a skill are applied one after the other. -/
theorem run_applyEach (g : Engine) (caster target : ActorId) (skill : Skill) (ts : List Template)
    (h : ∀ t ∈ ts, t ∈ g.codex.templates) :
    g.run (ts.map fun t => .apply ⟨t.id, caster, target, some skill, .zero⟩) =
      (g.applyEach caster target skill ts).1 := by
  induction ts generalizing g with
  | nil => rfl
  | cons t rest ih =>
    have hget : g.codex.get? t.id = some t :=
      (find?_key_eq_some_iff g.codex.ids_nodup).2 ⟨h t List.mem_cons_self, rfl⟩
    have happly : g.perform (.apply ⟨t.id, caster, target, some skill, .zero⟩) =
        (g.applyTemplate t ⟨t.id, caster, target, some skill, .zero⟩).1 := by
      simp only [perform, apply, hget]
    have hrest := ih (g.applyTemplate t ⟨t.id, caster, target, some skill, .zero⟩).1 fun u hu => by
      rw [codex_applyTemplate]
      exact h u (List.mem_cons_of_mem _ hu)
    rw [List.map_cons, run, List.foldl_cons, happly]
    exact hrest

theorem perform_casts (g : Engine) (op : Op) : g.run (op.casts g.codex) = g.perform op := by
  cases op with
  | applySkill caster target skill =>
    exact run_applyEach g caster target skill _ fun t ht => List.mem_of_mem_filter ht
  | _ => rfl

/-- **A run may be taken apart into casts.** -/
theorem run_casts (hg : g.Sound) (ops : List Op) :
    g.run (ops.flatMap (Op.casts g.codex)) = g.run ops := by
  induction ops generalizing g with
  | nil => rfl
  | cons op rest ih =>
    have hsteps : Steps g (g.perform op) := steps_acts (s := (g, [])) hg (acts_perform g op)
    have hrest := ih (hg.steps hsteps)
    rw [codex_steps hsteps] at hrest
    rw [List.flatMap_cons, run_append, perform_casts, hrest]
    rfl

/-! ### Requests that use up keys -/

theorem nextEffect_fire (g : Engine) (x : Entry) : (g.fire x).nextEffect = g.nextEffect := by
  simp only [fire]
  split
  · rfl
  · rename_i a _
    cases (a.bearer.fire g.settings x.timer).answer <;> rfl

theorem nextEffect_fires (g : Engine) (es : List Entry) :
    (es.foldl fire g).nextEffect = g.nextEffect := by
  induction es generalizing g with
  | nil => rfl
  | cons x rest ih => exact (ih (g.fire x)).trans (nextEffect_fire g x)

theorem nextEffect_fireAll (g : Engine) (deadline fired fuel : Nat) :
    (g.fireAll deadline fired fuel).1.nextEffect = g.nextEffect := by
  induction fuel generalizing g fired with
  | zero => rfl
  | succ fuel ih =>
    simp only [fireAll]
    split
    · rfl
    · exact (ih _ _).trans (nextEffect_fire _ _)

theorem nextEffect_dispelFor (g : Engine) (actor : ActorId) (selector : Selector) (cause : Cause) :
    (g.dispelFor actor selector cause).1.nextEffect = g.nextEffect := by
  simp only [dispelFor]
  split <;> rfl

/-- Only requests to apply templates use up keys. -/
theorem nextEffect_perform (g : Engine) (happly : ∀ r, op ≠ .apply r)
    (hskill : ∀ caster target skill, op ≠ .applySkill caster target skill) :
    (g.perform op).nextEffect = g.nextEffect := by
  cases op with
  | apply r => exact absurd rfl (happly r)
  | applySkill caster target skill => exact absurd rfl (hskill caster target skill)
  | spawn | locate | revive | setClock | pass => rfl
  | dispel actor selector => exact nextEffect_dispelFor g actor selector .cleanse
  | cancelBuff =>
    simp only [perform, cancelBuff]
    split_ifs
    · exact nextEffect_dispelFor g _ _ _
    · rfl
  | death =>
    simp only [perform, death]
    split_ifs
    · exact nextEffect_dispelFor _ _ _ _
    · rfl
  | remove =>
    simp only [perform, remove]
    split <;> rfl
  | advanceTo => exact nextEffect_fireAll g _ _ _
  | drainDue => exact nextEffect_fires _ _

theorem ne_applySkill_of_mem_casts (h : op ∈ ops.flatMap (Op.casts codex)) (caster target : ActorId)
    (skill : Skill) : op ≠ .applySkill caster target skill := by
  obtain ⟨op', -, hop⟩ := List.mem_flatMap.1 h
  rintro rfl
  cases op' with
  | applySkill =>
    obtain ⟨t, -, hop⟩ := List.mem_map.1 hop
    cases hop
  | _ => cases List.mem_singleton.1 hop

/-! ### The request behind a cast -/

/-- A request that publishes a cast is one for a known template that has passed the gate, and it
publishes the cast last. -/
theorem published_apply (hg : g.Sound)
    (h : (g.apply r).1.feed.journal.toList = g.feed.journal.toList ++ more) (hx : x ∈ more)
    (hcast : x.event.isCast = true) :
    ∃ t a, g.codex.get? r.template = some t ∧ g.gate t r = .ok a ∧
      (g.apply r).1 = (g.applyTemplate t r).1 ∧ x.moment = g.now ∧
      Casts ⟨t, t.resolve r.skill, g.now, g.settings.expiryUnit⟩ a.bearer
        (a.bearer.apply a.profile g.settings (g.incoming t r))
        (timerAsked (a.bearer.apply a.profile g.settings (g.incoming t r)).answer) x.event ∧
      ∃ losses, more = losses ++ [x] ∧ ∀ s ∈ losses, s.event.isCast = false := by
  have hunpublished : (g.apply r).1 = g → False := fun hsame => by
    rw [hsame] at h
    rw [List.self_eq_append_right.1 h] at hx
    cases hx
  cases known : g.codex.get? r.template with
  | none =>
    refine (hunpublished ?_).elim
    simp only [apply, known]
  | some t =>
    have happly : (g.apply r).1 = (g.applyTemplate t r).1 := by simp only [apply, known]
    cases passed : g.gate t r with
    | error refusal => exact (hunpublished (by rw [happly, applyTemplate_of_error passed])).elim
    | ok a =>
      obtain ⟨-, hfeed, -⟩ := applyTemplate_of_gate passed
      rw [happly, hfeed, Feed.journal_publishAll] at h
      obtain rfl := List.append_cancel_left h
      obtain ⟨ev, hev, rfl⟩ := List.mem_map.1 hx
      have hin := incoming_incoming (r := r) (List.mem_of_find?_eq_some known)
      have hcasts := (hg.bearer (get?_of_gate passed)).cast_apply hin g.now hev hcast
      obtain ⟨losses, hlosses, hnone⟩ := hcasts.told
      refine ⟨t, a, rfl, passed, happly, rfl, hcasts, losses.map (.mk g.now), ?_, fun s hs => ?_⟩
      · rw [hlosses, List.map_append]
        rfl
      · obtain ⟨y, hy, rfl⟩ := List.mem_map.1 hs
        exact hnone y hy

/-- **The request behind a start or a renewal**, where no request is for the templates of a skill. -/
theorem exists_cast (hg : g.Sound) (hnone : ∀ s ∈ g.feed.journal.toList, s.event.isCast = false)
    (hops : ∀ op ∈ ops, ∀ caster target skill, op ≠ .applySkill caster target skill)
    (published : (g.run ops).feed.journal.toList = earlier ++ x :: rest)
    (hcast : x.event.isCast = true) :
    ∃ before r after more, ops = before ++ .apply r :: after ∧
      earlier ++ [x] = (g.run before).feed.journal.toList ++ more ∧ x ∈ more ∧
      ((g.run before).apply r).1.feed.journal.toList = earlier ++ [x] := by
  induction ops using List.reverseRec generalizing rest with
  | nil =>
    have hmem : x ∈ g.feed.journal.toList := by
      have hjournal : g.feed.journal.toList = earlier ++ x :: rest := published
      rw [hjournal]
      exact List.mem_append_right _ List.mem_cons_self
    rw [hnone x hmem] at hcast
    cases hcast
  | append_singleton ops op ih =>
    have hops' : ∀ op ∈ ops, ∀ caster target skill, op ≠ .applySkill caster target skill :=
      fun op' hop' => hops op' (List.mem_append_left _ hop')
    have hg₁ : (g.run ops).Sound := sound_run hg ops
    have hsteps : Steps (g.run ops) ((g.run ops).perform op) :=
      steps_acts (s := (g.run ops, [])) hg₁ (acts_perform _ op)
    obtain ⟨more, hmore, hcasts⟩ := journal_steps hsteps
    have hrun : g.run (ops ++ [op]) = (g.run ops).perform op := run_append g ops [op]
    rw [hrun, hmore] at published
    -- either the cast was published before, or it is this request that publishes it
    have hcases : (∃ rest', (g.run ops).feed.journal.toList = earlier ++ x :: rest') ∨
        ∃ middle, earlier = (g.run ops).feed.journal.toList ++ middle ∧
          more = middle ++ x :: rest := by
      rcases List.append_eq_append_iff.1 published with ⟨middle, hearlier, hmiddle⟩ |
        ⟨middle, hbefore, hmiddle⟩
      · exact .inr ⟨middle, hearlier, hmiddle⟩
      · cases middle with
        | nil => exact .inr ⟨[], by simpa using hbefore.symm, hmiddle.symm⟩
        | cons y rest' =>
          obtain ⟨rfl, -⟩ := List.cons_eq_cons.1 hmiddle
          exact .inl ⟨rest', hbefore⟩
    rcases hcases with ⟨rest', hbefore⟩ | ⟨middle, rfl, rfl⟩
    · obtain ⟨before, r, after, more', rfl, hjournal⟩ := ih hops' hbefore
      exact ⟨before, r, after ++ [op], more', by simp, hjournal⟩
    · have hx : x ∈ middle ++ x :: rest := List.mem_append_right _ List.mem_cons_self
      have hlt := hcasts x hx hcast
      by_cases happly : ∃ r, op = .apply r
      · obtain ⟨r, rfl⟩ := happly
        obtain ⟨-, -, -, -, -, -, -, losses, hlosses, hends⟩ :=
          published_apply hg₁ hmore hx hcast
        have hlast : rest = [] := by
          rcases rest.eq_nil_or_concat' with rfl | ⟨l, y, rfl⟩
          · rfl
          · -- were it not the last, it would be the end of an effect
            rw [← List.cons_append, ← List.append_assoc] at hlosses
            obtain ⟨hlosses, -⟩ := List.append_inj' hlosses rfl
            have hmem : x ∈ losses := by
              rw [← hlosses]
              exact List.mem_append_right _ List.mem_cons_self
            rw [hends x hmem] at hcast
            cases hcast
        subst hlast
        refine ⟨ops, r, [], middle ++ [x], rfl, List.append_assoc _ _ _, ?_, ?_⟩
        · exact List.mem_append_right _ List.mem_cons_self
        · exact hmore.trans (List.append_assoc _ _ _).symm
      · -- any other request leaves the next key as it is
        have hskill := hops op (List.mem_append_right _ (List.mem_singleton.2 rfl))
        rw [nextEffect_perform _ (fun r hr => happly ⟨r, hr⟩) hskill] at hlt
        exact absurd hlt (Nat.lt_irrefl _)

end Engine

end StatusEffects
