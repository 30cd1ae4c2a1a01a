import StatusEffects.Proofs.Imprint
import StatusEffects.Proofs.Chronicle

/-!
# Competing effects

Two effects clash when they do not stack and are of one group, or when they are casts of one
template by one caster and the template does not stack with itself.  An actor never carries two
effects that clash.  An effect that takes the place of others starts once these have ended: nothing
of theirs is left on the actor by then, and their ends are told before its start.

## Main definitions

* `Effect.mark`, `Clash` : what decides whether two effects exclude each other.
* `Bearer.Exclusive` : no two effects of a bearer clash.
* `Effect.startEvent` : the event that tells how a start turns out.

## Main statements

* `Engine.keeps_exclusive` : small changes keep bearers exclusive.
* `Bearer.Sound.replaces` : what an effect that takes the place of others starts from.
* `Engine.exclusion_run` : both, for every actor after every run.
-/

namespace StatusEffects

/-! ### Clashes -/

/-- The parts of an effect that decide what it clashes with. -/
def Effect.mark (e : Effect) : Template × ActorId := (e.template, e.caster)

/-- Two effects with these marks exclude each other. -/
def Clash (x y : Template × ActorId) : Prop :=
  (x.1.abnormalType = y.1.abnormalType ∧ x.1.abnormalType ≠ .none ∧
    x.1.stackable = false ∧ y.1.stackable = false) ∨
  (x.1.id = y.1.id ∧ x.2 = y.2 ∧ x.1.stacksWithSelf = false ∧ y.1.stacksWithSelf = false)

/-- No two effects of the bearer clash. -/
def Bearer.Exclusive (b : Bearer) : Prop :=
  (b.list.effects.map Effect.mark).Pairwise fun x y => ¬ Clash x y

theorem Codex.eq_of_id_eq (c : Codex) {t u : Template} (ht : t ∈ c.templates)
    (hu : u ∈ c.templates) (h : t.id = u.id) : t = u :=
  List.inj_on_of_nodup_map c.ids_nodup ht hu h

/-- Of elements that exclude each other a list has at most one. -/
theorem length_filter_le_one {α β : Type} {R : β → β → Prop} {mark : α → β} {as : List α}
    (h : (as.map mark).Pairwise fun x y => ¬ R x y) {p : α → Bool}
    (hp : ∀ x y, p x = true → p y = true → R (mark x) (mark y)) : (as.filter p).length ≤ 1 := by
  have hpair := (List.pairwise_map.1 h).filter p
  cases hf : as.filter p with
  | nil => simp
  | cons x rest =>
    cases rest with
    | nil => simp
    | cons y more =>
      rw [hf] at hpair
      have hx : x ∈ as.filter p := by simp [hf]
      have hy : y ∈ as.filter p := by simp [hf]
      have hxy := List.rel_of_pairwise_cons hpair List.mem_cons_self
      exact absurd (hp x y (List.of_mem_filter hx) (List.of_mem_filter hy)) hxy

/-- The event that tells how the start of an effect over a status turns out. -/
def Effect.startEvent (e : Effect) (p : Profile) (s : Status) : Event :=
  match e.contribute p s with
  | .made _ => .started e.target e.summary
  | .vetoed => .ended e.target e.summary .vetoed
  | .failed _ => .ended e.target e.summary .faulted

namespace Bearer

variable {codex : Codex} {next : Nat} {id : ActorId} {b b' : Bearer} {ev : Event} {p : Profile}
  {settings : Settings} {incoming e e' x : Effect}

theorem Exclusive.update (hx : b.Exclusive) (found : b.list.get? e.id = some e) (h : e.Same e') :
    ({ b with list := b.list.update e.id e' } : Bearer).Exclusive := by
  have hmark : e'.mark = e.mark := by rw [Effect.mark, Effect.mark, h.template, h.caster]
  rw [Exclusive, EffectList.map_update found hmark]
  exact hx

theorem Exclusive.turn (hx : b.Exclusive) (h : b.Turn ev b') : b'.Exclusive := by
  cases h with
  | tick found _ => exact hx.update found (Effect.same_countTick _)
  | finish _ _ => exact hx.sublist (List.eraseP_sublist.map _)

/-- An effect that meets none to renew and no rival clashes with none. -/
theorem Sound.not_clash_incoming (hb : b.Sound codex next id)
    (hin : incoming.Incoming codex next id) (unclaimed : b.list.renewable? incoming = none)
    (unrivalled : b.list.rivals incoming = []) (hx : x ∈ b.list.effects) :
    ¬ Clash x.mark incoming.mark := by
  have hrenews := List.find?_eq_none.1 unclaimed x hx
  have hrival := EffectList.rivals_eq_nil_iff.1 unrivalled x hx
  rintro (⟨hgroup, hnone, hxs, his⟩ | ⟨hid, hcaster, -, his⟩)
  · -- such an effect would be a rival
    simp_all [Effect.mark, EffectList.isRival, EffectList.competes, Effect.abnormalType]
  · -- templates with one key are equal, so that the group agrees and there is one to renew
    have htemplate : x.template = incoming.template :=
      codex.eq_of_id_eq (hb.seated x hx).known hin.known hid
    have hcaster' : x.caster = incoming.caster := hcaster
    have hstacks : incoming.template.stacksWithSelf = false := his
    simp [EffectList.renews, Effect.abnormalType, htemplate, hcaster', hstacks] at hrenews

theorem Sound.exclusive_arrival (hb : b.Sound codex next id) (hx : b.Exclusive)
    (hin : incoming.Incoming codex next id) (h : b.Arrival p settings incoming ev b') :
    b'.Exclusive := by
  cases h with
  | renew found =>
    exact hx.update (hb.get?_of_mem (List.mem_of_find?_eq_some found)) (Effect.same_refresh _ _ _)
  | start unclaimed unrivalled _ _ =>
    simp only [Exclusive, List.map_append, List.map_cons, List.map_nil, List.pairwise_append,
      List.pairwise_singleton, List.mem_singleton, true_and]
    refine ⟨hx, ?_⟩
    rintro m hm m' rfl
    obtain ⟨y, hy, rfl⟩ := List.mem_map.1 hm
    have hnot := hb.not_clash_incoming hin unclaimed unrivalled hy
    exact hnot
  | veto _ => exact hx
  | fail _ => exact hx

/-! ### Replacing the rivals -/

theorem effects_begin (b : Bearer) (p : Profile) (settings : Settings)
    (hp : incoming.phase = .pending) (hx : x ∈ b.list.effects) :
    x ∈ (b.begin p settings incoming).bearer.list.effects := by
  cases hc : incoming.contribute p b.status with
  | made s =>
    rw [begin_made hp hc]
    exact List.mem_append_left _ hx
  | vetoed =>
    rw [begin_vetoed hp hc]
    exact hx
  | failed cause =>
    rw [begin_failed hp hc]
    exact hx

theorem begin_eq (b : Bearer) (p : Profile) (settings : Settings)
    (hp : incoming.phase = .pending) (ht : incoming.target = b.owner) :
    (b.begin p settings incoming).bearer.status = (incoming.start p b.status).2.1 ∧
      (b.begin p settings incoming).events = [incoming.startEvent p b.status] := by
  cases hc : incoming.contribute p b.status with
  | made s =>
    simp [begin_made hp hc, Effect.start_made hp hc, Effect.startEvent, hc, ht]
  | vetoed =>
    simp [begin_vetoed hp hc, Effect.start_vetoed hp hc, Effect.startEvent, hc, ht]
  | failed cause =>
    simp [begin_failed hp hc, Effect.start_failed hp hc, Effect.startEvent, hc, ht]

/-- **What an effect starts from that takes the place of others.**  If an effect of the bearer is
gone after an application, then it was a rival of the incoming effect; all its rivals have ended,
and the start finds the status of the effects that are left. -/
theorem Sound.replaces (hb : b.Sound codex next id) (hr : b.Reflected)
    (hin : incoming.Incoming codex next id) (p : Profile) (settings : Settings)
    (hx : x ∈ b.list.effects)
    (gone : ∀ y ∈ (b.apply p settings incoming).bearer.list.effects, y.id ≠ x.id) :
    EffectList.isRival incoming x = true ∧
    ∃ s : Status,
      s.Reflects (b.list.effects.filter fun e => !EffectList.isRival incoming e) ∧
      (b.apply p settings incoming).bearer.status = (incoming.start p s).2.1 ∧
      (b.apply p settings incoming).events =
        (b.list.effects.filter (EffectList.isRival incoming)).map
          (fun e => .ended id e.summary .superseded) ++ [incoming.startEvent p s] := by
  rcases b.apply_cases p settings incoming with ⟨_, -, h⟩ | ⟨e, _, found, rfl, h⟩ | ⟨-, -, -, h⟩
  · rw [h] at gone
    exact absurd rfl (gone x hx)
  · -- a renewal keeps all keys
    have hkeys : (b.list.renew incoming settings.refreshAdoptsEnchant).effects.map (·.id) =
        b.list.effects.map (·.id) := by
      rw [hb.renew_eq_update found]
      exact EffectList.map_update (hb.get?_of_mem (List.mem_of_find?_eq_some found)) rfl
    have hmem : x.id ∈ b.list.effects.map (·.id) := List.mem_map_of_mem hx
    rw [← hkeys] at hmem
    obtain ⟨y, hy, hyx⟩ := List.mem_map.1 hmem
    rw [h] at gone
    exact absurd hyx (gone y hy)
  · have hturns := turns_dropAll b (show EndReason.isParting .superseded = true from rfl)
      (b.list.rivals incoming)
    have hleft := hb.effects_dropRivals incoming
    have hreflected := hb.reflected_turns hr hturns
    have howner := (hb.turns hturns).owner
    obtain ⟨hstatus, hevents⟩ := begin_eq (b.dropAll .superseded (b.list.rivals incoming)).1 p
      settings hin.pending (hin.target.trans howner.symm)
    rw [Reflected, hleft] at hreflected
    refine ⟨?_, _, hreflected, ?_, ?_⟩
    · by_contra hrival
      have hstay : x ∈ (b.dropAll .superseded (b.list.rivals incoming)).1.list.effects := by
        rw [hleft]
        exact List.mem_filter.2 ⟨hx, by simpa using hrival⟩
      rw [h] at gone
      exact gone x (effects_begin _ p settings hin.pending hstay) rfl
    · rw [h]
      exact hstatus
    · rw [h, ← hb.events_dropAll rfl List.filter_sublist, ← EffectList.rivals_eq, ← hevents]
      rfl

end Bearer

/-! ### Runs -/

namespace Engine

variable {g : Engine} {t : Template} {r : Request} {a : Actor}

theorem keeps_exclusive (codex : Codex) (settings : Settings) :
    Keeps codex settings Bearer.Exclusive where
  fresh _ := .nil
  turn _ hx h := hx.turn h
  arrival hb hin hx h := hb.exclusive_arrival hx hin h

/-- **Effects that exclude each other.**  After every run over an empty world an actor has of the
effects of one group that do not stack at most one, and of the casts of a template by one caster at
most one, unless the template stacks with itself.  Should an effect of the actor be gone after one
more application, then the incoming effect has found a status without an entry of it, that of the
effects that were not its rivals, and the end of the superseded effect was told before what became
of the start. -/
theorem exclusion_run (settings : Settings) (codex : Codex) (start : UInt64) (manual : Bool)
    (capacity : Nat) (ops : List Op) {id : ActorId} {a : Actor}
    (found : ((opened settings codex start manual capacity).run ops).world.get? id = some a) :
    let g := (opened settings codex start manual capacity).run ops
    let es := a.bearer.list.effects
    (∀ group, group ≠ AbnormalType.none →
      (es.filter fun e => e.abnormalType == group && !e.template.stackable).length ≤ 1) ∧
    (∀ template caster, (es.filter fun e => e.template.id == template && e.caster == caster &&
      !e.template.stacksWithSelf).length ≤ 1) ∧
    ∀ t ∈ codex.templates, ∀ r : Request, r.target = id → ∀ x ∈ es,
      ¬ (g.applyTemplate t r).1.Hosts id x.id →
      let incoming := g.incoming t r
      let losses := (es.filter (EffectList.isRival incoming)).map fun e =>
        Event.ended id e.summary .superseded
      ∃ s a', s.Lacks x.id ∧
        s.Reflects (es.filter fun e => !EffectList.isRival incoming e) ∧
        .ended id x.summary .superseded ∈ losses ∧
        (g.applyTemplate t r).1.log = g.log ++ losses ++ [incoming.startEvent a.profile s] ∧
        (g.applyTemplate t r).1.world.get? id = some a' ∧
        a'.bearer.status = (incoming.start a.profile s).2.1 := by
  intro g es
  have hopened := sound_opened settings codex start manual capacity
  have hsteps : Steps (opened settings codex start manual capacity) g := steps_run hopened ops
  have hg : g.Sound := hopened.steps hsteps
  have hcodex : g.codex = codex := codex_steps hsteps
  have hbearer : g.world.bearer? id = some a.bearer := World.bearer?_of_get? found
  have hx : a.bearer.Exclusive :=
    (keeps_exclusive codex settings).run start manual capacity ops id _ hbearer
  have hr : a.bearer.Reflected :=
    (keeps_reflected codex settings).run start manual capacity ops id _ hbearer
  refine ⟨fun group hgroup => ?_, fun template caster => ?_, ?_⟩
  · refine length_filter_le_one hx fun x y hpx hpy => .inl ?_
    simp only [Bool.and_eq_true, beq_iff_eq, Bool.not_eq_true'] at hpx hpy
    have hne : x.abnormalType ≠ .none := hpx.1 ▸ hgroup
    exact ⟨hpx.1.trans hpy.1.symm, hne, hpx.2, hpy.2⟩
  · refine length_filter_le_one hx fun x y hpx hpy => .inr ?_
    simp only [Bool.and_eq_true, beq_iff_eq, Bool.not_eq_true'] at hpx hpy
    exact ⟨hpx.1.1.trans hpy.1.1.symm, hpx.1.2.trans hpy.1.2.symm, hpx.2, hpy.2⟩
  · rintro t ht r rfl x hx' hgone incoming losses
    rw [← hcodex] at ht
    cases passed : g.gate t r with
    | error refusal =>
      rw [applyTemplate_of_error passed, hosts_iff hg, shown_of_get? found] at hgone
      exact absurd (List.mem_map_of_mem (List.mem_map_of_mem hx')) hgone
    | ok c =>
      obtain rfl : c = a := Option.some.inj ((get?_of_gate passed).symm.trans found)
      obtain ⟨hworld, hfeed, -⟩ := applyTemplate_of_gate passed
      have hafter := World.get?_setBearer_self (b := (c.bearer.apply c.profile g.settings
        (g.incoming t r)).bearer) found
      rw [← hworld] at hafter
      have hg' : (g.applyTemplate t r).1.Sound := hg.steps (steps_applyTemplate hg ht)
      rw [hosts_iff hg', shown_of_get? hafter] at hgone
      obtain ⟨hrival, s, hleft, hstatus, hevents⟩ := (hg.bearer found).replaces hr
        (incoming_incoming ht) c.profile g.settings hx' fun y hy hyx =>
          hgone (hyx ▸ List.mem_map_of_mem (List.mem_map_of_mem hy))
      refine ⟨s, _, hleft.lacks ?_, hleft, ?_, ?_, hafter, hstatus⟩
      · intro e he hid
        obtain ⟨he, hnot⟩ := List.mem_filter.1 he
        rw [List.inj_on_of_nodup_map (hg.bearer found).keys he hx' hid, hrival] at hnot
        cases hnot
      · exact List.mem_map_of_mem (List.mem_filter.2 ⟨hx', hrival⟩)
      · rw [log, hfeed, log_publishAll, hevents, ← List.append_assoc]
        rfl

/-- A greater haste finds nothing of the haste it supersedes, whose end is told first. -/
theorem exclusion_run_haste :
    let g := (opened {} trialCodex 0 true 1).run [.enter 1, .cast 1 1]
    ∃ a s lost ev, g.world.get? ⟨1⟩ = some a ∧
      (a.bearer.list.effects.filter fun e =>
        e.abnormalType == .speedUp && !e.template.stackable).length ≤ 1 ∧
      Status.Lacks s ⟨1⟩ ∧ Summary.id lost = ⟨1⟩ ∧
      (g.perform (.cast 1 2)).log = g.log ++ [.ended ⟨1⟩ lost .superseded] ++ [ev] := by
  intro g
  obtain ⟨hgroup, -, hreplaced⟩ :=
    @exclusion_run {} trialCodex 0 true 1 [.enter 1, .cast 1 1] ⟨1⟩ _ rfl
  have hgone : ¬ (g.perform (.cast 1 2)).Hosts ⟨1⟩ ⟨1⟩ := by
    rintro ⟨b, hb, e, he, hid, -⟩
    have hkeys : b.bearer.list.effects.map (·.id) = [⟨2⟩] := by
      cases hb
      rfl
    have hmem : e.id ∈ b.bearer.list.effects.map (·.id) := List.mem_map_of_mem he
    rw [hkeys, hid] at hmem
    exact absurd hmem (by decide)
  obtain ⟨s, a', hlacks, -, -, hlog, -⟩ := hreplaced _ (.tail _ (.head _))
    { template := ⟨2⟩, caster := ⟨1⟩, target := ⟨1⟩ } rfl _ (.head _) hgone
  exact ⟨_, s, _, _, rfl, hgroup .speedUp (by decide), hlacks, rfl, hlog⟩

end Engine

end StatusEffects
