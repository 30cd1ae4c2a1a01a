import StatusEffects.Engine.View
import StatusEffects.Proofs.Fate
import StatusEffects.Proofs.Imprint
import StatusEffects.Proofs.Turnout

/-!
# Rejected applications

An application that is turned away at the gate, by the effect in place or for want of room changes
nothing.  One that comes as far as its start has ended the effects that it competes with by then,
and they stay ended if it refuses or fails: a rejection spares an effect of its target exactly if it
did not come of the start, or the effect does not stand against the incoming one.

## Main definitions

* `Status.only`, `Effect.entries` : what one effect has entered in a status, and what it enters.
* `Refusal.ofStart` : the refusals of effects that had their rivals ended before.
* `Engine.Spares` : an effect, its entries and its timer are as they were.

## Main statements

* `Status.Reflects.only` : an active effect has entered what it enters.
* `Bearer.Sound.effects_refused` : what a rejected application leaves of a list of effects.
* `Engine.rejected_run` : which effects a rejected application spares, after every run.
* `Engine.rejected_lift` : a lift that is lost to another lift that does not start.
-/

namespace StatusEffects

/-! ### Entries of one effect -/

/-- What one effect has entered in a status. -/
def Status.only (s : Status) (k : EffectId) : Status where
  holds := s.holds.filter (· == k)
  visuals := s.visuals.filter (·.1 == k)
  bonuses := s.bonuses.filter (·.1 == k)
  form := s.form.filter (·.1 == k)

/-- What the effect enters in a status. -/
def Effect.entries (e : Effect) : Status where
  holds := e.ownHolds
  visuals := e.ownVisuals
  bonuses := e.ownBonuses
  form := e.ownForm.head?

/-- Of the entries of effects with distinct keys, those behind the key of one are its own. -/
theorem filter_flatMap_own {β : Type} {own : Effect → List β} {tag : β → EffectId}
    (htag : ∀ e, ∀ x ∈ own e, tag x = e.id) {es : List Effect} {e : Effect}
    (hkeys : (es.map (·.id)).Nodup) (he : e ∈ es) :
    (es.flatMap own).filter (fun x => tag x == e.id) = own e := by
  have hown : ∀ y, (own y).filter (fun x => tag x == e.id) =
      if y.id == e.id then own y else [] := by
    intro y
    split_ifs with hy
    · exact List.filter_eq_self.2 fun x hx => by rwa [htag y x hx]
    · exact List.filter_eq_nil_iff.2 fun x hx => by rwa [htag y x hx]
  have hone : es.filter (·.id == e.id) = [e] :=
    TimerQueue.filter_eq_singleton hkeys.of_map he (by simp)
      fun y hy hid => List.inj_on_of_nodup_map hkeys hy he (by simpa using hid)
  rw [List.filter_flatMap, funext hown, Engine.flatMap_ite, hone, List.flatMap_singleton]

/-- **An active effect has entered what it enters.** -/
theorem Status.Reflects.only {s : Status} {es : List Effect} (h : s.Reflects es)
    (hkeys : (es.map (·.id)).Nodup) {e : Effect} (he : e ∈ es) : s.only e.id = e.entries := by
  have hform : (s.form.filter (·.1 == e.id)).toList = e.ownForm := by
    rw [toList_filter, h.form]
    exact filter_flatMap_own (fun _ _ => Effect.tag_ownForm) hkeys he
  have htag : ∀ e : Effect, ∀ x ∈ e.ownHolds, id x = e.id := fun _ _ => Effect.tag_ownHolds
  simp only [Status.only, Effect.entries, h.holds, h.visuals, h.bonuses, Status.mk.injEq]
  refine ⟨filter_flatMap_own htag hkeys he,
    filter_flatMap_own (fun _ _ => Effect.tag_ownVisuals) hkeys he,
    filter_flatMap_own (fun _ _ => Effect.tag_ownBonuses) hkeys he, ?_⟩
  rw [← hform]
  cases s.form.filter (·.1 == e.id) <;> rfl

/-! ### Refusals -/

/-- Whether an effect was refused because it refused or failed to start. -/
def Refusal.ofStart (refusal : Refusal) : Bool := refusal.ending?.isSome

namespace Bearer.Sound

variable {codex : Codex} {next : Nat} {id : ActorId} {b : Bearer} {p : Profile}
  {settings : Settings} {incoming e : Effect} {refusal : Refusal}

/-- **What a rejected application leaves** of the effects: all of them if it is turned away, and
those that it does not compete with if it comes as far as its start. -/
theorem effects_refused (hb : b.Sound codex next id) (hr : b.Reflected)
    (hin : incoming.Incoming codex next id)
    (h : (b.apply p settings incoming).answer = .error refusal) :
    (b.apply p settings incoming).bearer.list.effects =
      b.list.effects.filter fun e => !(refusal.ofStart && EffectList.isRival incoming e) := by
  have hturnout := hb.turnout hr hin p settings
  generalize b.apply p settings incoming = o at h hturnout ⊢
  cases hturnout with
  | away early =>
    obtain rfl := Except.error.inj h
    simp [Refusal.ofStart, early]
  | renewed | started => cases h
  | refused late =>
    obtain rfl := Except.error.inj h
    simp [Refusal.ofStart, late, EffectList.spared]

/-- No end is told of the effects that are left. -/
theorem events_refused (hb : b.Sound codex next id) (hr : b.Reflected)
    (hin : incoming.Incoming codex next id)
    (h : (b.apply p settings incoming).answer = .error refusal)
    (he : e ∈ (b.apply p settings incoming).bearer.list.effects) :
    ∀ ev ∈ (b.apply p settings incoming).events, ev.effect.id ≠ e.id := by
  have hturnout := hb.turnout hr hin p settings
  generalize b.apply p settings incoming = o at h he hturnout ⊢
  intro ev hev
  cases hturnout with
  | away => cases hev
  | renewed | started => cases h
  | refused =>
    rcases List.mem_append.1 hev with hev | hev
    · obtain ⟨e', he', rfl⟩ := List.mem_map.1 hev
      exact (hb.ne_of_mem_beaten he' he).symm
    · rw [List.mem_singleton.1 hev]
      exact (hb.ne_incoming_of_mem_spared hin he).symm

end Bearer.Sound

namespace Engine

variable {g : Engine} {id : ActorId} {a : Actor} {t : Template} {r : Request} {e : Effect}
  {refusal : Refusal}

/-- Nothing has become of a running effect of an actor: it is what it was in every part, and so are
its entries in the status and its timer. -/
structure Spares (g g' : Engine) (id : ActorId) (e : Effect) : Prop where
  active : g'.Bears id e
  entries : (g'.status id).map (·.only e.id) = (g.status id).map (·.only e.id)
  timers : ∀ x : Entry, x.key = (id, e.id) → (x ∈ g'.queue.pending ↔ x ∈ g.queue.pending)

/-- A request that gets through the gate is rejected by the bearer. -/
theorem applyTemplate_rejected (passed : g.gate t r = .ok a)
    (h : (g.applyTemplate t r).2 = .error refusal) :
    let o := a.bearer.apply a.profile g.settings (g.incoming t r)
    o.answer = .error refusal ∧ (g.applyTemplate t r).1.queue = cancelEnded g.queue o.events := by
  intro o
  cases hanswer : o.answer with
  | error cause =>
    rw [applyTemplate_error passed hanswer] at h ⊢
    obtain rfl := Except.error.inj h
    exact ⟨rfl, rfl⟩
  | ok x =>
    rw [applyTemplate_ok passed hanswer] at h
    cases h

/-- An effect that is still on the list is spared, unless its end is told. -/
theorem spares_of_left {g' : Engine} {a' : Actor} {events : List Event}
    (found : g.world.get? id = some a) (found' : g'.world.get? id = some a') (hq : g.queue.Sound)
    (keys : (a.bearer.list.effects.map (·.id)).Nodup)
    (keys' : (a'.bearer.list.effects.map (·.id)).Nodup) (hr : a.bearer.Reflected)
    (hr' : a'.bearer.Reflected) (he : e ∈ a.bearer.list.effects)
    (left : e ∈ a'.bearer.list.effects) (queue : g'.queue = cancelEnded g.queue events)
    (untold : ∀ ev ∈ events, ev.effect.id ≠ e.id) : g.Spares g' id e where
  active := ⟨_, World.bearer?_of_get? found', EffectList.get?_of_mem keys' left⟩
  entries := by
    -- both statuses reflect lists that hold the effect
    simp only [status, found, found', Option.map_some]
    rw [hr.only keys he, hr'.only keys' left]
  timers x hx := by
    rw [queue, mem_pending_cancelEnded hq]
    refine ⟨And.left, fun hpending => ⟨hpending, fun ev hev _ hkey => ?_⟩⟩
    exact untold ev hev (congrArg Prod.snd (hkey.trans hx))

/-- An effect is spared if it is still on the list. -/
theorem spares_iff_mem (hg : g.Sound) (hq : g.queue.Sound)
    (hr : ∀ id b, g.world.bearer? id = some b → b.Reflected)
    (hr' : ∀ id b, (g.applyTemplate t r).1.world.bearer? id = some b → b.Reflected)
    (known : t ∈ g.codex.templates) (passed : g.gate t r = .ok a)
    (h : (g.applyTemplate t r).2 = .error refusal) (he : e ∈ a.bearer.list.effects) :
    g.Spares (g.applyTemplate t r).1 r.target e ↔
      e ∈ (a.bearer.apply a.profile g.settings (g.incoming t r)).bearer.list.effects := by
  have found := get?_of_gate passed
  have hb := hg.bearer found
  have hbefore := hr _ _ (World.bearer?_of_get? found)
  have hin := incoming_incoming (r := r) known
  obtain ⟨hanswer, hqueue⟩ := applyTemplate_rejected passed h
  obtain ⟨hworld, -⟩ := applyTemplate_of_gate passed
  have found' : (g.applyTemplate t r).1.world.get? r.target =
      some { a with bearer := (a.bearer.apply a.profile g.settings (g.incoming t r)).bearer } :=
    hworld ▸ World.get?_setBearer_self found
  constructor
  · intro hspared
    exact mem_of_bears found' hspared.active
  · intro hleft
    have hkeys : ((a.bearer.apply a.profile g.settings (g.incoming t r)).bearer.list.effects.map
        (·.id)).Nodup := by
      rw [hb.effects_refused hbefore hin hanswer]
      exact hb.keys.sublist (List.filter_sublist.map _)
    exact spares_of_left found found' hq hb.keys hkeys hbefore
      (hr' _ _ (World.bearer?_of_get? found')) he hleft hqueue
      (hb.events_refused hbefore hin hanswer hleft)

/-- **Which effects a rejected template spares**: all of them unless it has come to its start, and
then those that do not stand against it. -/
theorem spares_applyTemplate_iff (hg : g.Sound) (hq : g.queue.Sound)
    (hr : ∀ id b, g.world.bearer? id = some b → b.Reflected)
    (hr' : ∀ id b, (g.applyTemplate t r).1.world.bearer? id = some b → b.Reflected)
    (known : t ∈ g.codex.templates) (h : (g.applyTemplate t r).2 = .error refusal)
    (he : g.Bears r.target e) :
    g.Spares (g.applyTemplate t r).1 r.target e ↔
      ¬ (refusal.ofStart = true ∧ EffectList.isRival (g.incoming t r) e = true) := by
  cases passed : g.gate t r with
  | error cause =>
    rw [applyTemplate_of_error passed] at h ⊢
    obtain rfl := Except.error.inj h
    rw [Refusal.ofStart, ending?_of_gate passed]
    exact ⟨fun _ => by simp, fun _ => ⟨he, rfl, fun _ _ => .rfl⟩⟩
  | ok a =>
    have found := get?_of_gate passed
    have hmem := mem_of_bears found he
    rw [spares_iff_mem hg hq hr hr' known passed h hmem,
      (hg.bearer found).effects_refused (hr _ _ (World.bearer?_of_get? found))
        (incoming_incoming known) (applyTemplate_rejected passed h).1,
      List.mem_filter, and_iff_right hmem, Bool.not_eq_true', ← Bool.not_eq_true,
      Bool.and_eq_true]

/-- **What a rejected application costs its target**, after every run over an empty world: an effect
that was active before is spared, unless the application has been refused by its own start and the
effect stands against the incoming one. -/
theorem rejected_run (settings : Settings) (codex : Codex) (start : UInt64) (manual : Bool)
    (capacity : Nat) (ops : List Op) (r : Request) {refusal : Refusal} {e : Effect}
    (rejected : (((opened settings codex start manual capacity).run ops).apply r).2 =
      .error refusal)
    (active : ((opened settings codex start manual capacity).run ops).Bears r.target e) :
    let g := (opened settings codex start manual capacity).run ops
    g.Spares (g.apply r).1 r.target e ↔
      ¬ (refusal.ofStart = true ∧
        ∃ t, codex.get? r.template = some t ∧ EffectList.isRival (g.incoming t r) e = true) := by
  intro g
  have hg : g.Sound := sound_run (sound_opened settings codex start manual capacity) ops
  have hq : g.queue.Sound := (timed_run settings codex start manual capacity ops).queue
  have hr := (keeps_reflected codex settings).run start manual capacity
  have hcodex : g.codex = codex :=
    codex_steps (steps_run (sound_opened settings codex start manual capacity) ops)
  -- the application is one more operation of the run, so the invariant holds after it too
  have hr' := hr (ops ++ [.apply r])
  rw [run, List.foldl_append] at hr'
  have hperform : ∀ id b, (g.apply r).1.world.bearer? id = some b → b.Reflected := hr'
  have hrejected : (g.apply r).2 = .error refusal := rejected
  unfold apply at hrejected hperform ⊢
  rw [hcodex] at hrejected hperform ⊢
  cases hget : codex.get? r.template with
  | none =>
    rw [hget] at hrejected
    obtain rfl := Except.error.inj hrejected
    exact ⟨fun _ => by simp [Refusal.ofStart, Refusal.ending?],
      fun _ => ⟨active, rfl, fun _ _ => .rfl⟩⟩
  | some t =>
    simp only [hget] at hrejected hperform
    have hknown : t ∈ g.codex.templates := hcodex ▸ List.mem_of_find?_eq_some hget
    simpa using spares_applyTemplate_iff hg hq (hr ops) hperform hknown hrejected active

/-! ### A lift that is lost -/

/-- Lifts an actor for half a minute. -/
def lift : Template where
  id := ⟨1⟩
  name := "Lift"
  skill := ⟨1⟩
  kind := .liftHold
  abnormalType := .aerialYoke
  duration := 30

/-- Holds an actor for four ticks. -/
def hold : Template where
  id := ⟨2⟩
  name := "Hold"
  skill := ⟨2⟩
  kind := .paralyze
  abnormalType := .paralyze
  duration := 4
  tickInterval := 500

/-- Wins against a lift, but leaves those alone that are held already. -/
def greaterLift : Template where
  id := ⟨3⟩
  name := "Greater Lift"
  skill := ⟨3⟩
  kind := .liftHold
  abnormalType := .aerialYoke
  duration := 60
  priority := 1

/-- The three of them. -/
def liftCodex : Codex where
  templates := [lift, hold, greaterLift]
  ids_nodup := by decide
  routes_pos := by decide

/-- A player casts a template on a monster. -/
def atMonster (t : TemplateId) : Request := { template := t, caster := ⟨1⟩, target := ⟨7⟩ }

/-- A monster that has been lifted and then held. -/
def lifted : Engine :=
  (opened {} liftCodex 0 true 1).run
    [.enter 1, .spawn { id := ⟨7⟩, tags := .ofMonster }, .apply (atMonster ⟨1⟩),
      .apply (atMonster ⟨2⟩)]

/-- An effect of the player on the monster. -/
def onMonster (id : EffectId) (t : Template) (order : Nat) : Effect :=
  { Effect.ofCast id t ⟨1⟩ ⟨7⟩ none with order, phase := .active }

/-- The lift is lost to the greater one, which does not start, and the hold is spared. -/
theorem rejected_run_lifted :
    (lifted.apply (atMonster ⟨3⟩)).2 = .error (.vetoed ⟨3⟩) ∧
      ¬ lifted.Spares (lifted.apply (atMonster ⟨3⟩)).1 ⟨7⟩ (onMonster ⟨1⟩ lift 0) ∧
      lifted.Spares (lifted.apply (atMonster ⟨3⟩)).1 ⟨7⟩ (onMonster ⟨2⟩ hold 1) := by
  have hrejected : (lifted.apply (atMonster ⟨3⟩)).2 = .error (.vetoed ⟨3⟩) := by decide +kernel
  have hlift := rejected_run {} liftCodex 0 true 1 _ (atMonster ⟨3⟩) (e := onMonster ⟨1⟩ lift 0)
    hrejected ⟨_, rfl, rfl⟩
  have hhold := rejected_run {} liftCodex 0 true 1 _ (atMonster ⟨3⟩) (e := onMonster ⟨2⟩ hold 1)
    hrejected ⟨_, rfl, rfl⟩
  refine ⟨hrejected, fun hspared => ?_, hhold.2 ?_⟩
  · exact hlift.1 hspared ⟨rfl, greaterLift, rfl, by decide⟩
  · rintro ⟨-, t, ht, hrival⟩
    obtain rfl := Option.some.inj ht
    revert hrival
    decide

/-- **A rejection can cost its target an effect.**  The monster bears the lift, which has a timer for
its end; the greater lift is refused by its own start, and neither the lift nor its timer is left. -/
theorem rejected_lift :
    lifted.Bears ⟨7⟩ (onMonster ⟨1⟩ lift 0) ∧
      lifted.queue.expiryOf (⟨7⟩, ⟨1⟩) = some 30000 ∧
      (lifted.apply (atMonster ⟨3⟩)).2 = .error (.vetoed ⟨3⟩) ∧
      ¬ (lifted.apply (atMonster ⟨3⟩)).1.Bears ⟨7⟩ (onMonster ⟨1⟩ lift 0) ∧
      (lifted.apply (atMonster ⟨3⟩)).1.queue.expiryOf (⟨7⟩, ⟨1⟩) = none := by
  refine ⟨⟨_, rfl, rfl⟩, by decide +kernel, by decide +kernel, ?_, by decide +kernel⟩
  rintro ⟨b, hb, hget⟩
  obtain rfl := Option.some.inj hb
  cases hget

end Engine

end StatusEffects
