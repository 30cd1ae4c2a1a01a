import StatusEffects.Proofs.Operations
import StatusEffects.Proofs.Shelves

/-!
# Bearers that keep their effects on shelves

The operations of a bearer once more, on effects that are kept on shelves: they look for effects
where the shelves happen to stand, take them off and put them back, and sort where the order of
application matters.  Step for step they do the same as the operations on a list: what they tell
and answer is the same, and what is on the shelves afterwards is what is in the list.

## Main definitions

* `Keeper` : effects on shelves together with the status they have made.
* `Keeper.apply`, `Keeper.dispel`, `Keeper.fire`, `Keeper.clear` : the operations.
* `Keeper.Mirrors` : a keeper has the effects and the status of a bearer.
* `Keeper.Stocked` : what the operations on an actor have made of a keeper and of a bearer.

## Main statements

* `Keeper.Mirrors.apply`, `Keeper.Mirrors.dispel`, `Keeper.Mirrors.fire`, `Keeper.Mirrors.clear` :
  an operation on a keeper mirrors the one on a bearer.
* `Keeper.Stocked.mirrors` : after the same operations a keeper mirrors the bearer.
-/

namespace StatusEffects

/-- An actor's effects on shelves and what they have done to it. -/
structure Keeper where
  shelves : Shelves
  status : Status := {}

namespace Keeper

/-- A keeper after an operation, the events of the operation in order, and its answer. -/
structure Outcome (α : Type) where
  keeper : Keeper
  events : List Event
  answer : α

/-- An actor without effects. -/
def fresh (owner : ActorId) : Keeper := ⟨⟨owner, ∅, 0⟩, {}⟩

/-- The actor's key. -/
def owner (k : Keeper) : ActorId := k.shelves.owner

/-! ### Operations -/

/-- Takes the effect with a key from its shelf and ends it, if there is one. -/
def drop (k : Keeper) (r : Arrangement) (id : EffectId) (reason : EndReason) :
    Keeper × List Event :=
  match k.shelves.take r id with
  | none => (k, [])
  | some (e, shelves) =>
    (⟨shelves, (e.exit k.status).2.1⟩, [.ended k.owner e.summary reason])

/-- Ends the effects with the given keys one after the other. -/
def dropAll (k : Keeper) (r : Arrangement) (reason : EndReason) :
    List EffectId → Keeper × List Event
  | [] => (k, [])
  | id :: rest =>
    let (k₁, first) := k.drop r id reason
    let (k₂, others) := k₁.dropAll r reason rest
    (k₂, first ++ others)

/-- Clears all shelves and ends what was on them, in the order of application. -/
def clear (k : Keeper) (reason : EndReason) : Outcome Nat where
  keeper :=
    ⟨{ k.shelves with table := ∅ }, k.shelves.iter.foldl (fun s e => (e.exit s).2.1) k.status⟩
  events := k.shelves.iter.map fun e => .ended k.owner e.summary reason
  answer := k.shelves.all.length

/-- Ends every effect that the selector aims at and the cause may remove. -/
def dispel (k : Keeper) (r : Arrangement) (settings : Settings) (selector : Selector)
    (cause : Cause) : Outcome Nat :=
  let aimed := k.shelves.iter.filter fun e =>
    selector.selects e && cause.permits e.template settings
  let (k', events) := k.dropAll r .dispelled (aimed.map (·.id))
  ⟨k', events, events.length⟩

/-- Starts an effect and puts it on its shelf. -/
def begin (k : Keeper) (r : Arrangement) (p : Profile) (settings : Settings) (incoming : Effect) :
    Outcome (Except Refusal Admission) :=
  let shelves := { k.shelves with nextOrder := k.shelves.nextOrder + 1 }
  match ({ incoming with order := k.shelves.nextOrder } : Effect).start p k.status with
  | (e, status, .ok true) =>
    ⟨⟨shelves.put r e, status⟩, [.started k.owner e.summary],
      .ok (.started e.id (e.timer? settings.expiryUnit))⟩
  | (e, status, .ok false) =>
    ⟨⟨shelves, status⟩, [.ended k.owner e.summary .vetoed], .error (.vetoed e.template.id)⟩
  | (e, status, .error cause) =>
    ⟨⟨shelves, status⟩, [.ended k.owner e.summary .faulted],
      .error (.startFailed e.template.id cause)⟩

/-- Starts an effect after ending the given rivals. -/
def replace (k : Keeper) (r : Arrangement) (p : Profile) (settings : Settings) (incoming : Effect)
    (rivals : List EffectId) : Outcome (Except Refusal Admission) :=
  let (k', losses) := k.dropAll r .superseded rivals
  let o := k'.begin r p settings incoming
  { o with events := losses ++ o.events }

/-- Applies an effect. -/
def apply (k : Keeper) (r : Arrangement) (p : Profile) (settings : Settings) (incoming : Effect) :
    Outcome (Except Refusal Admission) :=
  match k.shelves.renewable? incoming with
  | some e =>
    let renewed := e.refresh incoming.params settings.refreshAdoptsEnchant
    ⟨{ k with shelves := k.shelves.renew r incoming settings.refreshAdoptsEnchant },
      [.refreshed k.owner renewed.summary],
      .ok (.refreshed renewed.id (renewed.timer? settings.expiryUnit))⟩
  | none =>
    match k.shelves.holder? incoming with
    | some incumbent => ⟨k, [], .error (.outranked incoming.template.id incumbent)⟩
    | none =>
      let rivals := k.shelves.rivals incoming
      if settings.maxEffects.toNat ≤ k.shelves.size - rivals.length then
        ⟨k, [], .error (.full k.owner)⟩
      else k.replace r p settings incoming rivals

/-- Lets an effect tick in its place. It ends when the tick completes it or its duration is over. -/
def tick (k : Keeper) (r : Arrangement) (settings : Settings) (id : EffectId)
    (generation : UInt32) : Outcome Firing :=
  match k.shelves.get? id with
  | none => ⟨k, [], .stale⟩
  | some e =>
    if e.generation = generation ∧ e.isActive ∧ e.template.isPeriodic then
      let ticked := e.countTick
      let k' : Keeper := { k with shelves := k.shelves.set r id ticked }
      let event := Event.ticked k.owner ticked.summary ticked.params.power
      match if e.act && !ticked.isExhausted then ticked.timer? settings.expiryUnit else none with
      | some next => ⟨k', [event], .rescheduled next⟩
      | none =>
        let (k'', ends) := k'.drop r id .expired
        ⟨k'', event :: ends, .ended .expired⟩
    else ⟨k, [], .stale⟩

/-- Ends an effect whose duration is over. -/
def expire (k : Keeper) (r : Arrangement) (id : EffectId) (generation : UInt32) : Outcome Bool :=
  match k.shelves.get? id with
  | none => ⟨k, [], false⟩
  | some e =>
    if e.generation = generation ∧ e.isActive then
      let (k', ends) := k.drop r id .expired
      ⟨k', ends, true⟩
    else ⟨k, [], false⟩

/-- Fires a timer. -/
def fire (k : Keeper) (r : Arrangement) (settings : Settings) (t : Timer) : Outcome Firing :=
  match t.kind with
  | .tick => k.tick r settings t.effect t.generation
  | .expire =>
    let o := k.expire r t.effect t.generation
    ⟨o.keeper, o.events, if o.answer then .ended .expired else .stale⟩

/-! ### A keeper and a bearer -/

/-- The keeper has the effects of the bearer on its shelves, and its status. -/
structure Mirrors (k : Keeper) (b : Bearer) : Prop where
  holds : k.shelves.Holds b.list
  status : k.status = b.status

/-- An operation on a keeper has come to the same as one on a bearer. -/
structure Outcome.Mirrors {α : Type} (o : Outcome α) (o' : StatusEffects.Outcome α) : Prop where
  keeper : o.keeper.Mirrors o'.bearer
  events : o.events = o'.events
  answer : o.answer = o'.answer

theorem mirrors_fresh (owner : ActorId) : (fresh owner).Mirrors (.fresh owner) :=
  ⟨Shelves.holds_empty owner 0, rfl⟩

namespace Mirrors

variable {k : Keeper} {b : Bearer} {codex : Codex} {next : Nat} {id : ActorId} {x : EffectId}
  {settings : Settings} {incoming : Effect}

theorem owner (h : k.Mirrors b) : k.owner = b.owner := h.holds.owner

theorem drop (h : k.Mirrors b) (hb : b.Sound codex next id) (r : Arrangement) (x : EffectId)
    (reason : EndReason) :
    (k.drop r x reason).1.Mirrors (b.drop x reason).1 ∧
      (k.drop r x reason).2 = (b.drop x reason).2 := by
  simp only [Keeper.drop, Bearer.drop]
  cases hget : b.list.get? x with
  | none =>
    rw [h.holds.take_of_get?_none r hget]
    exact ⟨h, rfl⟩
  | some e =>
    obtain rfl := EffectList.id_of_get? hget
    obtain ⟨s, htake, hs⟩ := h.holds.take hb.keys r hget
    rw [htake]
    exact ⟨⟨hs, by simp only [Bearer.statusWithout, h.status]⟩, by simp only [h.owner]⟩

theorem dropAll (h : k.Mirrors b) (hb : b.Sound codex next id) (r : Arrangement)
    {reason : EndReason} (parting : reason.isParting = true) (ids : List EffectId) :
    (k.dropAll r reason ids).1.Mirrors (b.dropAll reason ids).1 ∧
      (k.dropAll r reason ids).2 = (b.dropAll reason ids).2 := by
  induction ids generalizing k b with
  | nil => exact ⟨h, rfl⟩
  | cons x rest ih =>
    obtain ⟨hfirst, hevents⟩ := h.drop hb r x reason
    obtain ⟨hrest, hothers⟩ := ih hfirst (hb.turns (Bearer.turns_drop b x parting))
    simp only [Keeper.dropAll, Bearer.dropAll]
    exact ⟨hrest, by rw [hevents, hothers]⟩

theorem clear (h : k.Mirrors b) (hb : b.Sound codex next id) (reason : EndReason) :
    (k.clear reason).Mirrors (b.clear reason) where
  keeper := by
    refine ⟨⟨h.holds.owner, h.holds.nextOrder, fun _ => rfl⟩, ?_⟩
    simp only [Keeper.clear, Bearer.clear, h.holds.iter_eq hb.ordered, h.status]
  events := by simp only [Keeper.clear, Bearer.clear, h.holds.iter_eq hb.ordered, h.owner]
  answer := (h.holds.all_perm hb.keys.of_map).length_eq

theorem dispel (h : k.Mirrors b) (hb : b.Sound codex next id) (r : Arrangement)
    (settings : Settings) (selector : Selector) (cause : Cause) :
    (k.dispel r settings selector cause).Mirrors (b.dispel settings selector cause) := by
  obtain ⟨hk, hevents⟩ := h.dropAll hb r (show EndReason.isParting .dispelled = true from rfl)
    ((b.list.effects.filter fun e =>
      selector.selects e && cause.permits e.template settings).map (·.id))
  simp only [Keeper.dispel, Bearer.dispel, h.holds.iter_eq hb.ordered]
  exact ⟨hk, hevents, congrArg List.length hevents⟩

theorem begin (h : k.Mirrors b) (r : Arrangement) (p : Profile) (settings : Settings)
    (incoming : Effect) :
    (k.begin r p settings incoming).Mirrors (b.begin p settings incoming) := by
  have hskip : Shelves.Holds { k.shelves with nextOrder := b.list.nextOrder + 1 } b.skipped :=
    ⟨h.holds.owner, rfl, h.holds.shelves⟩
  simp only [Keeper.begin, Bearer.begin, h.holds.nextOrder, h.status, h.owner]
  generalize ({ incoming with order := b.list.nextOrder } : Effect).start p b.status = started
  obtain ⟨e, status, made⟩ := started
  cases made with
  | error cause => exact ⟨⟨hskip, rfl⟩, rfl, rfl⟩
  | ok made =>
    cases made with
    | true => exact ⟨⟨hskip.put r e, rfl⟩, rfl, rfl⟩
    | false => exact ⟨⟨hskip, rfl⟩, rfl, rfl⟩

/-- **An application to a keeper** comes to the same as one to the bearer. -/
theorem apply (h : k.Mirrors b) (hb : b.Sound codex next id) (r : Arrangement) (p : Profile)
    (settings : Settings) (incoming : Effect) :
    (k.apply r p settings incoming).Mirrors (b.apply p settings incoming) := by
  simp only [Keeper.apply, Bearer.apply, h.holds.renewable?_eq, h.holds.holder?_eq hb.keys,
    h.holds.rivals_eq, h.holds.size_eq hb.keys.of_map, h.owner]
  cases hren : b.list.renewable? incoming with
  | some e =>
    have hholds := h.holds.renew hb.keys r settings.refreshAdoptsEnchant hren
    rw [← hb.renew_eq_update hren] at hholds
    exact ⟨⟨hholds, h.status⟩, rfl, rfl⟩
  | none =>
    cases b.list.holder? incoming with
    | some incumbent => exact ⟨h, rfl, rfl⟩
    | none =>
      simp only
      split_ifs
      · exact ⟨h, rfl, rfl⟩
      · obtain ⟨hleft, hlosses⟩ := h.dropAll hb r
          (show EndReason.isParting .superseded = true from rfl) (b.list.rivals incoming)
        have hbegin := hleft.begin r p settings incoming
        exact ⟨hbegin.keeper, congrArg₂ _ hlosses hbegin.events, hbegin.answer⟩

theorem tick (h : k.Mirrors b) (hb : b.Sound codex next id) (r : Arrangement)
    (settings : Settings) (x : EffectId) (generation : UInt32) :
    (k.tick r settings x generation).Mirrors (b.tick settings x generation) := by
  simp only [Keeper.tick, Bearer.tick, h.holds.get?_eq hb.keys, h.owner]
  cases hget : b.list.get? x with
  | none => exact ⟨h, rfl, rfl⟩
  | some e =>
    obtain rfl := EffectList.id_of_get? hget
    have hset : Mirrors { k with shelves := k.shelves.set r e.id e.countTick }
        { b with list := b.list.update e.id e.countTick } :=
      ⟨h.holds.set hb.keys r hget (Effect.same_countTick e), h.status⟩
    by_cases hcur : e.generation = generation ∧ e.isActive ∧ e.template.isPeriodic
    · simp only [if_pos hcur]
      generalize (if (e.act && !e.countTick.isExhausted) = true then
        e.countTick.timer? settings.expiryUnit else none) = asked
      cases asked with
      | some next => exact ⟨hset, rfl, rfl⟩
      | none =>
        have hb' := hb.update hget (Effect.same_countTick e)
        obtain ⟨hdrop, hends⟩ := hset.drop hb' r e.id .expired
        exact ⟨hdrop, congrArg _ hends, rfl⟩
    · simp only [if_neg hcur]
      exact ⟨h, rfl, rfl⟩

theorem expire (h : k.Mirrors b) (hb : b.Sound codex next id) (r : Arrangement) (x : EffectId)
    (generation : UInt32) :
    (k.expire r x generation).Mirrors (b.expire x generation) := by
  simp only [Keeper.expire, Bearer.expire, h.holds.get?_eq hb.keys]
  cases b.list.get? x with
  | none => exact ⟨h, rfl, rfl⟩
  | some e =>
    simp only
    split_ifs
    · obtain ⟨hdrop, hends⟩ := h.drop hb r x .expired
      exact ⟨hdrop, hends, rfl⟩
    · exact ⟨h, rfl, rfl⟩

/-- **A timer that fires for a keeper** comes to the same as for the bearer. -/
theorem fire (h : k.Mirrors b) (hb : b.Sound codex next id) (r : Arrangement)
    (settings : Settings) (t : Timer) :
    (k.fire r settings t).Mirrors (b.fire settings t) := by
  simp only [Keeper.fire, Bearer.fire]
  cases t.kind with
  | tick => exact h.tick hb r settings t.effect t.generation
  | expire =>
    have hexpire := h.expire hb r t.effect t.generation
    exact ⟨hexpire.keeper, hexpire.events, by rw [hexpire.answer]⟩

end Mirrors

/-! ### Histories -/

/-- What the same operations on one actor, before the next key, have made of a bearer and of a
keeper, whose shelves may be arranged anew with each operation. -/
inductive Stocked (codex : Codex) (settings : Settings) (id : ActorId) :
    Nat → Bearer → Keeper → Prop
  | fresh (next : Nat) : Stocked codex settings id next (.fresh id) (.fresh id)
  /-- Keys are handed out to others. -/
  | later {next next' : Nat} {b : Bearer} {k : Keeper} (h : Stocked codex settings id next b k)
      (le : next ≤ next') : Stocked codex settings id next' b k
  | apply {next : Nat} {b : Bearer} {k : Keeper} {incoming : Effect} (r : Arrangement) (p : Profile)
      (h : Stocked codex settings id next b k) (hin : incoming.Incoming codex next id) :
      Stocked codex settings id (next + 1) (b.apply p settings incoming).bearer
        (k.apply r p settings incoming).keeper
  | dispel {next : Nat} {b : Bearer} {k : Keeper} (r : Arrangement) (selector : Selector)
      (cause : Cause) (h : Stocked codex settings id next b k) :
      Stocked codex settings id next (b.dispel settings selector cause).bearer
        (k.dispel r settings selector cause).keeper
  | fire {next : Nat} {b : Bearer} {k : Keeper} (r : Arrangement) (t : Timer)
      (h : Stocked codex settings id next b k) :
      Stocked codex settings id next (b.fire settings t).bearer (k.fire r settings t).keeper
  /-- The actor is removed. -/
  | clear {next : Nat} {b : Bearer} {k : Keeper} (h : Stocked codex settings id next b k) :
      Stocked codex settings id next (b.clear .actorRemoved).bearer (k.clear .actorRemoved).keeper

namespace Stocked

variable {codex : Codex} {settings : Settings} {id : ActorId} {next : Nat} {b : Bearer}
  {k : Keeper}

/-- The bearer of a history is sound. -/
theorem sound (h : Stocked codex settings id next b k) : b.Sound codex next id := by
  induction h with
  | fresh next => exact Bearer.sound_fresh codex next id
  | later _ le ih => exact ih.mono le
  | apply _ p _ hin ih => exact ih.apply hin p settings
  | dispel _ selector cause _ ih => exact ih.turns (Bearer.turns_dispel _ settings selector cause)
  | fire _ t _ ih => exact ih.turns (Bearer.turns_fire _ settings t)
  | clear _ ih => exact ih.turns (Bearer.turns_clear _ rfl)

/-- **After the same operations a keeper mirrors the bearer.** -/
theorem mirrors (h : Stocked codex settings id next b k) : k.Mirrors b := by
  induction h with
  | fresh => exact mirrors_fresh id
  | later _ _ ih => exact ih
  | apply r p h _ ih => exact (ih.apply h.sound r p settings _).keeper
  | dispel r selector cause h ih => exact (ih.dispel h.sound r settings selector cause).keeper
  | fire r t h ih => exact (ih.fire h.sound r settings t).keeper
  | clear h ih => exact (ih.clear h.sound .actorRemoved).keeper

end Stocked

end Keeper

end StatusEffects
