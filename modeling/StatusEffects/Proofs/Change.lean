import StatusEffects.Bearer.Apply
import StatusEffects.Bearer.Timers
import StatusEffects.Proofs.Keyed
import Mathlib.Logic.Function.Iterate

/-!
# Changes of a bearer

Whatever is done to a bearer comes down to a chain of small changes, each told by exactly one
event.  A running effect ticks or ends by itself (`Bearer.Turn`); an incoming effect renews a
running one, starts, or comes to nothing (`Bearer.Arrival`).  What holds of a bearer through every
small change holds through every operation.

## Main definitions

* `Bearer.Turn`, `Bearer.Turns` : one change of a running effect, and a chain of them.
* `Bearer.Arrival` : the change an incoming effect makes once its rivals are gone.
* `Refusal.ending?` : what is told of an effect that is refused by its own start.

## Main statements

* `Bearer.turns_dropAll`, `Bearer.turns_clear`, `Bearer.turns_dispel`, `Bearer.turns_fire` : the
  operations on running effects are chains of turns, told by the events of the chain.
* `Bearer.apply_cases` : the four ways of an application.
-/

namespace StatusEffects

/-- Whether this is a reason for a running effect to end. -/
def EndReason.isParting : EndReason → Bool
  | .expired | .dispelled | .superseded | .actorRemoved => true
  | .vetoed | .faulted => false

namespace Effect

variable {e : Effect} {p : Profile} {s : Status} (hp : e.phase = .pending)

include hp

theorem start_made {s' : Status} (h : e.contribute p s = .made s') :
    e.start p s = ({ e with phase := .active }, s', .ok true) := by
  simp [start, hp, h]

theorem start_vetoed (h : e.contribute p s = .vetoed) :
    e.start p s = ({ e with phase := .exited }, s, .ok false) := by
  simp [start, hp, h]

theorem start_failed {cause : HookFault} (h : e.contribute p s = .failed cause) :
    e.start p s = ({ e with phase := .exited }, s.withdraw e.id, .error cause) := by
  simp [start, hp, h]

end Effect

namespace EffectList

theorem id_of_get? {l : EffectList} {id : EffectId} {e : Effect} (h : l.get? id = some e) :
    e.id = id := by
  simpa using List.find?_some h

theorem mem_of_get? {l : EffectList} {id : EffectId} {e : Effect} (h : l.get? id = some e) :
    e ∈ l.effects :=
  List.mem_of_find?_eq_some h

end EffectList

namespace Bearer

variable {p : Profile} {settings : Settings} {incoming : Effect}

/-- A change of a running effect, with the event that tells it. -/
inductive Turn : Bearer → Event → Bearer → Prop
  /-- The effect ticks. -/
  | tick {b : Bearer} {e : Effect} (found : b.list.get? e.id = some e)
      (periodic : e.template.isPeriodic = true) :
      Turn b (.ticked b.owner e.countTick.summary e.params.power)
        { b with list := b.list.update e.id e.countTick }
  /-- The effect ends. -/
  | finish {b : Bearer} {e : Effect} {reason : EndReason} (found : b.list.get? e.id = some e)
      (parting : reason.isParting = true) :
      Turn b (.ended b.owner e.summary reason) ⟨b.list.erase e.id, b.statusWithout e⟩

/-- A chain of turns, with the events that tell them in order. -/
inductive Turns : Bearer → List Event → Bearer → Prop
  | nil (b : Bearer) : Turns b [] b
  | cons {b b₁ b₂ : Bearer} {ev : Event} {events : List Event} :
      Turn b ev b₁ → Turns b₁ events b₂ → Turns b (ev :: events) b₂

theorem Turn.single {b b' : Bearer} {ev : Event} (h : b.Turn ev b') : b.Turns [ev] b' :=
  .cons h (.nil b')

theorem Turns.append {b b₁ b₂ : Bearer} {events others : List Event} (h : b.Turns events b₁)
    (h' : b₁.Turns others b₂) : b.Turns (events ++ others) b₂ := by
  induction h with
  | nil => exact h'
  | cons ht _ ih => exact .cons ht (ih h')

/-- Whatever effect there is after a chain of turns was there before, and has at most ticked. -/
theorem Turns.exists_iterate {b b' : Bearer} {events : List Event} (h : b.Turns events b')
    {x : Effect} (hx : x ∈ b'.list.effects) :
    ∃ y ∈ b.list.effects, ∃ n, x = Effect.countTick^[n] y := by
  induction h with
  | nil => exact ⟨x, hx, 0, rfl⟩
  | cons ht _ ih =>
    obtain ⟨y, hy, n, rfl⟩ := ih hx
    cases ht with
    | @tick e found _ =>
      rcases mem_updateFirst hy with hy | ⟨_, -, rfl⟩
      · exact ⟨y, hy, n, rfl⟩
      · exact ⟨e, EffectList.mem_of_get? found, n + 1, rfl⟩
    | finish => exact ⟨y, List.mem_of_mem_eraseP hy, n, rfl⟩

/-- The incoming effect as it runs behind all the others. -/
def begun (b : Bearer) (incoming : Effect) : Effect :=
  { incoming with order := b.list.nextOrder, phase := .active }

/-- The list after a place in the order of application has been used up. -/
def skipped (b : Bearer) : EffectList := { b.list with nextOrder := b.list.nextOrder + 1 }

/-- The change an incoming effect makes, with the event that tells it. -/
inductive Arrival (p : Profile) (settings : Settings) (incoming : Effect) :
    Bearer → Event → Bearer → Prop
  /-- It renews an effect. -/
  | renew {b : Bearer} {e : Effect} (found : b.list.renewable? incoming = some e) :
      Arrival p settings incoming b
        (.refreshed b.owner (e.refresh incoming.params settings.refreshAdoptsEnchant).summary)
        { b with
          list := b.list.update e.id (e.refresh incoming.params settings.refreshAdoptsEnchant) }
  /-- It starts, where no effect competes with it and there is room for one more. -/
  | start {b : Bearer} {s : Status} (unclaimed : b.list.renewable? incoming = none)
      (unrivalled : b.list.rivals incoming = [])
      (room : b.list.size < settings.maxEffects.toNat)
      (made : incoming.contribute p b.status = .made s) :
      Arrival p settings incoming b (.started b.owner incoming.summary)
        ⟨{ b.skipped with effects := b.list.effects ++ [b.begun incoming] }, s⟩
  /-- It refuses to start. -/
  | veto {b : Bearer} (vetoed : incoming.contribute p b.status = .vetoed) :
      Arrival p settings incoming b (.ended b.owner incoming.summary .vetoed) ⟨b.skipped, b.status⟩
  /-- Its start fails. -/
  | fail {b : Bearer} {cause : HookFault}
      (failed : incoming.contribute p b.status = .failed cause) :
      Arrival p settings incoming b (.ended b.owner incoming.summary .faulted)
        ⟨b.skipped, b.status.withdraw incoming.id⟩

/-! ### Operations on running effects -/

theorem turns_drop (b : Bearer) (id : EffectId) {reason : EndReason}
    (h : reason.isParting = true) : b.Turns (b.drop id reason).2 (b.drop id reason).1 := by
  simp only [drop]
  cases hget : b.list.get? id with
  | none => exact .nil b
  | some e =>
    obtain rfl := EffectList.id_of_get? hget
    exact (Turn.finish hget h).single

theorem turns_dropAll (b : Bearer) {reason : EndReason} (h : reason.isParting = true)
    (ids : List EffectId) : b.Turns (b.dropAll reason ids).2 (b.dropAll reason ids).1 := by
  induction ids generalizing b with
  | nil => exact .nil b
  | cons id rest ih => exact (turns_drop b id h).append (ih _)

/-- Ending every effect at once is ending one after the other, in the order of application. -/
theorem turns_clear (b : Bearer) {reason : EndReason} (h : reason.isParting = true) :
    b.Turns (b.clear reason).events (b.clear reason).bearer := by
  obtain ⟨⟨owner, effects, next⟩, status⟩ := b
  induction effects generalizing status with
  | nil => exact .nil _
  | cons e rest ih =>
    have hget : EffectList.get? ⟨owner, e :: rest, next⟩ e.id = some e := by
      simp [EffectList.get?]
    have hturn := Turn.finish (b := ⟨⟨owner, e :: rest, next⟩, status⟩) hget h
    -- the rest of the list is what is left to be cleared
    have herase : EffectList.erase ⟨owner, e :: rest, next⟩ e.id = ⟨owner, rest, next⟩ := by
      simp [EffectList.erase]
    rw [herase] at hturn
    exact .cons hturn (ih _)

theorem turns_dispel (b : Bearer) (settings : Settings) (selector : Selector) (cause : Cause) :
    b.Turns (b.dispel settings selector cause).events (b.dispel settings selector cause).bearer :=
  turns_dropAll b rfl _

theorem turns_tick (b : Bearer) (settings : Settings) (id : EffectId) (generation : UInt32) :
    b.Turns (b.tick settings id generation).events (b.tick settings id generation).bearer := by
  simp only [tick]
  cases hget : b.list.get? id with
  | none => exact .nil b
  | some e =>
    obtain rfl := EffectList.id_of_get? hget
    by_cases hcur : e.generation = generation ∧ e.isActive ∧ e.template.isPeriodic
    · have hturn := Turn.tick hget hcur.2.2
      simp only [hcur, and_self, if_true]
      split
      · exact hturn.single
      · exact .cons hturn (turns_drop _ _ rfl)
    · simp only [hcur, if_false]
      exact .nil b

theorem turns_expire (b : Bearer) (id : EffectId) (generation : UInt32) :
    b.Turns (b.expire id generation).events (b.expire id generation).bearer := by
  simp only [expire]
  cases hget : b.list.get? id with
  | none => exact .nil b
  | some e =>
    simp only
    split_ifs
    · exact turns_drop b id rfl
    · exact .nil b

theorem turns_fire (b : Bearer) (settings : Settings) (t : Timer) :
    b.Turns (b.fire settings t).events (b.fire settings t).bearer := by
  simp only [fire]
  cases t.kind with
  | tick => exact turns_tick b settings _ _
  | expire => exact turns_expire b _ _

/-! ### Starting an effect -/

section Begin

variable {b : Bearer} (hp : incoming.phase = .pending)

include hp

theorem begin_made {s : Status} (h : incoming.contribute p b.status = .made s) :
    b.begin p settings incoming =
      ⟨⟨{ b.skipped with effects := b.list.effects ++ [b.begun incoming] }, s⟩,
        [.started b.owner incoming.summary],
        .ok (.started incoming.id ((b.begun incoming).timer? settings.expiryUnit))⟩ := by
  simp only [begin, Effect.start_made (e := { incoming with order := b.list.nextOrder }) hp h]
  rfl

theorem begin_vetoed (h : incoming.contribute p b.status = .vetoed) :
    b.begin p settings incoming =
      ⟨⟨b.skipped, b.status⟩, [.ended b.owner incoming.summary .vetoed],
        .error (.vetoed incoming.template.id)⟩ := by
  simp only [begin, Effect.start_vetoed (e := { incoming with order := b.list.nextOrder }) hp h]
  rfl

theorem begin_failed {cause : HookFault} (h : incoming.contribute p b.status = .failed cause) :
    b.begin p settings incoming =
      ⟨⟨b.skipped, b.status.withdraw incoming.id⟩, [.ended b.owner incoming.summary .faulted],
        .error (.startFailed incoming.template.id cause)⟩ := by
  simp only [begin, Effect.start_failed (e := { incoming with order := b.list.nextOrder }) hp h]
  rfl

end Begin

end Bearer

/-! ### Applying an effect -/

/-- The end that is told of an effect that is refused because it does not start. -/
def Refusal.ending? : Refusal → Option EndReason
  | .vetoed _ => some .vetoed
  | .startFailed _ _ => some .faulted
  | .templateNotFound _ | .actorNotFound _ | .actorIneligible _ _ | .conditionFailed _
  | .outranked _ _ => none

namespace Bearer

section Apply

variable {b : Bearer}

/-- An effect that is there to be renewed is renewed. -/
theorem apply_of_renewable? {e : Effect} (h : b.list.renewable? incoming = some e) :
    b.apply p settings incoming =
      ⟨{ b with list := b.list.renew incoming settings.refreshAdoptsEnchant },
        [.refreshed b.owner (e.refresh incoming.params settings.refreshAdoptsEnchant).summary],
        .ok (.refreshed e.id ((e.refresh incoming.params settings.refreshAdoptsEnchant).timer?
          settings.expiryUnit))⟩ := by
  simp only [apply, h]
  rfl

variable (unclaimed : b.list.renewable? incoming = none)

include unclaimed

/-- An effect that loses against one in place is turned away. -/
theorem apply_of_holder? {incumbent : EffectId} (h : b.list.holder? incoming = some incumbent) :
    b.apply p settings incoming =
      ⟨b, [], .error (.outranked incoming.template.id incumbent)⟩ := by
  simp only [apply, unclaimed, h]

variable (uncontested : b.list.holder? incoming = none)

include uncontested

/-- An effect is turned away if there is no room even after its rivals have ended. -/
theorem apply_of_full
    (full : settings.maxEffects.toNat ≤ b.list.size - (b.list.rivals incoming).length) :
    b.apply p settings incoming = ⟨b, [], .error (.full b.owner)⟩ := by
  simp only [apply, unclaimed, uncontested, if_pos full]

/-- Otherwise it goes on to replace its rivals. -/
theorem apply_of_room
    (room : b.list.size - (b.list.rivals incoming).length < settings.maxEffects.toNat) :
    b.apply p settings incoming = b.replace p settings incoming (b.list.rivals incoming) := by
  simp only [apply, unclaimed, uncontested, if_neg (Nat.not_le.2 room)]

end Apply

/-- **The ways of an application.**  It is turned away and changes nothing, it renews an effect, or
it goes on to replace its rivals, all of which it wins against. -/
theorem apply_cases (b : Bearer) (p : Profile) (settings : Settings) (incoming : Effect) :
    (∃ refusal, refusal.ending? = none ∧
      b.apply p settings incoming = ⟨b, [], .error refusal⟩) ∨
    (∃ e renewed, b.list.renewable? incoming = some e ∧
      renewed = e.refresh incoming.params settings.refreshAdoptsEnchant ∧
      b.apply p settings incoming =
        ⟨{ b with list := b.list.renew incoming settings.refreshAdoptsEnchant },
          [.refreshed b.owner renewed.summary],
          .ok (.refreshed renewed.id (renewed.timer? settings.expiryUnit))⟩) ∨
    (b.list.renewable? incoming = none ∧ b.list.holder? incoming = none ∧
      b.list.size - (b.list.rivals incoming).length < settings.maxEffects.toNat ∧
      b.apply p settings incoming = b.replace p settings incoming (b.list.rivals incoming)) := by
  cases unclaimed : b.list.renewable? incoming with
  | some e => exact .inr (.inl ⟨e, _, rfl, rfl, apply_of_renewable? unclaimed⟩)
  | none =>
    cases uncontested : b.list.holder? incoming with
    | some incumbent => exact .inl ⟨_, rfl, apply_of_holder? unclaimed uncontested⟩
    | none =>
      rcases Nat.lt_or_ge (b.list.size - (b.list.rivals incoming).length)
        settings.maxEffects.toNat with room | full
      · exact .inr (.inr ⟨rfl, rfl, room, apply_of_room unclaimed uncontested room⟩)
      · exact .inl ⟨_, rfl, apply_of_full unclaimed uncontested full⟩

end Bearer

end StatusEffects
