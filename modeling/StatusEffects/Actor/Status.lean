import StatusEffects.Actor
import StatusEffects.Stat.Stack

/-!
# Status of an actor

What the running effects do to an actor. Every entry carries the key of the effect that made it,
so that two effects never release each other's hold and releasing twice changes nothing.

## Main definitions

* `Status` : the entries of the four kinds.
* `Status.withdraw` : the status without the entries of one effect.
* `Status.bonusesTo`, `Status.shown`, `Status.isHeld` : what the entries amount to.
-/

namespace StatusEffects

/-- The visual effects shown on an actor. -/
def visualNames : FlagNames where
  width := 32
  names := ["PARALYZE", "LIFT_HOLD", "STUN", "ROOT", "SLEEP", "POISON", "BLEED", "FLAME",
    "SILENCE", "INVINCIBLE", "STEALTH", "MAGIC_CIRCLE"]

/-- A set of visual effects. -/
abbrev Visuals := FlagSet visualNames

/-- The visual of paralysis. -/
def Visuals.paralyze : Visuals := .single 0

/-- The visual of being held in the air. -/
def Visuals.liftHold : Visuals := .single 1

/-- The entries that running effects have made on an actor. -/
structure Status where
  /-- The effects that hold the actor in place. -/
  holds : List EffectId := []
  /-- The visuals shown, each with the effect that shows it. -/
  visuals : List (EffectId × Visuals) := []
  /-- The bonuses in force, each with the effect that grants it. -/
  bonuses : List (EffectId × StatBonus) := []
  /-- The appearance taken on, with the effect that gave it. -/
  form : Option (EffectId × UInt32) := none
deriving DecidableEq

namespace Status

instance : Inhabited Status := ⟨{}⟩

/-- The effect holds the actor in place; an effect holds at most once. -/
def hold (s : Status) (owner : EffectId) : Status :=
  if owner ∈ s.holds then s else { s with holds := s.holds ++ [owner] }

/-- The effect lets go of the actor. -/
def release (s : Status) (owner : EffectId) : Status :=
  { s with holds := s.holds.filter (· ≠ owner) }

/-- The effect shows a visual; showing none makes no entry. -/
def display (s : Status) (owner : EffectId) (visual : Visuals) : Status :=
  if visual.isEmpty then s else { s with visuals := s.visuals ++ [(owner, visual)] }

/-- The effect shows nothing any more. -/
def conceal (s : Status) (owner : EffectId) : Status :=
  { s with visuals := s.visuals.filter (·.1 ≠ owner) }

/-- The effect grants bonuses. -/
def grant (s : Status) (owner : EffectId) (bonuses : List StatBonus) : Status :=
  { s with bonuses := s.bonuses ++ bonuses.map (owner, ·) }

/-- The effect's bonuses end. -/
def revoke (s : Status) (owner : EffectId) : Status :=
  { s with bonuses := s.bonuses.filter (·.1 ≠ owner) }

/-- The effect gives the actor an appearance, in place of any other. -/
def transform (s : Status) (owner : EffectId) (form : UInt32) : Status :=
  { s with form := some (owner, form) }

/-- The actor's own appearance returns, if the effect is the one that changed it. -/
def restoreForm (s : Status) (owner : EffectId) : Status :=
  { s with form := s.form.filter (·.1 ≠ owner) }

/-- The status without any entry of the effect. -/
def withdraw (s : Status) (owner : EffectId) : Status :=
  (((s.release owner).conceal owner).revoke owner).restoreForm owner

/-! ### What the entries amount to -/

/-- Whether some effect holds the actor in place. -/
def isHeld (s : Status) : Bool := !s.holds.isEmpty

/-- All visuals shown on the actor. -/
def shown (s : Status) : Visuals := s.visuals.foldl (fun acc v => acc ∪ v.2) ∅

/-- The bonuses in force for one stat, in the order they were granted. -/
def bonusesTo (s : Status) (stat : Stat) : List Bonus :=
  s.bonuses.filterMap fun (_, b) => if b.stat = stat then some b.bonus else none

/-- The value of a stat with the given base and bounds. -/
def effective (s : Status) (stat : Stat) (base lo hi : Int32) : Except StatFault Int :=
  Stack.value (s.bonusesTo stat) base lo hi

/-- The appearance the actor has taken on. -/
def appearance (s : Status) : Option UInt32 := s.form.map (·.2)

/-- Whether no effect has left an entry. -/
def isClear (s : Status) : Bool :=
  s.holds.isEmpty && s.visuals.isEmpty && s.bonuses.isEmpty && s.form.isNone

theorem isClear_iff (s : Status) : s.isClear = true ↔ s = {} := by
  cases s
  simp [isClear, and_assoc]

theorem withdraw_withdraw (s : Status) (owner : EffectId) :
    (s.withdraw owner).withdraw owner = s.withdraw owner := by
  simp [withdraw, release, conceal, revoke, restoreForm, List.filter_filter, Option.filter_filter]

end Status

end StatusEffects
