import StatusEffects.FlagSet
import StatusEffects.Ident
import StatusEffects.Json
import StatusEffects.Named

/-!
# Decoding JSON

Functions that turn a value into something of the domain, or refuse it.

## Main definitions

* `Json.asWord`, `Json.asText`, … : values of one plain type.
* `Json.asNamed` : one of a closed list of alternatives.
* `Json.record` : the fields of a record.
* `Json.field`, `Json.fieldOr` : a field that must be there, and one with a default.
-/

namespace StatusEffects.Json

variable {α : Type}

/-- A text. -/
def asText : Json → Option String
  | text s => some s
  | _ => none

/-- A truth value. -/
def asTruth : Json → Option Bool
  | truth b => some b
  | _ => none

/-- A whole number within bounds. -/
def asWithin (lo hi : Int) : Json → Option Int
  | whole n => if lo ≤ n ∧ n ≤ hi then some n else none
  | _ => none

/-- A natural number that fits in 64 bits. -/
def asNat (j : Json) : Option Nat := (j.asWithin 0 (UInt64.size - 1)).map Int.toNat

/-- An unsigned number of 64 bits. -/
def asLongWord (j : Json) : Option UInt64 := j.asNat.map UInt64.ofNat

/-- An unsigned number of 32 bits. -/
def asWord (j : Json) : Option UInt32 :=
  (j.asWithin 0 (UInt32.size - 1)).map fun n => UInt32.ofNat n.toNat

/-- A signed number of 32 bits. -/
def asInt (j : Json) : Option Int32 :=
  (j.asWithin Int32.minValue.toInt Int32.maxValue.toInt).map Int32.ofInt

/-- A floating-point number; a whole one is rounded. -/
def asFloat : Json → Option Binary64
  | float x => some x
  | whole n => some (.ofDecimal (n < 0) n.natAbs 0)
  | _ => none

/-- A list of things of one kind. -/
def asList (d : Json → Option α) : Json → Option (List α)
  | list items => items.mapM d
  | _ => none

/-- Something, or null for nothing. -/
def asOption (d : Json → Option α) : Json → Option (Option α)
  | null => some none
  | j => (d j).map some

/-- One of a closed list of alternatives: its identifier, alone or over null. -/
def asNamed [Named α] : Json → Option α
  | text s => Named.ofIdent? s
  | object [(s, null)] => Named.ofIdent? s
  | _ => none

/-- A set of flags in its text form. -/
def asFlags {v : FlagNames} (j : Json) : Option (FlagSet v) := j.asText.bind FlagSet.parse?

/-- The key of an actor. -/
def asActor (j : Json) : Option ActorId := j.asWord.map .mk

/-- The key of a skill. -/
def asSkillId (j : Json) : Option SkillId := j.asWord.map .mk

/-- The key of a template. -/
def asTemplateId (j : Json) : Option TemplateId := j.asWord.map .mk

/-- The key of an effect. -/
def asEffectId (j : Json) : Option EffectId := j.asNat.map .mk

/-! ### Records -/

/-- The fields of a record: an object, or a list of the first fields in the given order. -/
def record (names : List String) : Json → Option Json
  | object fields => some (object fields)
  | list items =>
    if items.length ≤ names.length then some (object (names.zip items)) else none
  | _ => none

/-- A field that must be there. -/
def field (j : Json) (name : String) (d : Json → Option α) : Option α := (j.get? name).bind d

/-- A field that stands for a default where it is not there. -/
def fieldOr (j : Json) (name : String) (d : Json → Option α) (default : α) : Option α :=
  match j.get? name with
  | none => some default
  | some v => d v

end StatusEffects.Json
