import StatusEffects.Ident
import StatusEffects.Named
import StatusEffects.FlagSet
import StatusEffects.Text.Record

/-!
# Decoding values of the record notation

A decoder turns a value into something of the domain, or refuses it. Values nested too deep are
refused: a decoder is told how much room is left, and every bracket and every place in one takes up
one unit of it.

## Main definitions

* `Decoder` : a function from room and value to a result.
* `Decoder.fields` : decodes a record, whose fields may stand in any order; fields that are not
  known are passed over.
-/

namespace StatusEffects.Content

open Text Text.Record

/-- The room of a whole text. -/
def textRoom : Nat := 128

/-- A way to understand values with some room left. -/
abbrev Decoder (α : Type) := (room : Nat) → Value → Option α

namespace Decoder

variable {α : Type}

/-- A text. -/
def text : Decoder String := fun _ v =>
  match v with
  | .text s => some s
  | _ => none

/-- A truth value. -/
def truth : Decoder Bool := fun _ v =>
  match v with
  | .name "true" => some true
  | .name "false" => some false
  | _ => none

/-- A whole number of a word type. -/
def whole (w : Word) : Decoder Int := fun _ v =>
  match v with
  | .numeral run => readWhole w run
  | _ => none

/-- An unsigned number of 32 bits. -/
def word32 : Decoder UInt32 := fun room v =>
  (whole (.unsigned 32) room v).map fun n => UInt32.ofNat n.toNat

/-- An unsigned number of 64 bits. -/
def word64 : Decoder UInt64 := fun room v =>
  (whole (.unsigned 64) room v).map fun n => UInt64.ofNat n.toNat

/-- A signed number of 32 bits. -/
def int32 : Decoder Int32 := fun room v => (whole (.signed 32) room v).map Int32.ofInt

/-- A floating-point number. -/
def float : Decoder Binary64 := fun _ v =>
  match v with
  | .numeral run => readFloat "f64" run
  | .name n => floatWord? (String.ofList (dropEnd "f64" n.toList))
  | _ => none

/-- A set of flags, written as a text. -/
def flags (names : FlagNames) : Decoder (FlagSet names) := fun room v =>
  (text room v).bind FlagSet.parse?

/-- One of the alternatives of a closed list, written as its identifier. -/
def named [Named α] : Decoder α := fun room v =>
  match v with
  | .name n => if 2 ≤ room then Named.ofIdent? (plain n) else none
  | _ => none

/-- A value in round brackets, with the given name in front or none. -/
def wrapped (name : String) (d : Decoder α) : Decoder α := fun room v =>
  match v with
  | .tuple head [inner] =>
    if (head.all fun h => plain h == name) && 0 < room then d (room - 1) inner else none
  | _ => none

/-- A value that may be missing: `None`, or the value behind `Some`. -/
def option (d : Decoder α) : Decoder (Option α) := fun room v =>
  match v with
  | .name "None" => some none
  | .tuple (some "Some") [inner] => if 0 < room then (d (room - 1) inner).map some else none
  | _ => none

/-- A list in square brackets. -/
def list (d : Decoder α) : Decoder (List α) := fun room v =>
  match v with
  | .list items =>
    if 1 + (if items.isEmpty then 0 else 1) ≤ room then items.mapM (d (room - 2)) else none
  | _ => none

/-- The fields of a record, with the given name in front or none. -/
def record (name : String) : Value → Option (List (String × Value))
  | .record head fields => if head.all fun h => plain h == name then some fields else none
  | .tuple head [] => if head.all fun h => plain h == name then some [] else none
  | _ => none

/-- A field that must be there, once. -/
def required (fields : List (String × Value)) (room : Nat) (name : String) (d : Decoder α) :
    Option α :=
  match fields.filter (·.1 == name) with
  | [(_, v)] => d room v
  | _ => none

/-- A field that may be there, once; where it is not, a default stands in. -/
def optional (fields : List (String × Value)) (room : Nat) (name : String) (d : Decoder α)
    (default : α) : Option α :=
  match fields.filter (·.1 == name) with
  | [] => some default
  | [(_, v)] => d room v
  | _ => none

/-- Whether the fields that are not known can be passed over with the room there is. -/
def othersFit (fields : List (String × Value)) (room : Nat) (known : List String) : Bool :=
  fields.all fun (n, v) => known.contains n || v.passable room

/-- The fields of a record in brackets; what is known of them is decoded with the room left in
their places. -/
def body (known : List String) (d : List (String × Value) → (room : Nat) → Option α) (room : Nat)
    (fs : List (String × Value)) : Option α :=
  if 1 + (if fs.isEmpty then 0 else 1) ≤ room && othersFit fs (room - 2) known then
    d fs (room - 2)
  else none

/-- A record with the given name in front or none. -/
def fields (name : String) (known : List String)
    (d : List (String × Value) → (room : Nat) → Option α) : Decoder α := fun room v =>
  (record name v).bind (body known d room)

end Decoder

/-- The key of an actor. -/
def actorId : Decoder ActorId := .wrapped "ActorId" fun room v => (Decoder.word32 room v).map .mk

/-- The key of a skill. -/
def skillId : Decoder SkillId := .wrapped "SkillId" fun room v => (Decoder.word32 room v).map .mk

/-- The key of a template. -/
def templateId : Decoder TemplateId :=
  .wrapped "TemplateId" fun room v => (Decoder.word32 room v).map .mk

/-- The key of an effect. -/
def effectId : Decoder EffectId :=
  .wrapped "EffectId" fun room v => (Decoder.word64 room v).map fun n => ⟨n.toNat⟩

end StatusEffects.Content
