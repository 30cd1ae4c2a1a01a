import StatusEffects.Binary64
import StatusEffects.Text.Digits

/-!
# JSON

The notation in which templates, events and requests are exchanged. A number is whole or a
floating-point number; the fields of an object keep their order, and of several with one name the
last counts.

## Main definitions

* `Json` : the values.
* `Json.get?` : a field of an object.
* `Json.render` : a value as text, without blanks.
-/

namespace StatusEffects

/-- A value of the notation. -/
inductive Json where
  | null
  | truth (b : Bool)
  | whole (n : Int)
  | float (x : Binary64)
  | text (s : String)
  | list (items : List Json)
  | object (fields : List (String × Json))

namespace Json

instance : Inhabited Json := ⟨null⟩

/-- A field of an object. -/
def get? (key : String) : Json → Option Json
  | object fields =>
    fields.foldl (fun found f => if f.1 == key then some f.2 else found) none
  | _ => none

/-- A natural number. -/
def nat (n : Nat) : Json := whole n

/-- An unsigned number of 32 bits. -/
def word (n : UInt32) : Json := nat n.toNat

/-- An unsigned number of 64 bits. -/
def longWord (n : UInt64) : Json := nat n.toNat

/-- A signed number of 32 bits. -/
def int (n : Int32) : Json := whole n.toInt

/-- Something that may be missing. -/
def orNull {α : Type} (f : α → Json) : Option α → Json
  | some a => f a
  | none => null

/-! ### Text form -/

/-- A control character as an escape of four hexadecimal digits. -/
def escapedCode (c : Char) : String :=
  let digits := Text.hex c.toNat
  "\\u" ++ String.ofList (List.replicate (4 - digits.length) '0') ++ digits

/-- A character between quotes. -/
def escaped (c : Char) : String :=
  if c = '"' then "\\\"" else if c = '\\' then "\\\\"
  else if c.toNat < 32 then escapedCode c
  else String.singleton c

/-- A text in quotes. -/
def quoted (s : String) : String := "\"" ++ String.join (s.toList.map escaped) ++ "\""

/-- The decimals of a proper fraction of one, counted in least positive floating-point numbers.
There are at most a thousand and seventy-four of them, since each halving adds one. -/
def places (units : Nat) : List Char :=
  let digits := (units * Nat.pow 5 1074).repr.toList
  let padded := List.replicate (1074 - digits.length) '0' ++ digits
  (padded.reverse.dropWhile (· = '0')).reverse

/-- A multiple of the least positive floating-point number with all of its decimals, and with one
if it has none. -/
def decimals (units : Nat) : String :=
  let fraction := places (units % Binary64.leastPerUnit)
  (units / Binary64.leastPerUnit).repr ++ "." ++
    String.ofList (if fraction.isEmpty then ['0'] else fraction)

/-- A floating-point number; there is no form for infinity and for what is no number. -/
def decimal (x : Binary64) : String :=
  if x.isFinite then (if x.isNegative then "-" else "") ++ decimals x.leastUnits else "null"

mutual

/-- A value as text, without blanks. -/
def render : Json → String
  | null => "null"
  | truth b => if b then "true" else "false"
  | whole n => toString n
  | float x => decimal x
  | text s => quoted s
  | list items => "[" ++ ",".intercalate (renderItems items) ++ "]"
  | object fields => "\x7b" ++ ",".intercalate (renderFields fields) ++ "\x7d"

/-- The texts of the items of a list. -/
def renderItems : List Json → List String
  | [] => []
  | j :: rest => render j :: renderItems rest

/-- The texts of the fields of an object. -/
def renderFields : List (String × Json) → List String
  | [] => []
  | (name, j) :: rest => (quoted name ++ ":" ++ render j) :: renderFields rest

end

end Json

end StatusEffects
