import StatusEffects.Text.Identifier
import StatusEffects.Text.Numeral

/-!
# Record notation

The notation of catalogs and scenarios. A value is a text, a numeral, a name, a list in square
brackets, a map in braces, or a group in round brackets: a tuple of values or a record of named
fields, either with a name in front or without.

## Main definitions

* `Record.Value` : the values.
* `Record.Value.passable` : whether a value that nobody asks for can be passed over.
* `Record.plain` : a name without the mark that lets it hold signs and points.
-/

namespace StatusEffects.Text.Record

/-- A value of the notation. Numerals and names are kept as written, since only the place of a
numeral says which type of number it is. -/
inductive Value where
  | text (s : String)
  | numeral (run : List Char)
  /-- A character, or a string of bytes; nothing in the content uses them. -/
  | other
  /-- A pair of round brackets with nothing between them, not even a blank. -/
  | unit
  | name (n : String)
  | list (items : List Value)
  | map (entries : List (Value × Value))
  | tuple (head : Option String) (items : List Value)
  | record (head : Option String) (fields : List (String × Value))

instance : Inhabited Value := ⟨.other⟩

/-- A name without the mark `r#` in front of it. -/
def plain (n : String) : String :=
  match n.toList with
  | 'r' :: '#' :: cs => String.ofList cs
  | _ => n

/-- Whether a name is a word for a value of its own, with nothing in brackets behind it. -/
def isWord (n : String) : Bool :=
  ["true", "false", "None", "inf", "inff32", "inff64", "NaN", "NaNf32", "NaNf64"].contains n

namespace Value

mutual

/-- Whether a value that nobody asks for can be passed over, with some room left for nesting. A
bracket takes up one unit of room and each place in it another; `Some` takes up one, and has one
value in its brackets. -/
def passable (room : Nat) : Value → Bool
  | .text _ | .numeral _ | .other | .unit => true
  | .name n => n != "Some"
  | .list items => 0 < room && itemsPassable (room - 1) items
  | .map entries => 0 < room && entriesPassable (room - 1) entries
  | .tuple head items =>
    if head = some "Some" then items.length == 1 && itemsPassable room items
    else !head.any isWord && 0 < room && itemsPassable (room - 1) items
  | .record head fields =>
    !head.any (fun n => isWord n || n == "Some") && 0 < room && fieldsPassable (room - 1) fields

/-- Whether items with their places can be passed over. -/
def itemsPassable (room : Nat) : List Value → Bool
  | [] => true
  | v :: rest => 0 < room && passable (room - 1) v && itemsPassable room rest

/-- Whether the keys and values of entries with their places can be passed over. -/
def entriesPassable (room : Nat) : List (Value × Value) → Bool
  | [] => true
  | (k, v) :: rest =>
    0 < room && passable (room - 1) k && passable (room - 1) v && entriesPassable room rest

/-- Whether fields with their places can be passed over. -/
def fieldsPassable (room : Nat) : List (String × Value) → Bool
  | [] => true
  | (_, v) :: rest => 0 < room && passable (room - 1) v && fieldsPassable room rest

end

end Value

end StatusEffects.Text.Record
