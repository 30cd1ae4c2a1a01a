/-!
# Table notation

The notation of settings files: lines that give a key a value, gathered under headings into tables.
This module holds what such a file amounts to and the rules by which lines and headings add to it.

## Main definitions

* `Table.Value` : what is kept of a value.
* `Table.Node` : a value, a table, or a list of tables that grows by headings.
* `Table.assign`, `Table.openTable`, `Table.openItem` : what a line and the two kinds of heading do.
-/

namespace StatusEffects.Text.Table

/-- What is kept of a value: whole numbers and truth values; the rest is only checked. -/
inductive Value where
  | whole (n : Int)
  | truth (b : Bool)
  | other
deriving DecidableEq, Repr

/-- How a table came into being. -/
inductive Origin where
  /-- Named on the way to another table. -/
  | implied
  /-- By a heading of its own. -/
  | headed
  /-- By a key with dots. -/
  | dotted
deriving DecidableEq, Repr

/-- What stands under a key. -/
inductive Node where
  | value (v : Value)
  | table (origin : Origin) (entries : List (String × Node))
  /-- Tables under a repeated heading, the newest first. -/
  | items (newest : List (String × Node)) (older : List (List (String × Node)))

/-- The entries of a table. -/
abbrev Entries := List (String × Node)

instance : Inhabited Node := ⟨.value .other⟩

/-- The node under a key. -/
def get? (es : Entries) (key : String) : Option Node := es.lookup key

/-- The entries with another node under a key. -/
def put (es : Entries) (key : String) (n : Node) : Entries :=
  if (get? es key).isSome then es.map fun e => if e.1 == key then (key, n) else e
  else es ++ [(key, n)]

/-- Changes the table at the end of a path. Tables missing on the way come into being with the
given origin; a key with dots does not lead into a table that has a heading of its own. -/
def descend (origin : Origin) (change : Origin → Entries → Option Entries) (here : Origin)
    (es : Entries) : (path : List String) → Option Entries
  | [] => change here es
  | key :: path =>
    match get? es key with
    | none => do
      let inner ← descend origin change origin [] path
      return put es key (.table origin inner)
    | some (.value _) => none
    | some (.table o inner) =>
      if origin = .dotted ∧ o = .headed then none
      else do
        let inner ← descend origin change o inner path
        return put es key (.table o inner)
    | some (.items newest older) => do
      let newest ← descend origin change .headed newest path
      return put es key (.items newest older)

/-- Gives a key a value, once. Behind dots the table must be one made by dots. -/
def assign (es : Entries) (path : List String) (key : String) (v : Value) : Option Entries :=
  descend .dotted (fun o inner =>
    if (path.isEmpty || o == .dotted) && (get? inner key).isNone then
      some (put inner key (.value v))
    else none) .headed es path

/-- Opens a table under a heading, once; one only named so far is opened too. -/
def openTable (es : Entries) (path : List String) (key : String) : Option Entries :=
  descend .implied (fun _ inner =>
    match get? inner key with
    | none => some (put inner key (.table .headed []))
    | some (.table .implied entries) => some (put inner key (.table .headed entries))
    | some _ => none) .headed es path

/-- Opens the next table under a repeated heading. -/
def openItem (es : Entries) (path : List String) (key : String) : Option Entries :=
  descend .implied (fun _ inner =>
    match get? inner key with
    | none => some (put inner key (.items [] []))
    | some (.items newest older) => some (put inner key (.items [] (newest :: older)))
    | some _ => none) .headed es path

/-- Gives a key a value in the table that a heading has opened. -/
def assignUnder (heading : List String) (es : Entries) (path : List String) (key : String)
    (v : Value) : Option Entries :=
  descend .implied (fun _ inner => assign inner path key v) .headed es heading

end StatusEffects.Text.Table
