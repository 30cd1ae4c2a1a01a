import StatusEffects.Binary64
import StatusEffects.Text.Digits

/-!
# Numerals

How content files write numbers. A whole number is decimal or, behind `0b`, `0o` or `0x`, in
another base; digits may be set apart by underscores; the name of a type may follow. A
floating-point number is a decimal with or without a point and an exponent, or one of the words
for infinity and for what is no number.

A numeral is read from the longest run of characters that could belong to one, and counts only if
all of the run is used.

## Main definitions

* `Word` : a type of whole numbers, by its name and range.
* `readWhole` : the number of a word type that a run stands for.
* `readFloat` : the floating-point number a run stands for.
* `isNumeral` : whether a run is a number of any type.
-/

namespace StatusEffects.Text

/-- A type of whole numbers: the name that may follow a numeral, and the least and the greatest
number. -/
structure Word where
  name : String
  least : Int
  greatest : Int
deriving DecidableEq, Repr

namespace Word

/-- Unsigned words of a number of bits. -/
def unsigned (bits : Nat) : Word := ⟨"u" ++ bits.repr, 0, (1 <<< bits : Nat) - 1⟩

/-- Signed words of a number of bits. -/
def signed (bits : Nat) : Word :=
  ⟨"i" ++ bits.repr, -(1 <<< (bits - 1) : Nat), (1 <<< (bits - 1) : Nat) - 1⟩

/-- Whether the type has the number. -/
def has (w : Word) (n : Int) : Bool := decide (w.least ≤ n ∧ n ≤ w.greatest)

end Word

/-- Whether a numeral may go on with the character. -/
def isNumeralRest (c : Char) : Bool :=
  c.isAlphanum || c == '_' || c == '.' || c == '+' || c == '-'

/-- Whether the digits of a whole number may go on with the character. -/
def isWholeRest (c : Char) : Bool := (digitValue? c).isSome || c == '_'

/-- Whether a decimal may go on with the character. -/
def isDecimalRest (c : Char) : Bool :=
  isDecimal c || c == 'e' || c == 'E' || c == '.' || c == '+' || c == '-' || c == '_'

/-! ### Whole numbers -/

/-- A sign in front of a numeral, and the rest of it. -/
def takeSign : List Char → Bool × List Char
  | '+' :: cs => (false, cs)
  | '-' :: cs => (true, cs)
  | cs => (false, cs)

/-- The digits of a base, set apart by underscores that do not come first. -/
def readSpaced (base : Nat) (cs : List Char) : Option Nat :=
  match cs with
  | [] => none
  | '_' :: _ => none
  | _ => readDigitsFrom base 0 (cs.filter (· ≠ '_'))

/-- A whole number without its sign. -/
def readMagnitude : List Char → Option Nat
  | '0' :: 'b' :: cs => readSpaced 2 cs
  | '0' :: 'o' :: cs => readSpaced 8 cs
  | '0' :: 'x' :: cs => readSpaced 16 cs
  | cs => readSpaced 10 cs

/-- A numeral without the name of the type behind it, and that name if there is one. -/
def takeTypeName (cs : List Char) : List Char × List Char :=
  let name := cs.dropWhile isWholeRest
  match name with
  | 'i' :: _ => (cs.takeWhile isWholeRest, name)
  | 'u' :: _ => (cs.takeWhile isWholeRest, name)
  | _ => (cs, [])

/-- The number of type `w` that a run stands for. -/
def readWhole (w : Word) (run : List Char) : Option Int := do
  let (negative, cs) := takeSign run
  let (digits, name) := takeTypeName cs
  let n ← readMagnitude digits
  let value : Int := if negative then -n else n
  if (name.isEmpty || name == w.name.toList) && w.has value then some value else none

/-! ### Floating-point numbers -/

/-- Whether every underscore of a decimal stands behind a digit, an exponent mark or another such
underscore. -/
def underscoresFit (allowed : Bool) : List Char → Bool
  | [] => true
  | '_' :: cs => allowed && underscoresFit allowed cs
  | c :: cs =>
    if isDecimal c || c == 'e' || c == 'E' then underscoresFit true cs
    else if c == '.' then underscoresFit false cs
    else underscoresFit allowed cs

/-- The exponent behind its mark: a sign and digits, or nothing at all. -/
def readExponent : List Char → Option Int
  | [] => some 0
  | c :: cs =>
    if c == 'e' || c == 'E' then
      let (negative, digits) := takeSign cs
      (readDigits 10 digits).map fun n => if negative then -n else n
    else none

/-- A decimal: an optional sign, digits before and after an optional point, at least one of them,
and an optional exponent. -/
def readDecimal (cs : List Char) : Option Binary64 := do
  let (negative, body) := takeSign cs
  let whole := body.takeWhile isDecimal
  let rest := body.dropWhile isDecimal
  let (places, rest) := match rest with
    | '.' :: more => (more.takeWhile isDecimal, more.dropWhile isDecimal)
    | _ => ([], rest)
  let digits ← readDigits 10 (whole ++ places)
  let exponent ← readExponent rest
  return .ofDecimal negative digits (exponent - places.length)

/-- The words for infinity and for what is no number, with a sign or without. -/
def floatWord? (text : String) : Option Binary64 :=
  match text with
  | "inf" | "+inf" => some .infinity
  | "-inf" => some Binary64.infinity.neg
  | "NaN" | "+NaN" => some .nan
  | "-NaN" => some Binary64.nan.neg
  | _ => none

/-- A run less the name of a type at its end. -/
def dropEnd (name : String) (run : List Char) : List Char :=
  if name.toList.isSuffixOf run then run.take (run.length - name.length) else run

/-- A decimal with underscores, all of it made of characters of decimals. -/
def readSpacedDecimal (cs : List Char) : Option Binary64 :=
  if cs.all isDecimalRest && underscoresFit false cs then readDecimal (cs.filter (· ≠ '_'))
  else none

/-- The floating-point number that a run stands for, with the name of its type or without. -/
def readFloat (name : String) (run : List Char) : Option Binary64 :=
  let body := dropEnd name run
  floatWord? (String.ofList body) <|> readSpacedDecimal body

/-- The types a whole number may name. -/
def wordTypes : List Word :=
  [8, 16, 32, 64].map Word.unsigned ++ [8, 16, 32, 64].map Word.signed

/-- Whether a run is a number of any type. -/
def isNumeral (run : List Char) : Bool :=
  (readFloat "f64" run).isSome || (readFloat "f32" run).isSome ||
    wordTypes.any fun w => (readWhole w run).isSome

end StatusEffects.Text
