import StatusEffects.Text.Numeral
import StatusEffects.Text.Table

/-!
# Plain values of the table notation

Values written without quotes or brackets: truth values, whole numbers, floating-point numbers,
dates and times. Of these only truth values and whole numbers are kept; the others are checked.

## Main definitions

* `Table.readWhole` : a whole number.
* `Table.isFloat`, `Table.isMoment` : whether a text is a floating-point number, or a date, a time
  or both.
* `Table.readPlain` : a value of any of these kinds.
-/

namespace StatusEffects.Text.Table

/-- The digits of a text in which every underscore stands between two of them. -/
def spacedDigits (isDigit : Char → Bool) : List Char → Option (List Char)
  | [] => none
  | [c] => if isDigit c then some [c] else none
  | c :: '_' :: cs => if isDigit c then (spacedDigits isDigit cs).map (c :: ·) else none
  | c :: cs => if isDigit c then (spacedDigits isDigit cs).map (c :: ·) else none

/-- A whole number in a base other than ten. -/
def readBased (base : Nat) (cs : List Char) : Option Nat :=
  (spacedDigits (fun c => (digitValue? c).any (· < base)) cs).bind (readDigits base)

/-- Decimal digits without needless zeros in front. -/
def readPlainDecimal (cs : List Char) : Option Nat := do
  let digits ← spacedDigits isDecimal cs
  if digits.head? = some '0' ∧ 1 < digits.length then none else readDigits 10 digits

/-- Whether a whole number can be represented at all: in 128 bits with a sign or without. -/
def representable (n : Int) : Bool :=
  decide (-(1 <<< 127 : Nat) ≤ n ∧ n < (1 <<< 128 : Nat))

/-- A whole number: decimal with or without a sign, or in another base without. -/
def readWhole (cs : List Char) : Option Int :=
  let n : Option Int := match cs with
    | '0' :: 'x' :: cs => (readBased 16 cs).map Int.ofNat
    | '0' :: 'o' :: cs => (readBased 8 cs).map Int.ofNat
    | '0' :: 'b' :: cs => (readBased 2 cs).map Int.ofNat
    | '-' :: cs => (readPlainDecimal cs).map fun n => -(n : Int)
    | '+' :: cs => (readPlainDecimal cs).map Int.ofNat
    | cs => (readPlainDecimal cs).map Int.ofNat
  n.filter representable

/-- A text less the sign in front. -/
def dropSign : List Char → List Char
  | '+' :: cs => cs
  | '-' :: cs => cs
  | cs => cs

/-- Whether a text is a point and digits, an exponent, or both. -/
def isFraction (cs : List Char) : Bool :=
  let isRun (cs : List Char) := (spacedDigits isDecimal cs).isSome
  let isExponent (cs : List Char) := match cs with
    | c :: cs => (c == 'e' || c == 'E') && isRun (dropSign cs)
    | [] => false
  match cs with
  | '.' :: cs =>
    let places := cs.takeWhile fun c => isDecimal c || c == '_'
    let rest := cs.drop places.length
    isRun places && (rest.isEmpty || isExponent rest)
  | cs => isExponent cs

/-- Whether a text is a floating-point number. A decimal must not round to infinity. -/
def isFloat (cs : List Char) : Bool :=
  let body := dropSign cs
  let whole := body.takeWhile fun c => isDecimal c || c == '_'
  body == "inf".toList || body == "nan".toList ||
    ((readPlainDecimal whole).isSome && isFraction (body.drop whole.length) &&
      (readDecimal (body.filter (· ≠ '_'))).any Binary64.isFinite)

/-! ### Dates and times -/

/-- A number of exactly `n` decimal digits and the text behind it. -/
def takeNumber (n : Nat) (cs : List Char) : Option (Nat × List Char) :=
  let digits := cs.take n
  if digits.length = n ∧ digits.all isDecimal then
    (readDigits 10 digits).map (·, cs.drop n)
  else none

/-- The text behind a character that must come first. -/
def expect (c : Char) : List Char → Option (List Char)
  | d :: cs => if c = d then some cs else none
  | [] => none

/-- Number of days of a month. -/
def daysIn (year month : Nat) : Nat :=
  if month = 2 then
    if year % 4 = 0 ∧ (year % 100 ≠ 0 ∨ year % 400 = 0) then 29 else 28
  else if month = 4 ∨ month = 6 ∨ month = 9 ∨ month = 11 then 30
  else 31

/-- The text behind a date. -/
def takeDate (cs : List Char) : Option (List Char) := do
  let (year, cs) ← takeNumber 4 cs
  let cs ← expect '-' cs
  let (month, cs) ← takeNumber 2 cs
  let cs ← expect '-' cs
  let (day, cs) ← takeNumber 2 cs
  if 1 ≤ month ∧ month ≤ 12 ∧ 1 ≤ day ∧ day ≤ daysIn year month then some cs else none

/-- The text behind hours and minutes. -/
def takeMinutes (cs : List Char) : Option (List Char) := do
  let (hour, cs) ← takeNumber 2 cs
  let cs ← expect ':' cs
  let (minute, cs) ← takeNumber 2 cs
  if hour ≤ 23 ∧ minute ≤ 59 then some cs else none

/-- The text behind seconds, which may have decimal places. -/
def takeSeconds (cs : List Char) : Option (List Char) := do
  let (second, cs) ← takeNumber 2 cs
  if 60 < second then none
  else
    match cs with
    | '.' :: places =>
      if places.head?.any isDecimal then some (places.dropWhile isDecimal) else none
    | _ => some cs

/-- The text behind a time of day, which may do without seconds. -/
def takeTime (cs : List Char) : Option (List Char) := do
  match ← takeMinutes cs with
  | ':' :: cs => takeSeconds cs
  | cs => some cs

/-- Whether a text is nothing or the distance from universal time. -/
def isOffset : List Char → Bool
  | [] => true
  | ['Z'] => true
  | ['z'] => true
  | c :: cs => (c == '+' || c == '-') && takeMinutes cs == some []

/-- Whether a text is a date, a time or both. -/
def isMoment (cs : List Char) : Bool :=
  takeTime cs == some [] ||
    match takeDate cs with
    | none => false
    | some [] => true
    | some (c :: cs) => (c == 'T' || c == 't' || c == ' ') && (takeTime cs).any isOffset

/-- A value written without quotes or brackets. -/
def readPlain (cs : List Char) : Option Value :=
  if cs == "true".toList then some (.truth true)
  else if cs == "false".toList then some (.truth false)
  else
    match readWhole cs with
    | some n => some (.whole n)
    | none => if isFloat cs || isMoment cs then some .other else none

end StatusEffects.Text.Table
