import StatusEffects.Json

/-!
# Reading JSON

A number without a point and an exponent is whole as long as it fits in a word of 64 bits, signed
or unsigned. Any other is a floating-point number: its digits are taken as far as they fit in 64
bits and rounded, and then multiplied or divided by the rounded power of ten. That is three
roundings at most, and the number can be one or two off the nearest.

## Main definitions

* `Json.readNumber` : a number and the text behind it.
* `Json.readValue` : a value and the text behind it.
* `Json.read` : the value that is the whole of a text.
-/

namespace StatusEffects.Json

open Text

/-! ### Numbers -/

/-- The greatest power of ten that a finite number can stand for. -/
def greatestPower : Nat := 308

/-- A power of ten, rounded. -/
def power (exponent : Nat) : Binary64 := .ofDecimal false 1 exponent

/-- A magnitude times a power of ten, or nothing if that is too great. Where the power is below
every number, the magnitude is divided by the greatest power first, at most `fuel` times: no
magnitude of 64 bits is left after the second time. -/
def scaleBy (x : Binary64) (exponent : Int) : (fuel : Nat) → Option Binary64
  | 0 => some .zero
  | fuel + 1 =>
    if exponent.natAbs ≤ greatestPower then
      if exponent < 0 then some (x.dividedBy (power exponent.natAbs))
      else (some (x.times (power exponent.natAbs))).filter (·.isFinite)
    else if x = .zero then some .zero
    else if 0 < exponent then none
    else scaleBy (x.dividedBy (power greatestPower)) (exponent + greatestPower) fuel

/-- The number that the digits on one side of the point make up together with those before them. -/
structure Significand where
  value : Nat
  /-- How many of the digits went into the number. -/
  taken : Nat := 0
  /-- How many did not fit any more. -/
  dropped : Nat := 0

namespace Significand

/-- The significand with one more digit. Once a digit does not fit, no later one goes in. -/
def push (s : Significand) (c : Char) : Significand :=
  let next := s.value * 10 + ((digitValue? c).getD 0)
  if s.dropped = 0 ∧ next < UInt64.size then { s with value := next, taken := s.taken + 1 }
  else { s with dropped := s.dropped + 1 }

/-- The significand with the digits behind the point, and the power of ten that it is to be
multiplied by. -/
def pushPlaces (s : Significand) (digits : List Char) : Significand × Int :=
  let s' := digits.foldl push { value := s.value }
  (s', (s.dropped : Int) - s'.taken)

end Significand

/-- The exponent behind its mark and the text behind it; without a mark there is none. -/
def readExponent (cs : List Char) : Option (Option Int × List Char) :=
  match cs with
  | c :: rest =>
    if c == 'e' || c == 'E' then
      let (negative, rest) := match rest with
        | '+' :: r => (false, r)
        | '-' :: r => (true, r)
        | r => (false, r)
      (readDigits 10 (rest.takeWhile isDecimal)).map fun n =>
        (some (if negative then -n else n), rest.dropWhile isDecimal)
    else some (none, cs)
  | [] => some (none, [])

/-- The digits behind the point, if there is one. -/
def takePlaces (cs : List Char) : Option (List Char) × List Char :=
  match cs with
  | '.' :: rest => (some (rest.takeWhile isDecimal), rest.dropWhile isDecimal)
  | _ => (none, cs)

/-- A number without a point and an exponent. -/
def wholeNumber (negative : Bool) (s : Significand) : Option Json :=
  if 0 < s.dropped then (scaleBy (.ofDecimal false s.value 0) s.dropped 3).map fun x =>
    float (if negative then x.neg else x)
  else if negative && (s.value == 0 || decide (-(s.value : Int) < Int64.minValue.toInt)) then
    some (float (.ofDecimal true s.value 0))
  else some (whole (if negative then -s.value else s.value))

/-- A number and the text behind it. -/
def readNumber (cs : List Char) : Option (Json × List Char) := do
  let (negative, body) := match cs with
    | '-' :: rest => (true, rest)
    | rest => (false, rest)
  let digits := body.takeWhile isDecimal
  if digits.isEmpty || (1 < digits.length && digits.head? == some '0') then none
  else
    let s := digits.foldl Significand.push { value := 0 }
    let (places, rest) := takePlaces (body.dropWhile isDecimal)
    let (exponent, rest) ← readExponent rest
    match places, exponent with
    | none, none => (wholeNumber negative s).map (·, rest)
    | some [], _ => none
    | places, exponent =>
      let (s, shift) := s.pushPlaces (places.getD [])
      let x ← scaleBy (.ofDecimal false s.value 0) (shift + exponent.getD 0) 3
      some (float (if negative then x.neg else x), rest)

/-! ### Texts -/

/-- What stands between quotes: a character, or a unit of a pair that makes up one. -/
inductive Piece where
  | char (c : Char)
  | unit (n : Nat)

/-- What an escape of one letter stands for. -/
def escapeOf (c : Char) : Option Piece :=
  match c with
  | 'n' => some (.char '\n')
  | 't' => some (.char '\t')
  | 'r' => some (.char '\r')
  | 'b' => some (.char '\x08')
  | 'f' => some (.char '\x0c')
  | '"' | '\\' | '/' => some (.char c)
  | _ => none

/-- The pieces up to the closing quote, and the text behind it. -/
def readPieces : List Char → Option (List Piece × List Char)
  | [] => none
  | '"' :: rest => some ([], rest)
  | '\\' :: 'u' :: a :: b :: c :: d :: rest => do
    let n ← readDigits 16 [a, b, c, d]
    let (ps, rest) ← readPieces rest
    some (.unit n :: ps, rest)
  | '\\' :: c :: rest => do
    let p ← escapeOf c
    let (ps, rest) ← readPieces rest
    some (p :: ps, rest)
  | c :: rest =>
    if c.toNat < 32 then none else (readPieces rest).map fun (ps, rest) => (.char c :: ps, rest)

/-- The characters that pieces make up. A unit of a pair must not stand alone. -/
def joinPieces : List Piece → Option (List Char)
  | [] => some []
  | .char c :: rest => (joinPieces rest).map (c :: ·)
  | .unit high :: .unit low :: rest =>
    if 0xD800 ≤ high ∧ high < 0xDC00 then
      if 0xDC00 ≤ low ∧ low < 0xE000 then
        (joinPieces rest).map
          (Char.ofNat (0x10000 + (high - 0xD800) * 0x400 + (low - 0xDC00)) :: ·)
      else none
    else if high.isValidChar then (joinPieces (.unit low :: rest)).map (Char.ofNat high :: ·)
    else none
  | .unit n :: rest =>
    if n.isValidChar then (joinPieces rest).map (Char.ofNat n :: ·) else none

/-- A text from behind the opening quote, and what is behind the closing one. -/
def readText (cs : List Char) : Option (String × List Char) := do
  let (ps, rest) ← readPieces cs
  let s ← joinPieces ps
  some (String.ofList s, rest)

/-! ### Values -/

/-- The text behind the blanks in front. -/
def skipBlanks (cs : List Char) : List Char :=
  cs.dropWhile fun c => c == ' ' || c == '\t' || c == '\n' || c == '\r'

/-- How many brackets and braces may be open at a time. -/
def deepest : Nat := 127

mutual

/-- A value and the text behind it, with room for some more brackets and braces. -/
def readValue : (fuel room : Nat) → List Char → Option (Json × List Char)
  | 0, _, _ => none
  | n + 1, room, cs =>
    match skipBlanks cs, room with
    | 'n' :: 'u' :: 'l' :: 'l' :: rest, _ => some (null, rest)
    | 't' :: 'r' :: 'u' :: 'e' :: rest, _ => some (truth true, rest)
    | 'f' :: 'a' :: 'l' :: 's' :: 'e' :: rest, _ => some (truth false, rest)
    | '"' :: rest, _ => (readText rest).map fun (s, rest) => (text s, rest)
    | '[' :: rest, room + 1 =>
      match skipBlanks rest with
      | ']' :: rest => some (list [], rest)
      | rest => (readItems n room rest).map fun (js, rest) => (list js, rest)
    | '\x7b' :: rest, room + 1 =>
      match skipBlanks rest with
      | '\x7d' :: rest => some (object [], rest)
      | rest => (readFields n room rest).map fun (fs, rest) => (object fs, rest)
    | cs, _ => readNumber cs

/-- One or more items up to the closing bracket. -/
def readItems : (fuel room : Nat) → List Char → Option (List Json × List Char)
  | 0, _, _ => none
  | n + 1, room, cs => do
    let (j, rest) ← readValue n room cs
    match skipBlanks rest with
    | ',' :: rest =>
      let (js, rest) ← readItems n room rest
      some (j :: js, rest)
    | ']' :: rest => some ([j], rest)
    | _ => none

/-- One or more fields up to the closing brace. -/
def readFields : (fuel room : Nat) → List Char → Option (List (String × Json) × List Char)
  | 0, _, _ => none
  | n + 1, room, cs => do
    match skipBlanks cs with
    | '"' :: rest =>
      let (name, rest) ← readText rest
      match skipBlanks rest with
      | ':' :: rest =>
        let (j, rest) ← readValue n room rest
        match skipBlanks rest with
        | ',' :: rest =>
          let (fs, rest) ← readFields n room rest
          some (if fs.any (·.1 == name) then fs else (name, j) :: fs, rest)
        | '\x7d' :: rest => some ([(name, j)], rest)
        | _ => none
      | _ => none
    | _ => none

end

/-- The value that is the whole of a text. -/
def read (text : String) : Option Json := do
  let cs := text.toList
  let (j, rest) ← readValue (2 * (cs.length + 1)) deepest cs
  if (skipBlanks rest).isEmpty then some j else none

end StatusEffects.Json
