/-!
# Digits

Whole numbers written in a base up to sixteen.

## Main definitions

* `digitValue?` : the value of one digit, letters in either case.
* `readDigits` : the number a run of digits of one base stands for.
* `hex` : a number in lower-case hexadecimal digits.
-/

namespace StatusEffects.Text

/-- The value of a hexadecimal digit, its letter in either case. -/
def digitValue? (c : Char) : Option Nat :=
  if '0' ≤ c ∧ c ≤ '9' then some (c.toNat - '0'.toNat)
  else if 'a' ≤ c ∧ c ≤ 'f' then some (c.toNat - 'a'.toNat + 10)
  else if 'A' ≤ c ∧ c ≤ 'F' then some (c.toNat - 'A'.toNat + 10)
  else none

/-- Whether a character is one of the ten decimal digits. -/
def isDecimal (c : Char) : Bool := '0' ≤ c && c ≤ '9'

/-- The number that digits of `base` continue `acc` to, or nothing if one is no digit of it. -/
def readDigitsFrom (base acc : Nat) : List Char → Option Nat
  | [] => some acc
  | c :: cs =>
    match digitValue? c with
    | some d => if d < base then readDigitsFrom base (acc * base + d) cs else none
    | none => none

/-- The number written by one or more digits of `base`. -/
def readDigits (base : Nat) : List Char → Option Nat
  | [] => none
  | cs => readDigitsFrom base 0 cs

/-- A number in lower-case hexadecimal digits, without leading zeros. -/
def hex (n : Nat) : String := String.ofList (Nat.toDigits 16 n)

/-- An unsigned number in `base` at most `bound`, with at most one plus sign in front. -/
def readUnsigned (base bound : Nat) (cs : List Char) : Option Nat :=
  let digits := match cs with
    | '+' :: rest => rest
    | _ => cs
  (readDigits base digits).filter (· ≤ bound)

end StatusEffects.Text
