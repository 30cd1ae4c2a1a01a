import StatusEffects.Text.Identifier.Table

/-!
# Identifiers in text

Which characters may begin an identifier and which may continue one.
-/

namespace StatusEffects.Text

/-- Whether a code point lies in one of some inclusive ranges. -/
def inRanges (ranges : List (Nat × Nat)) (n : Nat) : Bool :=
  ranges.any fun (lo, hi) => lo ≤ n && n ≤ hi

/-- Whether an identifier may begin with the character: a letter or an underscore. -/
def isIdentStart (c : Char) : Bool :=
  c.isAlpha || c == '_' || (127 < c.toNat && inRanges identStartRanges c.toNat)

/-- Whether an identifier may go on with the character: a letter, a digit or a joining mark. -/
def isIdentRest (c : Char) : Bool :=
  isIdentStart c || c.isDigit || (127 < c.toNat && inRanges identExtendRanges c.toNat)

theorem isIdentRest_of_isIdentStart {c : Char} (h : isIdentStart c = true) :
    isIdentRest c = true := by
  simp [isIdentRest, h]

end StatusEffects.Text
