import StatusEffects.Stat

/-!
# Bonus stacks

The value of a stat under a list of bonuses: the flat amounts and the increases are summed, then
every `more` and after them every `less` multiplies in turn. Every division is by one hundred and
goes toward zero. The result is confined to the bounds of the stat.

Sums and products are carried in signed words of 64 bits, so a stack that drives one of them out
of that range has no value.

## Main definitions

* `Stack.exact` : the value before the bounds, over all integers.
* `Stack.path` : the sums and products met on the way to it.
* `Stack.value` : the value within the bounds, or the reason there is none.
-/

namespace StatusEffects

/-- Why a stat has no value. -/
inductive StatFault where
  /-- A sum or product on the way does not fit in a signed word of 64 bits. -/
  | overflow
  /-- The lower bound lies above the upper one. -/
  | emptyRange
deriving DecidableEq, Repr

namespace Stack

/-- The sum of the flat amounts. -/
def flatTotal : List Bonus → Int
  | [] => 0
  | .flat n :: rest => n.toInt + flatTotal rest
  | _ :: rest => flatTotal rest

/-- The sum of the increases, in per cent. -/
def increase : List Bonus → Int
  | [] => 0
  | .increased p :: rest => p.toInt + increase rest
  | _ :: rest => increase rest

/-- The factors in per cent that multiply one by one: every `more`, then every `less`. -/
def factors (bonuses : List Bonus) : List Int :=
  bonuses.filterMap (fun
    | .more p => some (100 + p.toInt)
    | _ => none) ++
  bonuses.filterMap fun
    | .less p => some (100 - p.toInt)
    | _ => none

/-- A value times a factor in per cent, less its fraction. -/
def scale (value factor : Int) : Int := (value * factor).tdiv 100

/-- The value before the bounds, over all integers. -/
def exact (bonuses : List Bonus) (base : Int) : Int :=
  (factors bonuses).foldl scale (scale (base + flatTotal bonuses) (100 + increase bonuses))

/-- The running sums of a list. -/
def sums (start : Int) : List Int → List Int
  | [] => []
  | n :: rest => (start + n) :: sums (start + n) rest

/-- The products met while multiplying by factors in turn. -/
def products (value : Int) : List Int → List Int
  | [] => []
  | f :: rest => (value * f) :: products (scale value f) rest

/-- The sums and products met on the way to the value, in order. -/
def path (bonuses : List Bonus) (base : Int) : List Int :=
  sums 0 (bonuses.filterMap fun
    | .flat n => some n.toInt
    | _ => none) ++
  sums 0 (bonuses.filterMap fun
    | .increased p => some p.toInt
    | _ => none) ++
  [base + flatTotal bonuses, 100 + increase bonuses] ++
  products (base + flatTotal bonuses) ((100 + increase bonuses) :: factors bonuses)

/-- Whether a number fits in a signed word of 64 bits. -/
def fits (n : Int) : Bool :=
  decide (Int64.minValue.toInt ≤ n ∧ n ≤ Int64.maxValue.toInt)

/-- A number moved to the nearest one within the bounds. -/
def clamp (n lo hi : Int) : Int := if n < lo then lo else if hi < n then hi else n

/-- The value of a stat with the given base and bounds under a list of bonuses. -/
def value (bonuses : List Bonus) (base lo hi : Int32) : Except StatFault Int :=
  if (path bonuses base.toInt).all fits then
    if lo.toInt ≤ hi.toInt then .ok (clamp (exact bonuses base.toInt) lo.toInt hi.toInt)
    else .error .emptyRange
  else .error .overflow

theorem clamp_mem {n lo hi : Int} (h : lo ≤ hi) : lo ≤ clamp n lo hi ∧ clamp n lo hi ≤ hi := by
  simp only [clamp]
  split
  · omega
  · split <;> omega

end Stack

end StatusEffects
