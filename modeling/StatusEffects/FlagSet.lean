import StatusEffects.Text.Blank
import StatusEffects.Text.Digits

/-!
# Sets of flags

A flag set is a word of fixed width whose lowest bits have names. Bits without a name are kept,
so that a set read from content written for a later vocabulary is written back unchanged.

## Main definitions

* `FlagNames` : the width of the word and the names of its lowest bits.
* `FlagSet` : a word of that width, with union and inclusion.
* `FlagSet.render`, `FlagSet.parse?` : the text form, names joined by bars and a hexadecimal item
  for the bits without a name.

## Main statements

* `FlagSet.contains_union_left`, `FlagSet.contains_trans` : inclusion is that of sets of bits.
-/

namespace StatusEffects

/-- A vocabulary of flags: the names of the lowest bits of a word, lowest bit first. -/
structure FlagNames where
  /-- Number of bits of the word. -/
  width : Nat
  /-- Names of its lowest bits. -/
  names : List String

/-- A set of flags of one vocabulary. -/
structure FlagSet (v : FlagNames) where
  bits : BitVec v.width
deriving DecidableEq

namespace FlagSet

variable {v : FlagNames}

instance : EmptyCollection (FlagSet v) := ⟨⟨0⟩⟩

instance : Inhabited (FlagSet v) := ⟨∅⟩

instance : Union (FlagSet v) := ⟨fun a b => ⟨a.bits ||| b.bits⟩⟩

/-- The set of the flag at bit `i` alone. -/
def single (i : Nat) : FlagSet v := ⟨BitVec.twoPow _ i⟩

/-- Whether no bit is set. -/
def isEmpty (a : FlagSet v) : Bool := a.bits == 0

/-- Whether every flag of `b` is in `a`. -/
def contains (a b : FlagSet v) : Bool := a.bits &&& b.bits == b.bits

theorem bits_union (a b : FlagSet v) : (a ∪ b).bits = a.bits ||| b.bits := rfl

@[simp] theorem union_empty (a : FlagSet v) : a ∪ ∅ = a := by
  cases a
  simp [Union.union, EmptyCollection.emptyCollection]

theorem contains_iff {a b : FlagSet v} :
    a.contains b = true ↔ ∀ i, b.bits.getLsbD i = true → a.bits.getLsbD i = true := by
  simp only [contains, beq_iff_eq]
  constructor
  · intro h i hi
    rw [← h, BitVec.getLsbD_and, Bool.and_eq_true] at hi
    exact hi.1
  · intro h
    apply BitVec.eq_of_getLsbD_eq
    intro i _
    rw [BitVec.getLsbD_and]
    cases hb : b.bits.getLsbD i with
    | false => simp
    | true => simp [h i hb]

theorem contains_refl (a : FlagSet v) : a.contains a = true :=
  contains_iff.2 fun _ h => h

theorem contains_trans {a b c : FlagSet v} (hab : a.contains b = true)
    (hbc : b.contains c = true) : a.contains c = true :=
  contains_iff.2 fun i h => contains_iff.1 hab i (contains_iff.1 hbc i h)

theorem contains_union_left (a b : FlagSet v) : (a ∪ b).contains a = true :=
  contains_iff.2 fun i h => by simp [bits_union, h]

theorem contains_union_right (a b : FlagSet v) : (a ∪ b).contains b = true :=
  contains_iff.2 fun i h => by simp [bits_union, h]

/-! ### Text form -/

/-- The names of the flags in the set, in the order of the vocabulary. -/
def named (a : FlagSet v) : List String :=
  (v.names.zipIdx.filter fun (_, i) => a.bits.getLsbD i).map (·.1)

/-- The bits that have no name, as a number. -/
def unnamed (a : FlagSet v) : Nat :=
  (a.bits.toNat >>> v.names.length) <<< v.names.length

/-- The text form: the names in order, then the unnamed bits as one hexadecimal item. -/
def render (a : FlagSet v) : String :=
  let rest := a.unnamed
  String.intercalate " | " (a.named ++ if rest = 0 then [] else ["0x" ++ Text.hex rest])

/-- The flag a single item stands for: a name, or bits in hexadecimal that fit the word. -/
def item? (v : FlagNames) : List Char → Option (FlagSet v)
  | '0' :: 'x' :: digits =>
    (Text.readUnsigned 16 ((1 <<< v.width) - 1) digits).map fun n => ⟨BitVec.ofNat _ n⟩
  | name => (v.names.idxOf? (String.ofList name)).map single

/-- The union of the items between bars; blanks around an item do not count. -/
def items? (v : FlagNames) : List (List Char) → Option (FlagSet v)
  | [] => some ∅
  | item :: rest => do
    let a ← item? v (Text.trimBlank item)
    let b ← items? v rest
    return a ∪ b

/-- Reads the text form. A blank text is the empty set; an empty item beside a bar is refused. -/
def parse? (text : String) : Option (FlagSet v) :=
  if text.toList.all Text.isBlank then some ∅
  else items? v (Text.splitAt '|' text.toList)

end FlagSet

end StatusEffects
