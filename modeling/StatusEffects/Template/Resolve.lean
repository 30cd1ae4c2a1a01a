import StatusEffects.Template

/-!
# Parameters of a cast

An enchanted skill may change how long, how strong and how important an effect is: of the
template's variants on the route of the skill whose level the skill has reached, the one with the
highest level counts, and of several such the last.

## Main definitions

* `Template.variantFor?` : the variant that counts for a skill.
* `Template.resolve` : the parameters of a cast.
-/

namespace StatusEffects

namespace Template

/-- Whether a variant is on the route of the skill and its level is reached. -/
def reached (skill : Skill) (v : Variant) : Bool :=
  v.route == skill.enchantRoute && decide (v.minLevel ≤ skill.enchantLevel)

/-- The better of a variant found earlier and a later one, which wins a tie. -/
def better (best : Option Variant) (v : Variant) : Option Variant :=
  match best with
  | none => some v
  | some b => if b.minLevel ≤ v.minLevel then some v else some b

/-- The variant that counts for the enchantment of a skill. -/
def variantFor? (t : Template) (skill : Skill) : Option Variant :=
  (t.variants.filter (reached skill)).foldl better none

/-- The parameters without an enchantment. -/
def baseParams (t : Template) : Params := ⟨t.duration, t.power, t.priority, 0⟩

/-- The parameters of a cast with a skill, or without one. -/
def resolve (t : Template) (skill : Option Skill) : Params :=
  match skill.filter Skill.isEnchanted with
  | none => t.baseParams
  | some s =>
    match t.variantFor? s with
    | none => { t.baseParams with enchantLevel := s.enchantLevel }
    | some v =>
      ⟨v.duration.getD t.duration, v.power.getD t.power, v.priority.getD t.priority,
        s.enchantLevel⟩

end Template

end StatusEffects
