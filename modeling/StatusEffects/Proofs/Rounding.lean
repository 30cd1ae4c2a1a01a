import Mathlib.Algebra.Order.Ring.Int
import StatusEffects.Proofs.Overflow

/-!
# What rounding leaves of the algebra of bonuses

Every division on the way to the value of a stat drops a fraction, so that percentages which
multiply one by one cannot be exchanged with each other.  Flat amounts and increases are summed
before anything is divided, and each `more` comes before each `less` wherever the two stand in the
list.  So the value depends on the order of the list only through the order of the `more`s among
themselves and that of the `less`es among themselves.

Dropping the fraction does not turn round the order of two numbers, and neither does a factor that
is not negative.  So with such factors a greater base or a greater flat amount never makes the value
less.

## Main definitions

* `Stack.Rearranged` : another order of the bonuses that keeps the `more`s and the `less`es in line.
* `Bonus.Raised` : the same bonus, or a flat one of a greater amount.
* `Stack.Upright` : no factor is negative.

## Main statements

* `Stack.Rearranged.exact_eq`, `Stack.Rearranged.contained_iff` : what does not depend on the order.
* `Stack.exact_le_of_raised` : the value over all integers rises with the base and flat amounts.
* `Stack.value_rearranged_raised` : the same of the value in words of 64 bits.
-/

namespace StatusEffects

namespace Bonus

/-- The percentage of a bonus that multiplies upwards. -/
def more? : Bonus → Option Int
  | .more p => some p.toInt
  | _ => none

/-- The percentage of a bonus that multiplies downwards. -/
def less? : Bonus → Option Int
  | .less p => some p.toInt
  | _ => none

/-- The same bonus, or a flat one of a greater amount. -/
inductive Raised : Bonus → Bonus → Prop
  | same (b : Bonus) : Raised b b
  | flat {n m : Int32} (le : n.toInt ≤ m.toInt) : Raised (.flat n) (.flat m)

end Bonus

namespace Stack

variable {bonuses others : List Bonus} {base n m lo hi : Int}

theorem factors_eq (bonuses : List Bonus) :
    factors bonuses = (bonuses.filterMap Bonus.more?).map (100 + ·) ++
      (bonuses.filterMap Bonus.less?).map (100 - ·) := by
  simp only [factors, List.map_filterMap]
  congr 1 <;> congr 1 <;> funext b <;> cases b <;> rfl

/-- The percentages are those of the three kinds. -/
theorem percents_congr (hincreases : increase others = increase bonuses)
    (mores : others.filterMap Bonus.more? = bonuses.filterMap Bonus.more?)
    (lesses : others.filterMap Bonus.less? = bonuses.filterMap Bonus.less?) :
    percents others = percents bonuses := by
  rw [percents, percents, hincreases, factors_eq, factors_eq, mores, lesses]

/-! ### The order of the bonuses -/

/-- The bonuses in another order, with the `more`s in line and the `less`es in line. -/
structure Rearranged (bonuses others : List Bonus) : Prop where
  perm : others.Perm bonuses
  mores : others.filterMap Bonus.more? = bonuses.filterMap Bonus.more?
  lesses : others.filterMap Bonus.less? = bonuses.filterMap Bonus.less?

namespace Rearranged

theorem flatTotal_eq (h : Rearranged bonuses others) : flatTotal others = flatTotal bonuses := by
  rw [Stack.flatTotal_eq, Stack.flatTotal_eq]
  exact (h.perm.filterMap _).sum_eq

theorem percents_eq (h : Rearranged bonuses others) : percents others = percents bonuses := by
  refine percents_congr ?_ h.mores h.lesses
  rw [increase_eq, increase_eq]
  exact (h.perm.filterMap _).sum_eq

/-- **The value over all integers does not depend on the rest of the order.** -/
theorem exact_eq (h : Rearranged bonuses others) (base : Int) :
    exact others base = exact bonuses base := by
  rw [Stack.exact_eq, Stack.exact_eq, h.percents_eq, h.flatTotal_eq]

/-- **Nor does it matter to fewer than `2 ^ 32` bonuses for whether they are contained.** -/
theorem contained_iff (h : Rearranged bonuses others) (base : Int32)
    (short : bonuses.length < 2 ^ 32) :
    Contained others base.toInt ↔ Contained bonuses base.toInt := by
  have short' : others.length < 2 ^ 32 := h.perm.length_eq.trans_lt short
  rw [Stack.contained_iff base short', Stack.contained_iff base short, h.percents_eq,
    h.flatTotal_eq]

/-- Two orders that are contained alike have one value, or one reason to have none. -/
theorem value_eq {base lo hi : Int32} (h : Rearranged bonuses others)
    (alike : Contained others base.toInt ↔ Contained bonuses base.toInt) :
    value others base lo hi = value bonuses base lo hi := by
  rw [← path_fits_iff, ← path_fits_iff] at alike
  simp only [value, alike, h.exact_eq]

end Rearranged

/-! ### Greater amounts -/

/-- No factor is negative. -/
structure Upright (bonuses : List Bonus) : Prop where
  increase : 0 ≤ 100 + increase bonuses
  more : ∀ p, .more p ∈ bonuses → -100 ≤ p.toInt
  less : ∀ p, .less p ∈ bonuses → p.toInt ≤ 100

theorem Upright.percents_nonneg (h : Upright bonuses) : ∀ f ∈ percents bonuses, 0 ≤ f := by
  intro f hf
  rw [percents, factors_eq, List.mem_cons, List.mem_append, List.mem_map, List.mem_map] at hf
  rcases hf with rfl | ⟨p, hp, rfl⟩ | ⟨p, hp, rfl⟩
  · exact h.increase
  · obtain ⟨b, hb, hbp⟩ := List.mem_filterMap.1 hp
    cases b with
    | more p =>
      obtain rfl := Option.some.inj hbp
      have := h.more p hb
      omega
    | _ => cases hbp
  · obtain ⟨b, hb, hbp⟩ := List.mem_filterMap.1 hp
    cases b with
    | less p =>
      obtain rfl := Option.some.inj hbp
      have := h.less p hb
      omega
    | _ => cases hbp

/-- Dropping the fraction keeps the order, and so does a factor that is not negative. -/
theorem scale_le_scale {f : Int} (h : n ≤ m) (hf : 0 ≤ f) : scale n f ≤ scale m f :=
  Int.tdiv_le_tdiv (by decide) (mul_le_mul_of_nonneg_right h hf)

theorem foldl_scale_le {fs : List Int} (h : n ≤ m) (hfs : ∀ f ∈ fs, 0 ≤ f) :
    fs.foldl scale n ≤ fs.foldl scale m := by
  induction fs generalizing n m with
  | nil => exact h
  | cons f rest ih =>
    exact ih (scale_le_scale h (hfs f List.mem_cons_self))
      fun g hg => hfs g (List.mem_cons_of_mem f hg)

theorem clamp_le_clamp (h : n ≤ m) (range : lo ≤ hi) : clamp n lo hi ≤ clamp m lo hi := by
  simp only [clamp]
  split_ifs <;> omega

theorem flatTotal_le_of_raised (h : List.Forall₂ Bonus.Raised bonuses others) :
    flatTotal bonuses ≤ flatTotal others := by
  induction h with
  | nil => exact le_refl _
  | @cons b _ _ _ hb _ ih =>
    cases hb with
    | same => cases b <;> simp [flatTotal, ih]
    | flat le => exact Int.add_le_add le ih

/-- Greater flat amounts leave all percentages as they are. -/
theorem percents_eq_of_raised (h : List.Forall₂ Bonus.Raised bonuses others) :
    percents others = percents bonuses := by
  have hkinds : increase others = increase bonuses ∧
      others.filterMap Bonus.more? = bonuses.filterMap Bonus.more? ∧
      others.filterMap Bonus.less? = bonuses.filterMap Bonus.less? := by
    induction h with
    | nil => exact ⟨rfl, rfl, rfl⟩
    | @cons b _ _ _ hb _ ih =>
      cases hb with
      | same => cases b <;> simp [increase, List.filterMap_cons, Bonus.more?, Bonus.less?, ih]
      | flat => exact ih
  exact percents_congr hkinds.1 hkinds.2.1 hkinds.2.2

/-- **The value over all integers rises with the base and with flat amounts.** -/
theorem exact_le_of_raised {higher : Int} (hbase : base ≤ higher)
    (h : List.Forall₂ Bonus.Raised bonuses others) (upright : Upright bonuses) :
    exact bonuses base ≤ exact others higher := by
  rw [exact_eq, exact_eq, percents_eq_of_raised h]
  exact foldl_scale_le (Int.add_le_add hbase (flatTotal_le_of_raised h)) upright.percents_nonneg

/-! ### The value -/

theorem value_of_contained {base lo hi : Int32} (range : lo.toInt ≤ hi.toInt)
    (h : Contained bonuses base.toInt) :
    value bonuses base lo hi = .ok (clamp (exact bonuses base.toInt) lo.toInt hi.toInt) := by
  rw [value, if_pos (path_fits_iff.2 h), if_pos range]

/-- **What the value depends on, and how.**  Another order of the bonuses has the same value, as
long as the `more`s stay in line and the `less`es stay in line, and nothing on the way leaves the
range of a word in either order; with fewer than `2 ^ 32` bonuses the two orders agree on that as
well.  Where no factor is negative and nothing leaves the range, the value does not fall when the
base or flat amounts rise. -/
theorem value_rearranged_raised (lo hi : Int32) :
    (∀ bonuses others (base : Int32), Rearranged bonuses others →
      (Contained bonuses base.toInt ∧ Contained others base.toInt ∨ bonuses.length < 2 ^ 32) →
      value others base lo hi = value bonuses base lo hi) ∧
    ∀ bonuses others (base higher : Int32), lo.toInt ≤ hi.toInt → base.toInt ≤ higher.toInt →
      List.Forall₂ Bonus.Raised bonuses others → Upright bonuses →
      Contained bonuses base.toInt → Contained others higher.toInt →
      ∃ v w, value bonuses base lo hi = .ok v ∧ value others higher lo hi = .ok w ∧ v ≤ w := by
  constructor
  · rintro bonuses others base h (⟨hfirst, hsecond⟩ | short)
    · exact h.value_eq (iff_of_true hsecond hfirst)
    · exact h.value_eq (h.contained_iff base short)
  · intro bonuses others base higher range hbase hraised upright hfirst hsecond
    exact ⟨_, _, value_of_contained range hfirst, value_of_contained range hsecond,
      clamp_le_clamp (exact_le_of_raised hbase hraised upright) range⟩

/-- A stack with all four kinds of bonuses in two orders, and with a greater flat amount on a
greater base. -/
theorem value_rearranged_raised_mixed :
    value [.less 10, .increased 15, .more 50, .flat 5, .increased 20] 10 5 100 =
        value [.flat 5, .increased 20, .increased 15, .more 50, .less 10] 10 5 100 ∧
      ∃ v w, value [.flat 5, .increased 20, .increased 15, .more 50, .less 10] 10 5 100 = .ok v ∧
        value [.flat 9, .increased 20, .increased 15, .more 50, .less 10] 12 5 100 = .ok w ∧
        v ≤ w := by
  obtain ⟨hrearranged, hraised⟩ := value_rearranged_raised 5 100
  refine ⟨hrearranged _ _ 10 ⟨by decide, by decide, by decide⟩ (.inr (by decide)),
    hraised _ _ 10 12 (by decide) (by decide) ?_ ⟨by decide, ?_, ?_⟩ (path_fits_iff.1 (by decide))
      (path_fits_iff.1 (by decide))⟩
  · exact .cons (.flat (by decide)) (.cons (.same _) (.cons (.same _) (.cons (.same _)
      (.cons (.same _) .nil))))
  · intro p hp
    obtain rfl : p = 50 := by simpa using hp
    decide
  · intro p hp
    obtain rfl : p = 10 := by simpa using hp
    decide

/-- Two `more`s that change places make another value. -/
example : value [.more 50, .more (-50)] 3 0 10 = .ok 2 ∧
    value [.more (-50), .more 50] 3 0 10 = .ok 1 := by
  decide

end Stack

end StatusEffects
