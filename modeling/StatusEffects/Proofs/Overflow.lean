import Mathlib.Algebra.BigOperators.Group.List.Basic
import Mathlib.Algebra.Ring.Int.Defs
import StatusEffects.Stat.Stack

/-!
# Which bonus stacks have a value

Sums and products on the way to the value of a stat are carried in words of 64 bits, and the bounds
of the stat are applied at the very end.  Percentages that multiply one by one can drive a product
out of the range of a word before that, and then there is no value, although over all integers it
would end up at a bound.  Otherwise the value is what it is over all integers.

## Main definitions

* `Bonus.flat?`, `Bonus.increased?` : the two kinds of amounts that are summed.
* `Stack.percents` : the factors that the start is multiplied by, in order.
* `Stack.Contained` : no sum and no product leaves the range of a word.
* `Stack.Moderate` : a bound on the start and the factors that does not look at what is between.

## Main statements

* `Stack.path_fits_iff` : what is carried fits if and only if the stack is contained.
* `Stack.contained_iff` : the sums of fewer than `2 ^ 32` bonuses always fit.
* `Stack.Moderate.contained` : moderate factors keep a stack contained.
* `Stack.value_eq_iff` : a stack has its value if and only if it is contained.
-/

namespace StatusEffects

/-- The amount of a flat bonus. -/
def Bonus.flat? : Bonus → Option Int
  | .flat n => some n.toInt
  | _ => none

/-- The percentage of an increase. -/
def Bonus.increased? : Bonus → Option Int
  | .increased p => some p.toInt
  | _ => none

namespace Stack

variable {bonuses : List Bonus} {base : Int}

theorem flatTotal_eq (bonuses : List Bonus) :
    flatTotal bonuses = (bonuses.filterMap Bonus.flat?).sum := by
  induction bonuses with
  | nil => rfl
  | cons b rest ih => cases b <;> simp [flatTotal, Bonus.flat?, List.filterMap_cons, ih]

theorem increase_eq (bonuses : List Bonus) :
    increase bonuses = (bonuses.filterMap Bonus.increased?).sum := by
  induction bonuses with
  | nil => rfl
  | cons b rest ih => cases b <;> simp [increase, Bonus.increased?, List.filterMap_cons, ih]

/-- The factors that the start is multiplied by one after the other. -/
def percents (bonuses : List Bonus) : List Int := (100 + increase bonuses) :: factors bonuses

theorem exact_eq (bonuses : List Bonus) (base : Int) :
    exact bonuses base = (percents bonuses).foldl scale (base + flatTotal bonuses) := rfl

theorem path_eq (bonuses : List Bonus) (base : Int) :
    path bonuses base = sums 0 (bonuses.filterMap Bonus.flat?) ++
      sums 0 (bonuses.filterMap Bonus.increased?) ++
      [base + flatTotal bonuses, 100 + increase bonuses] ++
      products (base + flatTotal bonuses) (percents bonuses) := rfl

theorem fits_iff {n : Int} : fits n = true ↔ -2 ^ 63 ≤ n ∧ n < 2 ^ 63 := by
  have hmin : Int64.minValue.toInt = -2 ^ 63 := by decide
  have hmax : Int64.maxValue.toInt = 2 ^ 63 - 1 := by decide
  rw [fits, decide_eq_true_iff, hmin, hmax]
  omega

/-! ### What is carried -/

/-- The running sums of a list are the sums of its beginnings. -/
theorem sums_fit_iff {start : Int} {ns : List Int} (hstart : fits start = true) :
    (sums start ns).all fits = true ↔ ∀ pre, pre <+: ns → fits (start + pre.sum) = true := by
  induction ns generalizing start with
  | nil => simp [sums, hstart]
  | cons n rest ih =>
    simp only [sums, List.all_cons, Bool.and_eq_true, List.prefix_cons_iff]
    constructor
    · rintro ⟨hn, hrest⟩ pre (rfl | ⟨pre', rfl, hpre⟩)
      · simpa using hstart
      · rw [List.sum_cons, ← add_assoc]
        exact (ih hn).1 hrest pre' hpre
    · intro h
      have hn : fits (start + n) = true := by simpa using h [n] (.inr ⟨[], rfl, List.nil_prefix⟩)
      refine ⟨hn, (ih hn).2 fun pre hpre => ?_⟩
      rw [add_assoc, ← List.sum_cons]
      exact h _ (.inr ⟨pre, rfl, hpre⟩)

theorem sums_filterMap_fit_iff (amount? : Bonus → Option Int) :
    (sums 0 (bonuses.filterMap amount?)).all fits = true ↔
      ∀ pre, pre <+: bonuses → fits (pre.filterMap amount?).sum = true := by
  rw [sums_fit_iff rfl]
  constructor
  · intro h pre hpre
    simpa using h _ (List.prefix_filterMap_iff.2 ⟨pre, hpre, rfl⟩)
  · intro h pre hpre
    obtain ⟨pre', hpre', rfl⟩ := List.prefix_filterMap_iff.1 hpre
    simpa using h pre' hpre'

/-- The products met are those of what a beginning of the factors makes with the next factor. -/
theorem products_fit_iff {v : Int} {fs : List Int} :
    (products v fs).all fits = true ↔
      ∀ done f, done ++ [f] <+: fs → fits (done.foldl scale v * f) = true := by
  induction fs generalizing v with
  | nil => simp [products]
  | cons f rest ih =>
    simp only [products, List.all_cons, Bool.and_eq_true, ih]
    constructor
    · rintro ⟨hf, hrest⟩ done g hdone
      cases done with
      | nil =>
        obtain ⟨rfl, -⟩ := List.cons_prefix_cons.1 hdone
        exact hf
      | cons f' done =>
        obtain ⟨rfl, hprefix⟩ := List.cons_prefix_cons.1 hdone
        exact hrest done g hprefix
    · intro h
      exact ⟨h [] f (List.cons_prefix_cons.2 ⟨rfl, List.nil_prefix⟩),
        fun done g hdone => h (f :: done) g (List.cons_prefix_cons.2 ⟨rfl, hdone⟩)⟩

/-- No sum and no product on the way to the value leaves the range of a word of 64 bits. -/
structure Contained (bonuses : List Bonus) (base : Int) : Prop where
  flats : ∀ pre, pre <+: bonuses → fits (flatTotal pre) = true
  increases : ∀ pre, pre <+: bonuses → fits (increase pre) = true
  start : fits (base + flatTotal bonuses) = true
  percent : fits (100 + increase bonuses) = true
  /-- A beginning of the factors leaves room for the next one. -/
  products : ∀ done f, done ++ [f] <+: percents bonuses →
    fits (done.foldl scale (base + flatTotal bonuses) * f) = true

/-- **What is carried fits if and only if the stack is contained.** -/
theorem path_fits_iff : (path bonuses base).all fits = true ↔ Contained bonuses base := by
  rw [path_eq, List.all_append, List.all_append, List.all_append, Bool.and_eq_true,
    Bool.and_eq_true, Bool.and_eq_true, sums_filterMap_fit_iff, sums_filterMap_fit_iff,
    products_fit_iff]
  simp only [← flatTotal_eq, ← increase_eq, List.all_cons, List.all_nil, Bool.and_true,
    Bool.and_eq_true]
  exact ⟨fun ⟨⟨⟨hf, hi⟩, hs, hp⟩, h⟩ => ⟨hf, hi, hs, hp, h⟩,
    fun h => ⟨⟨⟨h.flats, h.increases⟩, h.start, h.percent⟩, h.products⟩⟩

/-! ### Stacks that are contained -/

/-- A sum of amounts of 32 bits grows with their number. -/
theorem total_bounds {amount? : Bonus → Option Int}
    (hword : ∀ b n, amount? b = some n → -2 ^ 31 ≤ n ∧ n < 2 ^ 31) (bonuses : List Bonus) :
    -2 ^ 31 * (bonuses.length : Int) ≤ (bonuses.filterMap amount?).sum ∧
      (bonuses.filterMap amount?).sum ≤ (2 ^ 31 - 1) * (bonuses.length : Int) := by
  induction bonuses with
  | nil => simp
  | cons b rest ih =>
    rw [List.filterMap_cons, List.length_cons]
    cases hb : amount? b with
    | none =>
      simp only
      omega
    | some n =>
      have := hword b n hb
      simp only [List.sum_cons]
      omega

theorem flatTotal_bounds (bonuses : List Bonus) :
    -2 ^ 31 * (bonuses.length : Int) ≤ flatTotal bonuses ∧
      flatTotal bonuses ≤ (2 ^ 31 - 1) * (bonuses.length : Int) := by
  rw [flatTotal_eq]
  refine total_bounds (fun b n hb => ?_) bonuses
  cases b with
  | flat amount =>
    obtain rfl := Option.some.inj hb
    exact ⟨amount.le_toInt, amount.toInt_lt⟩
  | _ => cases hb

theorem increase_bounds (bonuses : List Bonus) :
    -2 ^ 31 * (bonuses.length : Int) ≤ increase bonuses ∧
      increase bonuses ≤ (2 ^ 31 - 1) * (bonuses.length : Int) := by
  rw [increase_eq]
  refine total_bounds (fun b n hb => ?_) bonuses
  cases b with
  | increased percent =>
    obtain rfl := Option.some.inj hb
    exact ⟨percent.le_toInt, percent.toInt_lt⟩
  | _ => cases hb

/-- **The sums of fewer than `2 ^ 32` bonuses always fit**: only the products can be at fault. -/
theorem contained_iff (base : Int32) (short : bonuses.length < 2 ^ 32) :
    Contained bonuses base.toInt ↔
      ∀ done f, done ++ [f] <+: percents bonuses →
        fits (done.foldl scale (base.toInt + flatTotal bonuses) * f) = true := by
  refine ⟨Contained.products, fun h => ⟨fun pre hpre => ?_, fun pre hpre => ?_, ?_, ?_, h⟩⟩
  · have hbounds := flatTotal_bounds pre
    have hlength := hpre.length_le
    rw [fits_iff]
    omega
  · have hbounds := increase_bounds pre
    have hlength := hpre.length_le
    rw [fits_iff]
    omega
  · have hbounds := flatTotal_bounds bonuses
    have hlow := base.le_toInt
    have hhigh := base.toInt_lt
    rw [fits_iff]
    omega
  · have hbounds := increase_bounds bonuses
    rw [fits_iff]
    omega

theorem natAbs_scale_le (v f : Int) : (scale v f).natAbs * 100 ≤ v.natAbs * f.natAbs := by
  rw [scale, Int.natAbs_tdiv, Int.natAbs_mul]
  exact Nat.div_mul_le_self _ 100

/-- What some factors make of a value is at most what they would make of it over the fractions. -/
theorem natAbs_foldl_scale_le (v : Int) (fs : List Int) :
    (fs.foldl scale v).natAbs * 100 ^ fs.length ≤ v.natAbs * (fs.map Int.natAbs).prod := by
  induction fs generalizing v with
  | nil => simp
  | cons f rest ih =>
    have hrest := ih (scale v f)
    have hfirst := natAbs_scale_le v f
    calc (rest.foldl scale (scale v f)).natAbs * 100 ^ (rest.length + 1)
        = (rest.foldl scale (scale v f)).natAbs * 100 ^ rest.length * 100 := by
          rw [Nat.pow_succ, Nat.mul_assoc]
      _ ≤ (scale v f).natAbs * (rest.map Int.natAbs).prod * 100 := Nat.mul_le_mul_right 100 hrest
      _ = (scale v f).natAbs * 100 * (rest.map Int.natAbs).prod := Nat.mul_right_comm ..
      _ ≤ v.natAbs * f.natAbs * (rest.map Int.natAbs).prod := Nat.mul_le_mul_right _ hfirst
      _ = v.natAbs * ((f :: rest).map Int.natAbs).prod := by
          rw [List.map_cons, List.prod_cons, Nat.mul_assoc]

/-- The start and the factors leave room for every product, by their sizes alone. -/
def Moderate (bonuses : List Bonus) (base : Int) : Prop :=
  ∀ done f, done ++ [f] <+: percents bonuses →
    (base + flatTotal bonuses).natAbs * ((done ++ [f]).map Int.natAbs).prod <
      2 ^ 63 * 100 ^ done.length

/-- **Moderate factors keep a stack contained.** -/
theorem Moderate.contained {base : Int32} (h : Moderate bonuses base.toInt)
    (short : bonuses.length < 2 ^ 32) : Contained bonuses base.toInt := by
  refine (contained_iff base short).2 fun done f hdone => ?_
  generalize hv : base.toInt + flatTotal bonuses = v
  have hroom := h done f hdone
  have hdone := natAbs_foldl_scale_le v done
  rw [hv, List.map_append, List.prod_append, List.map_singleton, List.prod_singleton,
    ← Nat.mul_assoc] at hroom
  have hlt : (done.foldl scale v * f).natAbs < 2 ^ 63 := by
    refine Nat.lt_of_mul_lt_mul_right (a := 100 ^ done.length) ?_
    calc (done.foldl scale v * f).natAbs * 100 ^ done.length
        = (done.foldl scale v).natAbs * 100 ^ done.length * f.natAbs := by
          rw [Int.natAbs_mul, Nat.mul_right_comm]
      _ ≤ v.natAbs * (done.map Int.natAbs).prod * f.natAbs := Nat.mul_le_mul_right _ hdone
      _ < 2 ^ 63 * 100 ^ done.length := hroom
  rw [fits_iff]
  omega

/-! ### The value -/

/-- **A stack has its value if and only if it is contained.**  Then the value is the one over all
integers, moved within the bounds, and otherwise there is none, wherever the exact value lies.  With
fewer than `2 ^ 32` bonuses it is only a product that can leave the range, and none does while start
and factors are moderate. -/
theorem value_eq_iff (bonuses : List Bonus) (base lo hi : Int32) (range : lo.toInt ≤ hi.toInt) :
    (value bonuses base lo hi = .ok (clamp (exact bonuses base.toInt) lo.toInt hi.toInt) ↔
      Contained bonuses base.toInt) ∧
    (¬ Contained bonuses base.toInt → value bonuses base lo hi = .error .overflow) ∧
    (bonuses.length < 2 ^ 32 →
      (Contained bonuses base.toInt ↔
        ∀ done f, done ++ [f] <+: percents bonuses →
          fits (done.foldl scale (base.toInt + flatTotal bonuses) * f) = true) ∧
      (Moderate bonuses base.toInt → Contained bonuses base.toInt)) := by
  refine ⟨?_, fun h => ?_, fun short => ⟨contained_iff base short, fun h => h.contained short⟩⟩
  · rw [← path_fits_iff, value, if_pos range]
    constructor
    · intro h
      by_contra hout
      rw [if_neg hout] at h
      cases h
    · exact fun h => if_pos h
  · rw [value, if_neg (mt path_fits_iff.1 h)]

/-- Two great factors take a value to the upper bound. -/
theorem value_eq_iff_more :
    value [.more 10000, .more 10000] 1073741823 0 2147483647 = .ok 2147483647 :=
  (value_eq_iff [.more 10000, .more 10000] 1073741823 0 2147483647 (by decide)).1.2
    (path_fits_iff.1 (by decide))

/-- Four of them leave no value, although the exact one lies above the bound. -/
theorem value_overflow_more :
    (0 : Int32).toInt ≤ (2147483647 : Int32).toInt ∧
      value (List.replicate 4 (.more 10000)) 1073741823 0 2147483647 = .error .overflow ∧
      clamp (exact (List.replicate 4 (.more 10000)) 1073741823) 0 2147483647 = 2147483647 := by
  refine ⟨by decide, rfl, by decide⟩

end Stack

end StatusEffects
