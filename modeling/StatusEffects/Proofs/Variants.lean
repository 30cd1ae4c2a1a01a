import StatusEffects.Proofs.Contest
import StatusEffects.Proofs.Enchanted

/-!
# Variants of a template

An enchanted skill picks one of the variants of a template.  The variants are gone through in the
order in which they are declared, and the best so far is kept; what comes out is the last of those
with the greatest level that the skill has reached.  With it the parameters of a cast are a staircase
over the levels of a route, and as long as no step is declared twice they do not depend on the order
of declaration.

## Main definitions

* `Template.Chosen` : the variant that is picked for a skill.

## Main statements

* `LastGreatest.concat_iff` : one more element either is the last of the greatest or leaves it.
* `Template.variantFor?_eq_some_iff`, `Template.variantFor?_eq_none_iff` : what the search finds.
* `Template.variantFor?_perm` : without a step declared twice the order does not matter.
* `Template.Chosen.mono`, `Template.variantFor?_between` : the staircase.
* `Template.resolve_exact` : the parameters of a cast, with or without enchantment.
-/

namespace StatusEffects

/-! ### The last of the greatest -/

namespace LastGreatest

variable {ε α : Type} [LinearOrder α] {rank : ε → α} {es es' : List ε} {w e : ε}

theorem mem (h : LastGreatest rank es w) : w ∈ es := by
  obtain ⟨before, after, rfl, -, -⟩ := h
  exact List.mem_append_right _ List.mem_cons_self

/-- One more element is the last of the greatest, or leaves the one that was. -/
theorem concat_iff : LastGreatest rank (es ++ [e]) w ↔
    (w = e ∧ ∀ x ∈ es, rank x ≤ rank e) ∨ (LastGreatest rank es w ∧ rank e < rank w) := by
  constructor
  · rintro ⟨before, after, hsplit, hbefore, hafter⟩
    rcases List.eq_nil_or_concat after with rfl | ⟨rest, x, rfl⟩
    · obtain ⟨rfl, hlast⟩ := List.append_inj' hsplit rfl
      obtain rfl : e = w := List.head_eq_of_cons_eq hlast
      exact .inl ⟨rfl, hbefore⟩
    · rw [List.concat_eq_append] at hsplit hafter
      rw [← List.cons_append, ← List.append_assoc] at hsplit
      obtain ⟨rfl, hlast⟩ := List.append_inj' hsplit rfl
      obtain rfl : e = x := List.head_eq_of_cons_eq hlast
      exact .inr ⟨⟨before, rest, rfl, hbefore, fun y hy => hafter y (List.mem_append_left _ hy)⟩,
        hafter e (List.mem_append_right _ List.mem_cons_self)⟩
  · rintro (⟨rfl, hle⟩ | ⟨h, hlt⟩)
    · exact ⟨es, [], rfl, hle, fun _ hx => nomatch hx⟩
    · exact h.hold hlt

/-- Among elements of different ranks the greatest is the last of the greatest. -/
theorem iff_of_distinct (distinct : es.Pairwise fun x y => rank x ≠ rank y) :
    LastGreatest rank es w ↔ w ∈ es ∧ ∀ e ∈ es, rank e ≤ rank w := by
  constructor
  · exact fun h => ⟨h.mem, fun _ => h.le⟩
  · rintro ⟨hmem, hle⟩
    obtain ⟨before, after, rfl⟩ := List.append_of_mem hmem
    have hne := (List.pairwise_cons.1 (List.pairwise_append.1 distinct).2.1).1
    refine ⟨before, after, rfl, fun e he => hle e (List.mem_append_left _ he), fun e he => ?_⟩
    have he' : e ∈ before ++ w :: after := List.mem_append_right _ (List.mem_cons_of_mem _ he)
    exact lt_of_le_of_ne (hle e he') (Ne.symm (hne e he))

/-- Elements of different ranks may come in any order. -/
theorem perm_iff (distinct : es.Pairwise fun x y => rank x ≠ rank y) (h : es'.Perm es) :
    LastGreatest rank es' w ↔ LastGreatest rank es w := by
  have hdistinct : es'.Pairwise fun x y => rank x ≠ rank y :=
    (h.pairwise_iff fun hne => Ne.symm hne).2 distinct
  simp only [iff_of_distinct distinct, iff_of_distinct hdistinct, h.mem_iff]

end LastGreatest

theorem Skill.isEnchanted_eq_true_iff {k : Skill} :
    k.isEnchanted = true ↔ k.enchantRoute ≠ 0 ∧ k.enchantLevel ≠ 0 := by
  simp only [isEnchanted, Bool.and_eq_true, decide_eq_true_eq, UInt32.pos_iff_ne_zero]

namespace Template

open Skill (isEnchanted_eq_true_iff)

variable {t : Template} {k k' : Skill} {v : Variant} {es vs : List Variant}

/-! ### The search -/

theorem foldl_better_eq_none_iff : es.foldl better none = none ↔ es = [] := by
  induction es using List.reverseRecOn with
  | nil => simp
  | append_singleton es e _ =>
    simp only [List.foldl_append, List.foldl_cons, List.foldl_nil, List.append_eq_nil_iff,
      List.cons_ne_nil, and_false, iff_false]
    cases es.foldl better none with
    | none => simp [better]
    | some b =>
      simp only [better]
      split_ifs <;> simp

/-- **The search keeps the last of the variants with the greatest level.** -/
theorem foldl_better_eq_some_iff :
    es.foldl better none = some v ↔ LastGreatest (·.minLevel.toNat) es v := by
  induction es using List.reverseRecOn generalizing v with
  | nil => simp [LastGreatest]
  | append_singleton es e ih =>
    rw [List.foldl_append, List.foldl_cons, List.foldl_nil, LastGreatest.concat_iff]
    cases hbest : es.foldl better none with
    | none =>
      obtain rfl := foldl_better_eq_none_iff.1 hbest
      simp [better, LastGreatest, eq_comm]
    | some b =>
      have hb := ih.1 hbest
      simp only [better, UInt32.le_iff_toNat_le]
      split_ifs with hle
      · -- the next variant takes over
        simp only [Option.some.injEq]
        constructor
        · rintro rfl
          exact .inl ⟨rfl, fun x hx => (hb.le hx).trans hle⟩
        · rintro (⟨rfl, -⟩ | ⟨hv, hlt⟩)
          · rfl
          · obtain rfl : b = v := Option.some.inj (hbest.symm.trans (ih.2 hv))
            exact absurd hle (Nat.not_le.2 hlt)
      · -- the best so far stays
        simp only [Option.some.injEq]
        constructor
        · rintro rfl
          exact .inr ⟨hb, Nat.lt_of_not_le hle⟩
        · rintro (⟨rfl, hall⟩ | ⟨hv, -⟩)
          · exact absurd (hall b hb.mem) hle
          · exact Option.some.inj (hbest.symm.trans (ih.2 hv))

/-- The variant that is picked for a skill: of those on its route whose level it has reached the
last with the greatest level. -/
def Chosen (t : Template) (k : Skill) (v : Variant) : Prop :=
  LastGreatest (·.minLevel.toNat)
    (t.variants.filter fun v => v.route = k.enchantRoute ∧ v.minLevel ≤ k.enchantLevel) v

theorem reached_eq (k : Skill) : reached k =
    fun v => decide (v.route = k.enchantRoute ∧ v.minLevel ≤ k.enchantLevel) := by
  funext v
  simp only [reached, Bool.decide_and, beq_eq_decide]

theorem variantFor?_eq_some_iff : t.variantFor? k = some v ↔ t.Chosen k v := by
  rw [variantFor?, foldl_better_eq_some_iff, reached_eq, Chosen]

theorem variantFor?_eq_none_iff : t.variantFor? k = none ↔
    ∀ v ∈ t.variants, ¬ (v.route = k.enchantRoute ∧ v.minLevel ≤ k.enchantLevel) := by
  rw [variantFor?, foldl_better_eq_none_iff, reached_eq, List.filter_eq_nil_iff]
  simp only [decide_eq_true_eq]

/-- **Without a step declared twice the order of declaration does not matter.** -/
theorem variantFor?_perm (distinct : (t.variants.map fun v => (v.route, v.minLevel)).Nodup)
    (h : vs.Perm t.variants) (k : Skill) :
    { t with variants := vs }.variantFor? k = t.variantFor? k := by
  refine Option.ext fun v => ?_
  rw [variantFor?_eq_some_iff, variantFor?_eq_some_iff]
  refine LastGreatest.perm_iff ?_ (h.filter _)
  refine ((List.pairwise_map.1 distinct).filter _).imp_of_mem fun hv hw hne hlevel => hne ?_
  -- both are on the route of the skill
  simp only [List.mem_filter, decide_eq_true_eq] at hv hw
  rw [hv.2.1, hw.2.1, UInt32.toNat_inj.1 hlevel]

/-! ### The staircase -/

/-- A higher level picks a variant for a level at least as high. -/
theorem Chosen.mono (h : t.Chosen k v) (route : k.enchantRoute = k'.enchantRoute)
    (level : k.enchantLevel ≤ k'.enchantLevel) :
    ∃ v', t.Chosen k' v' ∧ v.minLevel ≤ v'.minLevel := by
  obtain ⟨hv, hroute, hlevel⟩ : v ∈ t.variants ∧ v.route = k.enchantRoute ∧
      v.minLevel ≤ k.enchantLevel := by simpa using h.mem
  have hreached : v.route = k'.enchantRoute ∧ v.minLevel ≤ k'.enchantLevel :=
    ⟨hroute.trans route, UInt32.le_trans hlevel level⟩
  cases hfound : t.variantFor? k' with
  | none => exact absurd hreached (variantFor?_eq_none_iff.1 hfound v hv)
  | some v' =>
    have hchosen := variantFor?_eq_some_iff.1 hfound
    refine ⟨v', hchosen, UInt32.le_iff_toNat_le.2 (hchosen.le ?_)⟩
    exact List.mem_filter.2 ⟨hv, decide_eq_true hreached⟩

/-- Levels that have reached the same variants of a route pick the same. -/
theorem variantFor?_between (route : k.enchantRoute = k'.enchantRoute)
    (between : ∀ v ∈ t.variants, v.route = k.enchantRoute →
      (v.minLevel ≤ k.enchantLevel ↔ v.minLevel ≤ k'.enchantLevel)) :
    t.variantFor? k = t.variantFor? k' := by
  rw [variantFor?, variantFor?, reached_eq, reached_eq]
  refine congrArg _ (List.filter_congr fun v hv => decide_eq_decide.2 ?_)
  rw [← route]
  exact and_congr_right (between v hv)

/-! ### Parameters -/

/-- What is cast without an enchantment has the parameters of the template. -/
theorem resolve_unenchanted {skill : Option Skill}
    (plain : ∀ k, skill = some k → k.enchantRoute = 0 ∨ k.enchantLevel = 0) :
    t.resolve skill = ⟨t.duration, t.power, t.priority, 0⟩ := by
  cases skill with
  | none => rfl
  | some k =>
    refine t.resolve_of_plain (Bool.eq_false_iff.2 fun h => ?_)
    obtain ⟨hroute, hlevel⟩ := isEnchanted_eq_true_iff.1 h
    exact (plain k rfl).elim hroute hlevel

/-- The parameters of a cast with an enchanted skill, by what the search finds. -/
theorem resolve_of_isEnchanted (enchanted : k.isEnchanted = true) : t.resolve (some k) =
    ⟨((t.variantFor? k).bind (·.duration)).getD t.duration,
      ((t.variantFor? k).bind (·.power)).getD t.power,
      ((t.variantFor? k).bind (·.priority)).getD t.priority, k.enchantLevel⟩ := by
  simp only [resolve, Option.filter_some, enchanted, if_true]
  cases t.variantFor? k <;> rfl

/-- An enchanted skill gives its level, and the variant that is picked for it what it sets. -/
theorem resolve_enchanted (route : k.enchantRoute ≠ 0) (level : k.enchantLevel ≠ 0) :
    (∃ v, t.Chosen k v ∧ t.resolve (some k) = ⟨v.duration.getD t.duration,
      v.power.getD t.power, v.priority.getD t.priority, k.enchantLevel⟩) ∨
    (∀ v ∈ t.variants, ¬ (v.route = k.enchantRoute ∧ v.minLevel ≤ k.enchantLevel)) ∧
      t.resolve (some k) = ⟨t.duration, t.power, t.priority, k.enchantLevel⟩ := by
  rw [resolve_of_isEnchanted (isEnchanted_eq_true_iff.2 ⟨route, level⟩)]
  cases hfound : t.variantFor? k with
  | none => exact .inr ⟨variantFor?_eq_none_iff.1 hfound, rfl⟩
  | some v => exact .inl ⟨v, variantFor?_eq_some_iff.1 hfound, rfl⟩

theorem resolve_perm (distinct : (t.variants.map fun v => (v.route, v.minLevel)).Nodup)
    (h : vs.Perm t.variants) (skill : Option Skill) :
    { t with variants := vs }.resolve skill = t.resolve skill := by
  simp only [resolve, variantFor?_perm distinct h, baseParams]

/-- Between two steps of a route nothing changes but the level. -/
theorem resolve_between (route : k.enchantRoute = k'.enchantRoute)
    (level : k.enchantLevel = 0 ↔ k'.enchantLevel = 0)
    (between : ∀ v ∈ t.variants, v.route = k.enchantRoute →
      (v.minLevel ≤ k.enchantLevel ↔ v.minLevel ≤ k'.enchantLevel)) :
    (t.resolve (some k)).duration = (t.resolve (some k')).duration ∧
      (t.resolve (some k)).power = (t.resolve (some k')).power ∧
      (t.resolve (some k)).priority = (t.resolve (some k')).priority := by
  have hsame : k.isEnchanted = k'.isEnchanted := by
    rw [Bool.eq_iff_iff, isEnchanted_eq_true_iff, isEnchanted_eq_true_iff, ← route, Ne, Ne, level]
  cases henchanted : k.isEnchanted with
  | true =>
    rw [resolve_of_isEnchanted henchanted, resolve_of_isEnchanted (hsame ▸ henchanted),
      variantFor?_between route between]
    exact ⟨rfl, rfl, rfl⟩
  | false =>
    rw [t.resolve_of_plain henchanted, t.resolve_of_plain (hsame ▸ henchanted)]
    exact ⟨rfl, rfl, rfl⟩

/-- **Parameters of a cast.**  Without a skill, or with one that has no route or no enchant level,
they are those of the template.  An enchanted skill gives its level, and the variant that is picked
for it what it sets; the rest is that of the template.  The order in which the variants are declared
does not matter unless two are for the same route and level.  Along a route the level of the variant
that is picked never falls, and between two such levels nothing changes but the level of the
skill. -/
theorem resolve_exact (t : Template) :
    (∀ skill : Option Skill, (∀ k, skill = some k → k.enchantRoute = 0 ∨ k.enchantLevel = 0) →
      t.resolve skill = ⟨t.duration, t.power, t.priority, 0⟩) ∧
    (∀ k : Skill, k.enchantRoute ≠ 0 → k.enchantLevel ≠ 0 →
      (∃ v, t.Chosen k v ∧ t.resolve (some k) = ⟨v.duration.getD t.duration,
        v.power.getD t.power, v.priority.getD t.priority, k.enchantLevel⟩) ∨
      (∀ v ∈ t.variants, ¬ (v.route = k.enchantRoute ∧ v.minLevel ≤ k.enchantLevel)) ∧
        t.resolve (some k) = ⟨t.duration, t.power, t.priority, k.enchantLevel⟩) ∧
    ((t.variants.map fun v => (v.route, v.minLevel)).Nodup → ∀ vs, vs.Perm t.variants →
      ∀ skill, { t with variants := vs }.resolve skill = t.resolve skill) ∧
    (∀ k k' v, k.enchantRoute = k'.enchantRoute → k.enchantLevel ≤ k'.enchantLevel →
      t.Chosen k v → ∃ v', t.Chosen k' v' ∧ v.minLevel ≤ v'.minLevel) ∧
    ∀ k k' : Skill, k.enchantRoute = k'.enchantRoute →
      (k.enchantLevel = 0 ↔ k'.enchantLevel = 0) →
      (∀ v ∈ t.variants, v.route = k.enchantRoute →
        (v.minLevel ≤ k.enchantLevel ↔ v.minLevel ≤ k'.enchantLevel)) →
      (t.resolve (some k)).duration = (t.resolve (some k')).duration ∧
        (t.resolve (some k)).power = (t.resolve (some k')).power ∧
        (t.resolve (some k)).priority = (t.resolve (some k')).priority :=
  ⟨fun _ plain => resolve_unenchanted plain, fun _ route level => resolve_enchanted route level,
    fun distinct _ h skill => resolve_perm distinct h skill,
    fun _ _ _ route level h => h.mono route level,
    fun _ _ route level between => resolve_between route level between⟩

/-- A shield with two steps on one route, the first of them declared twice, and one on another. -/
def shield : Template where
  id := ⟨1⟩
  name := "Shield"
  skill := ⟨1040⟩
  kind := .buff
  abnormalType := .buff
  duration := 1200
  priority := 3
  variants := [
    { route := 1, minLevel := 15, duration := some 1800, priority := some 5 },
    { route := 1, minLevel := 1, duration := some 1300 },
    { route := 2, minLevel := 1, power := some 40 },
    { route := 1, minLevel := 15, power := some 7 }]

/-- At level twenty the step declared last counts, and it sets the power alone; from fifteen on
nothing else changes.  Without that step the others may come in any order. -/
theorem resolve_exact_shield :
    shield.resolve (some ⟨⟨1040⟩, 3, 1, 20⟩) = ⟨1200, 7, 3, 20⟩ ∧
      (shield.resolve (some ⟨⟨1040⟩, 3, 1, 15⟩)).power = 7 ∧
      let steps := shield.variants.take 3
      ∀ skill, { shield with variants := steps.reverse }.resolve skill =
        { shield with variants := steps }.resolve skill := by
  have hresolve : shield.resolve (some ⟨⟨1040⟩, 3, 1, 20⟩) = ⟨1200, 7, 3, 20⟩ := by
    obtain ⟨v, hchosen, hresolve⟩ | ⟨hnone, -⟩ :=
      (resolve_exact shield).2.1 ⟨⟨1040⟩, 3, 1, 20⟩ (by decide) (by decide)
    · obtain rfl := Option.some.inj ((variantFor?_eq_some_iff.2 hchosen).symm.trans rfl)
      exact hresolve
    · exact absurd ⟨rfl, by decide⟩ (hnone _ List.mem_cons_self)
  refine ⟨hresolve, ?_, fun skill => ?_⟩
  · have hbetween := (resolve_exact shield).2.2.2.2 ⟨⟨1040⟩, 3, 1, 15⟩ ⟨⟨1040⟩, 3, 1, 20⟩ rfl
      (by decide) (by decide)
    exact hbetween.2.1.trans (congrArg Params.power hresolve)
  · exact (resolve_exact { shield with variants := shield.variants.take 3 }).2.2.1 (by decide) _
      (List.reverse_perm _) skill

end Template

end StatusEffects
