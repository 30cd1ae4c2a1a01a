import StatusEffects.Proofs.Polarity

/-!
# Scenes that tell more

All that a condition looks at but the value may be missing from a scene, and a test that misses
something is false.  So telling more makes no such test false that was true.  Each negation turns
this round: what holds below an even number of them keeps holding when more is told, and what holds
below an odd number has held before.

## Main definitions

* `Scene.Extends` : a scene that tells all that another one tells.
* `Condition.Uniform` : the tests of what may be missing all lie below an even number of negations,
  or all below an odd number.

## Main statements

* `Condition.holds_test_of_extends` : a test that is true stays true when more is told.
* `Condition.isUniform_iff` : the parity can be checked along the tree.
* `Condition.holds_of_extends` : a uniform condition rises or falls with what is told.
-/

namespace StatusEffects

/-! ### Scenes -/

/-- A world that answers no question. -/
def Surroundings.Silent (w : Surroundings) : Prop :=
  ∀ center radius, ∃ fault, w.near center radius = .error fault

/-- The scene `s'` has the value of `s` and tells all that `s` tells.  The two have the same world,
or `s` has none or one that is silent. -/
structure Scene.Extends (s' s : Scene) : Prop where
  value : s'.value = s.value
  caster : ∀ p, s.caster = some p → s'.caster = some p
  target : ∀ p, s.target = some p → s'.target = some p
  skill : ∀ k, s.skill = some k → s'.skill = some k
  world : s.world = s'.world ∨ ∀ w, s.world = some w → w.Silent

namespace Scene

variable {s s' : Scene}

/-- A scene that gets no answer from a world that is silent gets none. -/
theorem near_of_silent (silent : ∀ w, s.world = some w → w.Silent) (center : Position)
    (radius : UInt32) : ∃ fault, s.near center radius = .error fault := by
  simp only [near]
  cases hworld : s.world with
  | none => exact ⟨.absent, rfl⟩
  | some w => exact silent w hworld center radius

/-- An answer of the world stays as it is when more is told. -/
theorem Extends.near (h : s'.Extends s) {center : Position} {radius : UInt32}
    {known : List Profile} (answer : s.near center radius = .ok known) :
    s'.near center radius = .ok known := by
  rcases h.world with hsame | hsilent
  · rw [← answer]
    simp only [Scene.near, hsame]
  · obtain ⟨fault, hfault⟩ := near_of_silent hsilent center radius
    rw [hfault] at answer
    cases answer

end Scene

/-- What is asked of something that may be missing stays true when it is told. -/
theorem any_of_told {α : Type} {o o' : Option α} {f : α → Bool}
    (told : ∀ a, o = some a → o' = some a) (h : o.any f = true) : o'.any f = true := by
  obtain ⟨a, ha, hf⟩ := (Option.any_eq_true _ _).1 h
  exact (Option.any_eq_true _ _).2 ⟨a, told a ha, hf⟩

namespace Condition

variable {s s' : Scene} {c test : Condition} {negated : Bool}

/-! ### Tests -/

theorem npcAround_eq_true_iff {npcId radius : UInt32} : npcAround s npcId radius = true ↔
    (npcId ≠ 0 ∧ radius ≠ 0) ∧ ∃ caster known, s.caster = some caster ∧
      s.near caster.position radius = .ok known ∧
      (known.any fun a => a.id != caster.id && a.is .npc && a.npcId == npcId) = true := by
  simp only [npcAround, ← not_or]
  split_ifs with hzero
  · simp [hzero]
  · cases hcaster : s.caster with
    | none => simp
    | some caster =>
      cases hnear : s.near caster.position radius with
      | error fault => simp [hnear]
      | ok known => simp [hnear, hzero]

theorem inRange_eq_true_iff {radius : UInt32} : inRange s radius = true ↔
    0 < radius ∧ ∃ caster target, s.caster = some caster ∧ s.target = some target ∧
      caster.position.within target.position radius = true := by
  simp only [inRange, Bool.and_eq_true, decide_eq_true_eq]
  cases s.caster <;> cases s.target <;> simp

theorem npcAround_of_extends (h : s'.Extends s) {npcId radius : UInt32}
    (around : npcAround s npcId radius = true) : npcAround s' npcId radius = true := by
  obtain ⟨hpos, caster, known, hcaster, hnear, hany⟩ := npcAround_eq_true_iff.1 around
  exact npcAround_eq_true_iff.2 ⟨hpos, caster, known, h.caster _ hcaster, h.near hnear, hany⟩

theorem inRange_of_extends (h : s'.Extends s) {radius : UInt32} (near : inRange s radius = true) :
    inRange s' radius = true := by
  obtain ⟨hpos, caster, target, hcaster, htarget, hwithin⟩ := inRange_eq_true_iff.1 near
  exact inRange_eq_true_iff.2
    ⟨hpos, caster, target, h.caster _ hcaster, h.target _ htarget, hwithin⟩

/-- **A test that is true stays true when more is told.** -/
theorem holds_test_of_extends (h : s'.Extends s) (single : test.isTest = true)
    (hholds : holds s test = true) : holds s' test = true := by
  cases test with
  | and | or | not => cases single
  | rangeFromNpc => exact npcAround_of_extends h hholds
  | targetInRange => exact inRange_of_extends h hholds
  | casterHasTags | casterAlive => exact any_of_told h.caster hholds
  | targetAggro | targetHasTags | targetAlive | targetLevelAtMost =>
    exact any_of_told h.target hholds
  | enchantLevelAtLeast => exact any_of_told h.skill hholds
  | valueAtLeast threshold =>
    simp only [holds] at hholds ⊢
    rwa [h.value]

/-- Whether a condition is a test of the value, which is never missing. -/
def isOfValue : Condition → Bool
  | .valueAtLeast _ => true
  | _ => false

theorem holds_ofValue (h : s'.Extends s) (ofValue : test.isOfValue = true) :
    holds s' test = holds s test := by
  cases test with
  | valueAtLeast threshold => simp only [holds, h.value]
  | _ => cases ofValue

/-! ### Parity of negations -/

theorem occurs_of_isTest (single : c.isTest = true) :
    Occurs test negated c ↔ test = c ∧ negated = false := by
  constructor
  · rintro (_ | _ | _ | _)
    · exact ⟨rfl, rfl⟩
    all_goals cases single
  · rintro ⟨rfl, rfl⟩
    exact .here single

theorem occurs_and {cs : List Condition} :
    Occurs test negated (.and cs) ↔ ∃ c ∈ cs, Occurs test negated c := by
  constructor
  · rintro (h | ⟨mem, h⟩)
    · cases h
    · exact ⟨_, mem, h⟩
  · rintro ⟨c, mem, h⟩
    exact .and mem h

theorem occurs_or {cs : List Condition} :
    Occurs test negated (.or cs) ↔ ∃ c ∈ cs, Occurs test negated c := by
  constructor
  · rintro (h | _ | ⟨mem, h⟩)
    · cases h
    · exact ⟨_, mem, h⟩
  · rintro ⟨c, mem, h⟩
    exact .or mem h

theorem occurs_not : Occurs test negated (.not c) ↔ Occurs test (!negated) c := by
  constructor
  · rintro (h | _ | _ | h)
    · cases h
    · exact h
  · exact .not

/-- All tests but those of the value lie below an odd number of negations if `negated`, and all
below an even number otherwise. -/
def Uniform (negated : Bool) (c : Condition) : Prop :=
  ∀ test, Occurs test (!negated) c → test.isOfValue = true

mutual

/-- Whether a condition is uniform. -/
def isUniform (negated : Bool) : Condition → Bool
  | .and conditions | .or conditions => allUniform negated conditions
  | .not condition => isUniform (!negated) condition
  | .valueAtLeast _ => true
  | _ => !negated

/-- Whether all of the conditions are uniform. -/
def allUniform (negated : Bool) : List Condition → Bool
  | [] => true
  | c :: rest => isUniform negated c && allUniform negated rest

end

theorem allUniform_eq_all (negated : Bool) (cs : List Condition) :
    allUniform negated cs = cs.all (isUniform negated) := by
  induction cs with
  | nil => rfl
  | cons c rest ih => simp [allUniform, ih]

theorem isUniform_iff : isUniform negated c = true ↔ Uniform negated c := by
  induction c using induction_on generalizing negated with
  | test c hc =>
    simp only [Uniform, occurs_of_isTest hc]
    cases c <;> cases negated <;> simp_all [isUniform, isOfValue, isTest]
  | and cs ih =>
    simp only [isUniform, allUniform_eq_all, List.all_eq_true, Uniform, occurs_and]
    exact ⟨fun h test ⟨c, hc, ht⟩ => (ih c hc).1 (h c hc) test ht,
      fun h c hc => (ih c hc).2 fun test ht => h test ⟨c, hc, ht⟩⟩
  | or cs ih =>
    simp only [isUniform, allUniform_eq_all, List.all_eq_true, Uniform, occurs_or]
    exact ⟨fun h test ⟨c, hc, ht⟩ => (ih c hc).1 (h c hc) test ht,
      fun h c hc => (ih c hc).2 fun test ht => h test ⟨c, hc, ht⟩⟩
  | not c ih => simp only [isUniform, ih, Uniform, occurs_not]

instance (negated : Bool) (c : Condition) : Decidable (c.Uniform negated) :=
  decidable_of_iff _ isUniform_iff

/-! ### Conditions -/

/-- **Telling more raises what lies below an even number of negations and lowers what lies below an
odd number.**  If all tests of a condition but those of the value lie below an even number, then it
holds in a scene that tells more if it holds in one that tells less; if all lie below an odd number,
it is the other way round. -/
theorem holds_of_extends (c : Condition) (h : s'.Extends s) :
    (c.Uniform false → c.holds s = true → c.holds s' = true) ∧
      (c.Uniform true → c.holds s' = true → c.holds s = true) := by
  constructor
  · intro uniform
    refine holds_of_occurs (fun test ht => holds_test_of_extends h ht.isTest) fun test ht => ?_
    rw [holds_ofValue h (uniform test ht)]
    exact id
  · intro uniform
    refine holds_of_occurs (fun test ht => ?_) fun test ht => holds_test_of_extends h ht.isTest
    rw [holds_ofValue h (uniform test ht)]
    exact id

/-- A scene of which only the target is known, in a world that does not know where its actors
are. -/
def glimpse : Scene where
  world := some ⟨fun _ _ => .error .notReady⟩
  target := some { id := ⟨1⟩ }

/-- The same scene with its caster and with a gatekeeper at hand. -/
def fullView : Scene where
  world := some ⟨fun _ _ => .ok [{ id := ⟨7⟩, tags := .npc, npcId := 30120 }]⟩
  caster := some { id := ⟨2⟩ }
  target := some { id := ⟨1⟩ }

/-- What lies below two negations holds in the fuller view as in the glimpse; what lies below one
holds in the glimpse as in the fuller view. -/
theorem holds_of_extends_fullView :
    let sought : Condition :=
      .not (.not (.and [.or [.rangeFromNpc 30120 500, .targetAlive true], .valueAtLeast .zero]))
    let shunned : Condition := .not (.or [.or [], .rangeFromNpc 30120 0, .casterHasTags .player])
    fullView.Extends glimpse ∧ (sought.Uniform false ∧ sought.holds fullView = true) ∧
      shunned.Uniform true ∧ shunned.holds glimpse = true := by
  intro sought shunned
  have hextends : fullView.Extends glimpse :=
    ⟨rfl, fun _ h => (nomatch h), fun _ h => h, fun _ h => (nomatch h),
      .inr fun w hw _ _ => ⟨.notReady, by rw [← Option.some.inj hw]⟩⟩
  have hsought : sought.Uniform false := by decide
  have hshunned : shunned.Uniform true := by decide
  exact ⟨hextends, ⟨hsought, (sought.holds_of_extends hextends).1 hsought (by decide +kernel)⟩,
    hshunned, (shunned.holds_of_extends hextends).2 hshunned (by decide +kernel)⟩

end Condition

end StatusEffects
