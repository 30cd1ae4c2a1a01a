import StatusEffects.Proofs.Step

/-!
# Conditions without the spatial index

While it is not known where the actors are, every test for a character around is false.  Below an
even number of negations that can only close the gate.  Below an odd number it opens it, unless the
test would be false anyway.

## Main definitions

* `Condition.Occurs` : a test of a condition, with the parity of the negations above it.
* `Condition.Guarded` : the tests below an odd number of negations look for nobody who is around.

## Main statements

* `Condition.holds_of_occurs` : a condition is monotone in the tests below an even number of
  negations and antitone in those below an odd number.
* `Engine.apply_unlocated` : without the index a request with a guarded condition has the outcome
  that it has with the index, or is refused for its condition.
* `Engine.apply_unlocated_opened` : without a guard the gate can open.
-/

namespace StatusEffects

namespace Condition

variable {s s' : Scene} {c test : Condition} {negated : Bool}

/-- Whether a condition is a single test. -/
def isTest : Condition → Bool
  | .and _ | .or _ | .not _ => false
  | _ => true

/-- Induction over the tree of a condition, with all tests as one case. -/
theorem induction_on {P : Condition → Prop} (test : ∀ c, c.isTest = true → P c)
    (and : ∀ cs, (∀ c ∈ cs, P c) → P (.and cs)) (or : ∀ cs, (∀ c ∈ cs, P c) → P (.or cs))
    (not : ∀ c, P c → P (.not c)) : ∀ c, P c
  | .and cs => and cs fun c _ => induction_on test and or not c
  | .or cs => or cs fun c _ => induction_on test and or not c
  | .not c => not c (induction_on test and or not c)
  | .targetAggro _ | .rangeFromNpc _ _ | .targetInRange _ | .casterHasTags _ | .targetHasTags _
  | .targetAlive _ | .casterAlive _ | .targetLevelAtMost _ | .enchantLevelAtLeast _
  | .valueAtLeast _ => test _ rfl

/-- A test is part of a condition, below an odd number of negations if `negated` and below an even
number otherwise. -/
inductive Occurs (test : Condition) : Bool → Condition → Prop
  | here (h : test.isTest = true) : Occurs test false test
  | and {negated : Bool} {c : Condition} {cs : List Condition} (mem : c ∈ cs)
      (h : Occurs test negated c) : Occurs test negated (.and cs)
  | or {negated : Bool} {c : Condition} {cs : List Condition} (mem : c ∈ cs)
      (h : Occurs test negated c) : Occurs test negated (.or cs)
  | not {negated : Bool} {c : Condition} (h : Occurs test (!negated) c) :
      Occurs test negated (.not c)

theorem Occurs.isTest (h : Occurs test negated c) : test.isTest = true := by
  induction h with
  | here h => exact h
  | and _ _ ih | or _ _ ih | not _ ih => exact ih

/-- A condition rises with the tests below an even number of negations and falls with those below
an odd number. -/
theorem holds_of_occurs (even : ∀ test, Occurs test false c → holds s test → holds s' test)
    (odd : ∀ test, Occurs test true c → holds s' test → holds s test) (h : holds s c) :
    holds s' c := by
  -- a negation swaps the two scenes
  induction c using induction_on generalizing s s' with
  | test c hc => exact even c (.here hc) h
  | and cs ih =>
    simp only [holds, allHold_eq_all, List.all_eq_true] at h ⊢
    exact fun c hc => ih c hc (fun test ht => even test (.and hc ht))
      (fun test ht => odd test (.and hc ht)) (h c hc)
  | or cs ih =>
    simp only [holds, anyHolds_eq_any, List.any_eq_true] at h ⊢
    obtain ⟨c, hc, hholds⟩ := h
    exact ⟨c, hc, ih c hc (fun test ht => even test (.or hc ht))
      (fun test ht => odd test (.or hc ht)) hholds⟩
  | not c ih =>
    simp only [holds, Bool.not_eq_true', ← Bool.not_eq_true] at h ⊢
    exact fun hholds => h (ih (fun test ht => odd test (.not ht))
      (fun test ht => even test (.not ht)) hholds)

/-- Nobody is around whom a test below an odd number of negations looks for. -/
def Guarded (s : Scene) (c : Condition) : Prop :=
  ∀ npcId radius, Occurs (.rangeFromNpc npcId radius) true c → npcAround s npcId radius = false

section Blind

variable {w : Option Surroundings}
  (blind : ∀ center radius, ∃ fault, ({ s with world := w } : Scene).near center radius =
    .error fault)

include blind

theorem npcAround_blind (npcId radius : UInt32) :
    npcAround { s with world := w } npcId radius = false := by
  simp only [npcAround]
  split_ifs
  · rfl
  · split
    · rfl
    · next caster _ =>
      obtain ⟨fault, hfault⟩ := blind caster.position radius
      simp only [hfault]

/-- A guarded condition that holds without an answer from the world holds with any answer. -/
theorem holds_of_blind (guarded : c.Guarded s) (h : holds { s with world := w } c) :
    holds s c := by
  refine holds_of_occurs (fun test ht hholds => ?_) (fun test ht hholds => ?_) h
  · have hfalse := npcAround_blind blind
    cases test with
    | rangeFromNpc npcId radius => simp [holds, hfalse] at hholds
    | and | or | not => exact absurd ht.isTest Bool.false_ne_true
    | _ => exact hholds
  · cases test with
    | rangeFromNpc npcId radius => simp [holds, guarded npcId radius ht] at hholds
    | and | or | not => exact absurd ht.isTest Bool.false_ne_true
    | _ => exact hholds

end Blind

end Condition

namespace Engine

variable {g : Engine} {t : Template} {r : Request}

theorem holds_located {c : Condition} (guarded : c.Guarded ((g.perform (.locate true)).scene r))
    (h : c.holds ((g.perform (.locate false)).scene r)) :
    c.holds ((g.perform (.locate true)).scene r) :=
  Condition.holds_of_blind (w := some (g.perform (.locate false)).world.surroundings)
    (fun _ _ => ⟨.notReady, rfl⟩) guarded h

/-- Losing the index leaves the verdict of the gate as it is or makes it refuse the condition. -/
theorem gate_unlocated
    (guarded : ∀ c, t.condition = some c → c.Guarded ((g.perform (.locate true)).scene r)) :
    (g.perform (.locate false)).gate t r = (g.perform (.locate true)).gate t r ∨
      (g.perform (.locate false)).gate t r = .error (.conditionFailed t.id) := by
  have hget : ∀ ready, (g.perform (.locate ready)).world.get? r.target = g.world.get? r.target :=
    fun _ => rfl
  simp only [gate, hget]
  cases g.world.get? r.target with
  | none => exact .inl rfl
  | some actor =>
    simp only
    split_ifs with halive hlost hfound hfound
    · exact .inl rfl
    · exact .inl rfl
    · refine absurd ?_ hfound
      cases hc : t.condition with
      | none => rfl
      | some c =>
        rw [hc] at hlost
        exact holds_located (guarded c hc) hlost
    · exact .inr rfl
    · exact .inl rfl

/-- Past the gate nothing depends on whether it is known where the actors are. -/
theorem applyTemplate_locate (ready : Bool)
    (same : (g.perform (.locate ready)).gate t r = g.gate t r) :
    (g.perform (.locate ready)).applyTemplate t r =
      ((g.applyTemplate t r).1.perform (.locate ready), (g.applyTemplate t r).2) := by
  simp only [applyTemplate, same]
  cases g.gate t r with
  | error refusal => rfl
  | ok actor =>
    have hsettings : (g.perform (.locate ready)).settings = g.settings := rfl
    have hincoming : (g.perform (.locate ready)).incoming t r = g.incoming t r := rfl
    simp only [hsettings, hincoming]
    cases (actor.bearer.apply actor.profile g.settings (g.incoming t r)).answer with
    | error refusal => rfl
    | ok a =>
      simp only [scheduleFor]
      cases a.timer <;> rfl

/-- **Without the index the gate fails closed for guarded conditions.**  A request has the outcome
that it has with the index, or it is refused for its condition and changes nothing; and one that
succeeds has a condition that holds with the index too. -/
theorem apply_unlocated (g : Engine) (r : Request)
    (guarded : ∀ t c, g.codex.get? r.template = some t → t.condition = some c →
      c.Guarded ((g.perform (.locate true)).scene r)) :
    let found := g.perform (.locate true)
    let lost := g.perform (.locate false)
    (lost.apply r = ((found.apply r).1.perform (.locate false), (found.apply r).2) ∨
      ∃ t, g.codex.get? r.template = some t ∧
        lost.apply r = (lost, .error (.conditionFailed t.id))) ∧
    ∀ a, (lost.apply r).2 = .ok a → ∃ t, g.codex.get? r.template = some t ∧
      t.condition.all (Condition.holds (found.scene r)) = true := by
  intro found lost
  have hcodex : found.codex = g.codex ∧ lost.codex = g.codex := ⟨rfl, rfl⟩
  simp only [apply, hcodex]
  cases ht : g.codex.get? r.template with
  | none =>
    refine ⟨.inl rfl, fun a ha => ?_⟩
    cases ha
  | some t =>
    simp only [Option.some.injEq, exists_eq_left']
    rcases gate_unlocated (guarded t · ht) with hsame | hfailed
    · -- the gate gives the same verdict, so all that follows is the same
      have happly : lost.applyTemplate t r =
          ((found.applyTemplate t r).1.perform (.locate false), (found.applyTemplate t r).2) :=
        applyTemplate_locate (g := found) false hsame
      refine ⟨.inl happly, fun a ha => ?_⟩
      rw [happly] at ha
      cases hgate : found.gate t r with
      | error refusal =>
        rw [applyTemplate_of_error hgate] at ha
        cases ha
      | ok actor => exact (gate_eq_ok_iff.1 hgate).2.2
    · have happly : lost.applyTemplate t r = (lost, .error (.conditionFailed t.id)) :=
        applyTemplate_of_error hfailed
      refine ⟨.inr happly, fun a ha => ?_⟩
      rw [happly] at ha
      cases ha

/-- A blessing for those who have no gatekeeper around. -/
def solitude : Template where
  id := ⟨1⟩
  name := "Solitude"
  skill := ⟨1⟩
  kind := .buff
  abnormalType := .buff
  duration := 10
  condition := some (.not (.rangeFromNpc 30120 500))

/-- A player and a gatekeeper, so far to the east of it, under a codex of the blessing alone. -/
def besideGatekeeper (east : Int32) : Engine :=
  (opened {} { templates := [solitude], ids_nodup := by decide, routes_pos := by decide } 0 true
    1).run
    [.enter 1, .spawn { id := ⟨7⟩, tags := .npc, npcId := 30120, position := ⟨east, 0, 0⟩ }]

/-- The player blesses itself. -/
def ownBlessing : Request := { template := ⟨1⟩, caster := ⟨1⟩, target := ⟨1⟩ }

/-- With the gatekeeper out of reach the blessing is granted with and without the index. -/
theorem apply_unlocated_far :
    (((besideGatekeeper 501).perform (.locate false)).apply ownBlessing).2 =
        .ok ⟨⟨1⟩, ⟨1⟩, false⟩ ∧
      solitude.condition.all
        (Condition.holds (((besideGatekeeper 501).perform (.locate true)).scene ownBlessing)) =
        true := by
  have happly : (((besideGatekeeper 501).perform (.locate false)).apply ownBlessing).2 =
      .ok ⟨⟨1⟩, ⟨1⟩, false⟩ := by decide +kernel
  have hguarded : ∀ t c, (besideGatekeeper 501).codex.get? ⟨1⟩ = some t → t.condition = some c →
      c.Guarded (((besideGatekeeper 501).perform (.locate true)).scene ownBlessing) := by
    rintro t c ht hc npcId radius hoccurs
    obtain rfl := Option.some.inj ht
    obtain rfl := Option.some.inj hc
    -- the only test below the negation asks for the gatekeeper
    cases hoccurs with
    | not h =>
      cases h
      decide +kernel
  obtain ⟨t, ht, hholds⟩ := (apply_unlocated _ ownBlessing hguarded).2 _ happly
  obtain rfl := Option.some.inj ht
  exact ⟨happly, hholds⟩

/-- **The gate can open.**  With the gatekeeper at hand the blessing is refused, but not while it is
unknown where the actors are. -/
theorem apply_unlocated_opened :
    (((besideGatekeeper 0).perform (.locate true)).apply ownBlessing).2 =
        .error (.conditionFailed ⟨1⟩) ∧
      (((besideGatekeeper 0).perform (.locate false)).apply ownBlessing).2 =
        .ok ⟨⟨1⟩, ⟨1⟩, false⟩ ∧
      solitude.condition.all
        (Condition.holds (((besideGatekeeper 0).perform (.locate true)).scene ownBlessing)) =
        false := by
  refine ⟨?_, ?_, ?_⟩ <;> decide +kernel

end Engine

end StatusEffects
