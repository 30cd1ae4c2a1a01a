import StatusEffects.Proofs.Admitted

/-!
# Enchantment at the gate and in the parameters

A template may ask that the skill is enchanted to some level.  The gate reads the enchant level of
the skill alone, while the parameters of a cast take a skill as enchanted only if it has a route as
well.  A combined number below `1000` is a level without a route.  With such a skill the gate opens,
and the effect that starts has the parameters of a plain cast.

## Main definitions

* `Condition.Conjunct` : a condition that a conjunction, however nested, asks for.

## Main statements

* `Condition.holds_of_conjunct` : a conjunction holds only where all that it asks for does.
* `Template.enchantLevel_resolve` : the enchant level of a cast.
* `Engine.enchanted_run` : what is known of the skill behind an effect that has passed such a gate.
-/

namespace StatusEffects

/-! ### Conjunctions -/

namespace Condition

variable {s : Scene} {c d : Condition}

/-- A condition is asked for by a conjunction, which may be nested. -/
inductive Conjunct (c : Condition) : Condition → Prop
  | self : Conjunct c c
  | and {d : Condition} {ds : List Condition} (mem : d ∈ ds) (h : Conjunct c d) :
      Conjunct c (.and ds)

/-- **A conjunction holds only where all that it asks for does.** -/
theorem holds_of_conjunct (hc : Conjunct c d) (hd : holds s d = true) : holds s c = true := by
  induction hc with
  | self => exact hd
  | and mem _ ih =>
    rw [holds, allHold_eq_all, List.all_eq_true] at hd
    exact ih (hd _ mem)

theorem holds_enchantLevelAtLeast {n : UInt32} : holds s (.enchantLevelAtLeast n) = true ↔
    ∃ k, s.skill = some k ∧ n ≤ k.enchantLevel := by
  simp only [holds, Option.any_eq_true, decide_eq_true_eq]

end Condition

/-! ### Enchanted skills -/

section Skill

variable {k : Skill} {n : UInt32}

/-- What a skill with an enchant level lacks to be enchanted is a route. -/
theorem Skill.isEnchanted_iff (level : 0 < k.enchantLevel) :
    k.isEnchanted = true ↔ 0 < k.enchantRoute := by
  simp [isEnchanted, level]

/-- A combined number has a route from `1000` on. -/
theorem Skill.enchantRoute_ofCombined_pos (id : SkillId) (level combined : UInt32) :
    0 < (ofCombined id level combined).enchantRoute ↔ 1000 ≤ combined.toNat := by
  simp only [ofCombined, UInt32.lt_iff_toNat_lt, UInt32.toNat_div]
  exact Nat.div_pos_iff.trans (and_iff_right (by decide))

/-- The enchant level of a cast is that of the skill if it is enchanted. -/
theorem Template.enchantLevel_resolve (t : Template) (k : Skill) :
    (t.resolve (some k)).enchantLevel = if k.isEnchanted then k.enchantLevel else 0 := by
  simp only [resolve, Option.filter_some]
  split_ifs with henchanted
  · simp only
    split <;> rfl
  · rfl

/-- A skill that is not enchanted is as good as none. -/
theorem Template.resolve_of_plain (t : Template) (plain : k.isEnchanted = false) :
    t.resolve (some k) = t.baseParams := by
  simp only [resolve, Option.filter_some, plain, Bool.false_eq_true, if_false]

/-- The level that a gate asks for is in the parameters if and only if the skill has a route. -/
theorem Template.enchantLevel_resolve_iff (t : Template) (pos : 0 < n)
    (reached : n ≤ k.enchantLevel) :
    k.isEnchanted = true ∧ n ≤ (t.resolve (some k)).enchantLevel ↔ 0 < k.enchantRoute := by
  rw [enchantLevel_resolve, ← Skill.isEnchanted_iff (UInt32.lt_of_lt_of_le pos reached)]
  refine and_iff_left_of_imp fun h => ?_
  rwa [if_pos h]

end Skill

/-! ### Effects behind such a gate -/

namespace Engine

variable {g : Engine} {t : Template} {r : Request} {x : Applied}

/-- The gate of a template opens only for what the condition asks for. -/
theorem holds_of_gate {a : Actor} {c d : Condition} (passed : g.gate t r = .ok a)
    (condition : t.condition = some d) (hc : Condition.Conjunct c d) :
    Condition.holds (g.scene r) c = true := by
  obtain ⟨-, -, hall⟩ := gate_eq_ok_iff.1 passed
  rw [condition] at hall
  exact Condition.holds_of_conjunct hc hall

/-- An effect that starts has the parameters of its cast. -/
theorem bears_of_start (hg : g.Sound) (hq : g.queue.Sound)
    (hr : ∀ id b, g.world.bearer? id = some b → b.Reflected) (started : (g.apply r).2 = .ok x)
    (new : x.refreshed = false) :
    ∃ t a e, g.codex.get? r.template = some t ∧ g.gate t r = .ok a ∧
      (g.apply r).1.Bears r.target e ∧ e.id = x.effect ∧ e.params = t.resolve r.skill := by
  obtain ⟨t, a, hget, passed, ⟨_, _, -, -, rfl, -⟩ | ⟨e, s, -, hbegun, -, rfl, hworld, -⟩⟩ :=
    admission_cases hg hq hr started
  · cases new
  · have found := get?_of_gate passed
    have hg' : (g.apply r).1.Sound :=
      hg.steps (steps_acts (s := (g, [])) hg (acts_apply g r))
    have found' := hworld ▸ World.get?_setBearer_self found
    refine ⟨t, a, e, hget, passed, bears_of_mem hg' found' ?_, rfl, by rw [hbegun]; rfl⟩
    exact List.mem_append_right _ List.mem_cons_self

/-- **Enchantment behind a gate that asks for it**, after every run over an empty world.  If the
condition of a template is a conjunction that asks for an enchant level, then an effect of the
template starts only with a skill of that level, and with the parameters of that cast.  The skill is
enchanted, and its level is in the parameters, if and only if it has a route; without one the
parameters are those of a plain cast.  A combined number has a route from `1000` on. -/
theorem enchanted_run (settings : Settings) (codex : Codex) (start : UInt64) (manual : Bool)
    (capacity : Nat) (ops : List Op) (r : Request) {t : Template} {d : Condition} {n : UInt32}
    {x : Applied} (known : codex.get? r.template = some t) (condition : t.condition = some d)
    (asked : Condition.Conjunct (.enchantLevelAtLeast n) d) (pos : 0 < n)
    (started : (((opened settings codex start manual capacity).run ops).apply r).2 = .ok x)
    (new : x.refreshed = false) :
    ∃ k e, r.skill = some k ∧ n ≤ k.enchantLevel ∧
      (((opened settings codex start manual capacity).run ops).apply r).1.Bears r.target e ∧
      e.id = x.effect ∧ e.params = t.resolve (some k) ∧
      (k.isEnchanted = true ∧ n ≤ e.params.enchantLevel ↔ 0 < k.enchantRoute) ∧
      (k.enchantRoute = 0 → e.params = t.baseParams) ∧
      ∀ id level combined, k = .ofCombined id level combined →
        (0 < k.enchantRoute ↔ 1000 ≤ combined.toNat) := by
  have hopened := sound_opened settings codex start manual capacity
  have hsteps := steps_run hopened ops
  have hcodex : ((opened settings codex start manual capacity).run ops).codex = codex :=
    codex_steps hsteps
  obtain ⟨t', a, e, hget, passed, hbears, hid, hparams⟩ :=
    bears_of_start (hopened.steps hsteps) (timed_run settings codex start manual capacity ops).queue
      ((keeps_reflected codex settings).run start manual capacity ops) started new
  rw [hcodex, known] at hget
  obtain rfl := Option.some.inj hget
  obtain ⟨k, hskill, reached⟩ :=
    Condition.holds_enchantLevelAtLeast.1 (holds_of_gate passed condition asked)
  obtain hskill : r.skill = some k := hskill
  rw [hskill] at hparams
  refine ⟨k, e, hskill, reached, hbears, hid, hparams, ?_, fun hroute => ?_, ?_⟩
  · rw [hparams]
    exact t.enchantLevel_resolve_iff pos reached
  · rw [hparams]
    exact t.resolve_of_plain (by simp [Skill.isEnchanted, hroute])
  · rintro id level combined rfl
    exact Skill.enchantRoute_ofCombined_pos id level combined

/-- A template that asks for a living caster and, in a conjunction within, for an enchant level of
ten. -/
def focusCodex : Codex where
  templates := [
    { id := ⟨1⟩, name := "Focus", skill := ⟨1⟩, kind := .buff, abnormalType := .buff,
      duration := 10,
      condition := some (.and [.casterAlive true, .and [.enchantLevelAtLeast 10]]) }]
  ids_nodup := by decide
  routes_pos := by decide

/-- With a skill on a route the level of the skill is in the parameters. -/
theorem enchanted_run_route :
    let r : Request :=
      { template := ⟨1⟩, caster := ⟨1⟩, target := ⟨1⟩, skill := some (.ofCombined ⟨1⟩ 1 2015) }
    let g := (opened {} focusCodex 0 true 1).run [.enter 1]
    ∃ e, (g.apply r).1.Bears ⟨1⟩ e ∧ 10 ≤ e.params.enchantLevel := by
  intro r g
  have started : (g.apply r).2 = .ok ⟨⟨1⟩, ⟨1⟩, false⟩ := by decide +kernel
  obtain ⟨k, e, hskill, -, hbears, -, -, hiff, -, -⟩ :=
    enchanted_run {} focusCodex 0 true 1 [.enter 1] r rfl rfl
      (.and (List.mem_cons_of_mem _ List.mem_cons_self) (.and List.mem_cons_self .self)) (by decide)
      started rfl
  obtain rfl := Option.some.inj hskill
  exact ⟨e, hbears, (hiff.2 (by decide)).2⟩

/-- With a combined number of fifteen there is no route: the gate opens for an effect whose
parameters know of no enchantment. -/
theorem enchanted_plain :
    let k : Skill := .ofCombined ⟨1⟩ 1 15
    let r : Request := { template := ⟨1⟩, caster := ⟨1⟩, target := ⟨1⟩, skill := some k }
    let g := (opened {} focusCodex 0 true 1).run [.enter 1]
    (∃ t d, focusCodex.get? r.template = some t ∧ t.condition = some d ∧
        Condition.Conjunct (.enchantLevelAtLeast 10) d) ∧
      (g.apply r).2 = .ok ⟨⟨1⟩, ⟨1⟩, false⟩ ∧ k.isEnchanted = false ∧
      ((g.apply r).1.effect? (⟨1⟩, ⟨1⟩)).map (·.params.enchantLevel) = some 0 := by
  refine ⟨⟨_, _, rfl, rfl, ?_⟩, by decide +kernel, rfl, by decide +kernel⟩
  exact .and (List.mem_cons_of_mem _ List.mem_cons_self) (.and List.mem_cons_self .self)

end Engine

end StatusEffects
