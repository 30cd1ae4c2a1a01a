import StatusEffects.Template

/-!
# Codex of templates

The templates an engine knows. No two have the same key, and no enchant variant is on route zero,
which no enchanted skill is on.

## Main definitions

* `CodexFault` : why a list of templates is refused.
* `Codex`, `Codex.ofList` : the templates in the order they were listed.
* `Codex.get?`, `Codex.forSkill` : the template of a key, the templates of a skill.

## Main statements

* `Codex.firstFault?_eq_none_iff` : a list without a fault is one that satisfies both rules.
-/

namespace StatusEffects

/-- Why a list of templates is refused. -/
inductive CodexFault where
  /-- The key is that of an earlier template. -/
  | duplicate (id : TemplateId)
  /-- An enchant variant of the template is on route zero. -/
  | variantOnRouteZero (id : TemplateId)
deriving DecidableEq, Repr

/-- Whether a variant of the template is on route zero. -/
def Template.hasRouteZero (t : Template) : Bool := t.variants.any (·.route == 0)

/-- Templates that satisfy the rules of a codex. -/
structure Codex where
  /-- The templates in the order they were listed. -/
  templates : List Template
  ids_nodup : (templates.map (·.id)).Nodup
  routes_pos : ∀ t ∈ templates, t.hasRouteZero = false

namespace Codex

/-- The fault of the first template that breaks a rule, given the keys before it. -/
def firstFault? (seen : List TemplateId) : List Template → Option CodexFault
  | [] => none
  | t :: rest =>
    if t.hasRouteZero then some (.variantOnRouteZero t.id)
    else if t.id ∈ seen then some (.duplicate t.id)
    else firstFault? (t.id :: seen) rest

theorem firstFault?_eq_none_iff {seen : List TemplateId} {ts : List Template} :
    firstFault? seen ts = none ↔
      (∀ t ∈ ts, t.hasRouteZero = false) ∧ (ts.map (·.id)).Nodup ∧ ∀ t ∈ ts, t.id ∉ seen := by
  induction ts generalizing seen with
  | nil => simp [firstFault?]
  | cons t rest ih =>
    simp only [firstFault?]
    split
    · simp_all
    · split
      · simp_all
      · rename_i hroute hseen
        rw [ih, List.forall_mem_cons, List.forall_mem_cons, List.map_cons, List.nodup_cons]
        simp only [List.mem_map, List.mem_cons, not_or, not_exists, not_and]
        constructor
        · rintro ⟨hr, hn, hs⟩
          exact ⟨⟨Bool.eq_false_iff.2 hroute, hr⟩, ⟨fun u hu => (hs u hu).1, hn⟩, hseen,
            fun u hu => (hs u hu).2⟩
        · rintro ⟨⟨_, hr⟩, ⟨hd, hn⟩, _, hs⟩
          exact ⟨hr, hn, fun u hu => ⟨hd u hu, hs u hu⟩⟩

/-- The codex of a list of templates, or the fault of the first template that breaks a rule. -/
def ofList (ts : List Template) : Except CodexFault Codex :=
  match h : firstFault? [] ts with
  | some fault => .error fault
  | none =>
    have rules := firstFault?_eq_none_iff.1 h
    .ok ⟨ts, rules.2.1, rules.1⟩

/-- The codex without templates. -/
def empty : Codex := ⟨[], List.nodup_nil, fun _ h => absurd h List.not_mem_nil⟩

/-- The template with a key. -/
def get? (c : Codex) (id : TemplateId) : Option Template := c.templates.find? (·.id == id)

/-- The templates a skill applies, in the order they were listed. -/
def forSkill (c : Codex) (skill : SkillId) : List Template :=
  c.templates.filter (·.skill == skill)

/-- Number of templates. -/
def size (c : Codex) : Nat := c.templates.length

end Codex

end StatusEffects
