import StatusEffects.Template.Codex
import StatusEffects.Proofs.Keyed
import Mathlib.Data.List.AList

/-!
# Directory of templates

A codex answers from the list of its templates.  A directory answers from two tables: the templates
by their keys, and for each skill the keys of its templates in the order of registration.  It is
filled in one pass that stops at the first template that breaks a rule, and then gives the answers
of the codex.

## Main definitions

* `Directory`, `Directory.file`, `Directory.ofList` : the two tables, and the pass that fills them.
* `Directory.Lists` : the tables of a directory are those of a list.
* `Codex.Lawful`, `Codex.FirstFault` : the rules, and the first template that breaks one.
* `Serves` : what a store of templates answers if they are those of a list.

## Main statements

* `Directory.Lists.file`, `Directory.fileAll_eq` : one template more, and the pass.
* `Directory.ofList_eq_map` : the pass succeeds and fails with the check of the codex.
* `Codex.firstFault?_eq_some_iff` : the fault that is found first.
* `Codex.ofList_exact` : which lists make a codex and a directory, and what both answer.
-/

namespace StatusEffects

/-- The templates by their keys, and the keys of the templates of each skill. -/
structure Directory where
  byKey : AList fun _ : TemplateId => Template := ∅
  bySkill : AList fun _ : SkillId => List TemplateId := ∅

namespace Directory

/-! ### Tables -/

/-- The template with a key. -/
def get? (d : Directory) (id : TemplateId) : Option Template := d.byKey.lookup id

/-- The keys of the templates of a skill, in the order of registration. -/
def keysOf (d : Directory) (skill : SkillId) : List TemplateId := (d.bySkill.lookup skill).getD []

/-- The templates of a skill.  A key without a template is passed over. -/
def forSkill (d : Directory) (skill : SkillId) : List Template :=
  (d.keysOf skill).filterMap d.get?

/-- Number of templates. -/
def size (d : Directory) : Nat := d.byKey.keys.length

/-- Enters a template in both tables. -/
def file (d : Directory) (t : Template) : Directory where
  byKey := d.byKey.insert t.id t
  bySkill := d.bySkill.insert t.skill (d.keysOf t.skill ++ [t.id])

/-- The rule that a template breaks if it is entered next. -/
def fault? (d : Directory) (t : Template) : Option CodexFault :=
  if t.hasRouteZero then some (.variantOnRouteZero t.id)
  else if t.id ∈ d.byKey then some (.duplicate t.id)
  else none

/-- Enters templates up to the first that breaks a rule. -/
def fileAll (d : Directory) : List Template → Except CodexFault Directory
  | [] => .ok d
  | t :: rest =>
    match d.fault? t with
    | some fault => .error fault
    | none => (d.file t).fileAll rest

/-- The directory of a list of templates, or the fault of the first that breaks a rule. -/
def ofList (ts : List Template) : Except CodexFault Directory := fileAll {} ts

/-- The directory of the templates of a codex. -/
def ofCodex (c : Codex) : Directory := c.templates.foldl file {}

variable {d : Directory} {t : Template} {ts before : List Template} {id : TemplateId}
  {skill : SkillId} {seen : List TemplateId}

/-! ### The tables of a list -/

/-- The tables are those of a list. -/
structure Lists (d : Directory) (ts : List Template) : Prop where
  get? : ∀ id, d.get? id = ts.find? (·.id == id)
  keysOf : ∀ skill, d.keysOf skill = (ts.filter (·.skill == skill)).map (·.id)
  size : d.size = ts.length

theorem lists_empty : Lists {} [] := ⟨fun _ => rfl, fun _ => rfl, rfl⟩

namespace Lists

theorem mem_byKey (h : d.Lists ts) : id ∈ d.byKey ↔ id ∈ ts.map (·.id) := by
  rw [← AList.lookup_isSome]
  show (d.get? id).isSome = true ↔ _
  rw [h.get?, List.find?_isSome]
  simp only [beq_iff_eq, List.mem_map]

/-- A template that is new to the directory is entered behind the others. -/
theorem file (h : d.Lists ts) (new : t.id ∉ ts.map (·.id)) : (d.file t).Lists (ts ++ [t]) where
  get? id := by
    rw [Directory.get?, Directory.file, List.find?_append, ← h.get?]
    by_cases hid : id = t.id
    · subst hid
      have hnone : d.get? t.id = none :=
        AList.lookup_eq_none.2 fun hmem => new (h.mem_byKey.1 hmem)
      simp [hnone]
    · have hother : (t.id == id) = false := beq_eq_false_iff_ne.2 (Ne.symm hid)
      simp [hother, AList.lookup_insert_ne hid, Directory.get?]
  keysOf skill := by
    rw [Directory.keysOf, Directory.file, List.filter_append, List.map_append, ← h.keysOf]
    by_cases hskill : skill = t.skill
    · subst hskill
      simp
    · have hother : (t.skill == skill) = false := beq_eq_false_iff_ne.2 (Ne.symm hskill)
      simp [hother, AList.lookup_insert_ne hskill, Directory.keysOf]
  size := by
    have hnew : t.id ∉ d.byKey.keys := fun hmem => new (h.mem_byKey.1 (AList.mem_keys.2 hmem))
    rw [Directory.size, Directory.file, AList.keys_insert, List.erase_of_not_mem hnew]
    simp [← h.size, Directory.size]

/-- Templates with keys of their own are entered behind the others. -/
theorem foldl (h : d.Lists before) (distinct : ((before ++ ts).map (·.id)).Nodup) :
    (ts.foldl Directory.file d).Lists (before ++ ts) := by
  induction ts generalizing d before with
  | nil => simpa using h
  | cons t rest ih =>
    have hnew : t.id ∉ before.map (·.id) := by
      rw [List.map_append, List.map_cons] at distinct
      exact fun hmem => (List.disjoint_of_nodup_append distinct) hmem List.mem_cons_self
    rw [List.append_cons] at distinct ⊢
    exact ih (h.file hnew) distinct

/-- **The keys of a skill lead to the templates of the skill.** -/
theorem forSkill (h : d.Lists ts) (distinct : (ts.map (·.id)).Nodup) (skill : SkillId) :
    d.forSkill skill = ts.filter (·.skill == skill) := by
  rw [Directory.forSkill, h.keysOf, List.filterMap_map]
  refine (List.filterMap_congr fun t ht => ?_).trans List.filterMap_some
  rw [Function.comp_apply, h.get?]
  exact (find?_key_eq_some_iff distinct).2 ⟨List.mem_of_mem_filter ht, rfl⟩

end Lists

theorem lists_ofCodex (c : Codex) : (ofCodex c).Lists c.templates :=
  lists_empty.foldl c.ids_nodup

/-! ### The pass -/

/-- **The pass and the check.**  Behind templates that have been entered the pass fails where the
check of the rules fails, and with the same fault. -/
theorem fileAll_eq (h : d.Lists before) (keys : ∀ id, id ∈ seen ↔ id ∈ before.map (·.id)) :
    d.fileAll ts = match Codex.firstFault? seen ts with
      | some fault => .error fault
      | none => .ok (ts.foldl file d) := by
  induction ts generalizing d before seen with
  | nil => rfl
  | cons t rest ih =>
    have hmem : t.id ∈ d.byKey ↔ t.id ∈ seen := h.mem_byKey.trans (keys t.id).symm
    simp only [fileAll, fault?, Codex.firstFault?, hmem]
    split_ifs with hroute hseen
    · rfl
    · rfl
    · refine ih (h.file fun hbefore => hseen ((keys t.id).2 hbefore)) fun id => ?_
      simp [keys, or_comm, eq_comm]

end Directory

namespace Codex

variable {c : Codex} {ts before after : List Template} {t : Template} {fault : CodexFault}
  {seen : List TemplateId}

/-! ### The rules -/

/-- The rules of a codex. -/
def Lawful (ts : List Template) : Prop :=
  (ts.map (·.id)).Nodup ∧ ∀ t ∈ ts, ∀ v ∈ t.variants, v.route ≠ 0

/-- The rule that a template breaks behind others.  A variant on route zero is told before a key
that is taken. -/
inductive Breaks (before : List Template) (t : Template) : CodexFault → Prop
  | routeZero (zero : ∃ v ∈ t.variants, v.route = 0) : Breaks before t (.variantOnRouteZero t.id)
  | duplicate (pos : ∀ v ∈ t.variants, v.route ≠ 0) (taken : ∃ u ∈ before, u.id = t.id) :
      Breaks before t (.duplicate t.id)

/-- The fault is that of the first template that breaks a rule. -/
def FirstFault (ts : List Template) (fault : CodexFault) : Prop :=
  ∃ before t after, ts = before ++ t :: after ∧ Lawful before ∧ Breaks before t fault

theorem hasRouteZero_eq_true_iff : t.hasRouteZero = true ↔ ∃ v ∈ t.variants, v.route = 0 := by
  simp [Template.hasRouteZero]

theorem hasRouteZero_eq_false_iff : t.hasRouteZero = false ↔ ∀ v ∈ t.variants, v.route ≠ 0 := by
  simp [Template.hasRouteZero]

theorem lawful (c : Codex) : Lawful c.templates :=
  ⟨c.ids_nodup, fun t ht => hasRouteZero_eq_false_iff.1 (c.routes_pos t ht)⟩

theorem firstFault?_eq_none_iff_lawful : firstFault? [] ts = none ↔ Lawful ts := by
  simp [firstFault?_eq_none_iff, hasRouteZero_eq_false_iff, Lawful, and_comm]

/-! ### The check -/

theorem ofList_eq_ok_iff : ofList ts = .ok c ↔ c.templates = ts := by
  constructor
  · intro h
    rw [ofList] at h
    split at h
    · cases h
    · exact congrArg Codex.templates (Except.ok.inj h).symm
  · rintro rfl
    have hnone := firstFault?_eq_none_iff_lawful.2 c.lawful
    rw [ofList]
    split
    · next hsome => cases hnone.symm.trans hsome
    · rfl

theorem ofList_eq_error_iff : ofList ts = .error fault ↔ firstFault? [] ts = some fault := by
  rw [ofList]
  split
  · next hsome => simp [hsome]
  · next hnone => simp [hnone]

/-- Templates are checked behind others with the keys of these. -/
theorem firstFault?_append (seen : List TemplateId) (before ts : List Template) :
    firstFault? seen (before ++ ts) =
      (firstFault? seen before).or (firstFault? ((before.map (·.id)).reverse ++ seen) ts) := by
  induction before generalizing seen with
  | nil => rfl
  | cons t rest ih =>
    simp only [List.cons_append, firstFault?, ih]
    split_ifs
    · rfl
    · rfl
    · simp

/-- What is found is the fault of a template behind others that have none. -/
theorem firstFault?_eq_some_iff : firstFault? seen ts = some fault ↔
    ∃ before t after, ts = before ++ t :: after ∧ firstFault? seen before = none ∧
      firstFault? ((before.map (·.id)).reverse ++ seen) [t] = some fault := by
  constructor
  · intro h
    induction ts generalizing seen with
    | nil => cases h
    | cons t rest ih =>
      rw [← List.singleton_append, firstFault?_append] at h
      cases hfirst : firstFault? seen [t] with
      | some found =>
        rw [hfirst] at h
        exact ⟨[], t, rest, rfl, rfl, hfirst.trans h⟩
      | none =>
        rw [hfirst, Option.none_or] at h
        obtain ⟨before, u, after, rfl, hbefore, hu⟩ := ih h
        refine ⟨t :: before, u, after, rfl, ?_, by simpa using hu⟩
        rw [← List.singleton_append, firstFault?_append, hfirst, Option.none_or]
        exact hbefore
  · rintro ⟨before, t, after, rfl, hbefore, ht⟩
    rw [firstFault?_append, hbefore, Option.none_or, ← List.singleton_append, firstFault?_append,
      ht, Option.some_or]

theorem breaks_iff : Breaks before t fault ↔
    firstFault? ((before.map (·.id)).reverse ++ []) [t] = some fault := by
  have htaken : t.id ∈ (before.map (·.id)).reverse ++ [] ↔ ∃ u ∈ before, u.id = t.id := by simp
  simp only [firstFault?, htaken]
  constructor
  · rintro (zero | ⟨pos, taken⟩)
    · rw [if_pos (hasRouteZero_eq_true_iff.2 zero)]
    · rw [hasRouteZero_eq_false_iff.2 pos, if_neg Bool.false_ne_true, if_pos taken]
  · intro h
    split_ifs at h with hzero taken
    · obtain rfl := Option.some.inj h
      exact .routeZero (hasRouteZero_eq_true_iff.1 hzero)
    · obtain rfl := Option.some.inj h
      exact .duplicate (hasRouteZero_eq_false_iff.1 (Bool.eq_false_iff.2 hzero)) taken

end Codex

/-- **The pass succeeds and fails with the check of the codex**, and gives its directory. -/
theorem Directory.ofList_eq_map (ts : List Template) :
    ofList ts = (Codex.ofList ts).map ofCodex := by
  have hpass : ofList ts = match Codex.firstFault? [] ts with
      | some fault => .error fault
      | none => .ok (ts.foldl file {}) := fileAll_eq lists_empty fun _ => Iff.rfl
  rw [hpass]
  cases hfound : Codex.ofList ts with
  | error fault => simp only [Codex.ofList_eq_error_iff.1 hfound, Except.map]
  | ok c =>
    obtain rfl := Codex.ofList_eq_ok_iff.1 hfound
    simp only [Codex.firstFault?_eq_none_iff_lawful.2 c.lawful, Except.map, ofCodex]

/-! ### Answers -/

/-- What a store answers if its templates are those of a list: each key leads to its template and
other keys to none, and a skill leads to its templates in the order of the list.  So each template
is reached once through its own skill, and through no other. -/
structure Serves (ts : List Template) (get? : TemplateId → Option Template)
    (forSkill : SkillId → List Template) (size : Nat) : Prop where
  known : ∀ t ∈ ts, get? t.id = some t
  unknown : ∀ id, (∀ t ∈ ts, t.id ≠ id) → get? id = none
  counted : size = ts.length
  listed : ∀ skill, forSkill skill = ts.filter fun t => t.skill = skill
  once : ∀ t ∈ ts, ∀ skill,
    ((forSkill skill).map (·.id)).count t.id = if t.skill = skill then 1 else 0

namespace Codex

theorem serves (c : Codex) : Serves c.templates c.get? c.forSkill c.size where
  known t ht := (find?_key_eq_some_iff c.ids_nodup).2 ⟨ht, rfl⟩
  unknown id hid := List.find?_eq_none.2 fun t ht => by simpa using hid t ht
  counted := rfl
  listed skill := List.filter_congr fun t _ => beq_eq_decide ..
  once t ht skill := by
    have hdistinct : ((c.forSkill skill).map (·.id)).Nodup :=
      c.ids_nodup.sublist (List.filter_sublist.map _)
    rw [hdistinct.count]
    refine if_congr ?_ rfl rfl
    constructor
    · intro hmem
      obtain ⟨u, hu, hid⟩ := List.mem_map.1 hmem
      obtain ⟨hu, hskill⟩ := List.mem_filter.1 hu
      obtain rfl := List.inj_on_of_nodup_map c.ids_nodup hu ht hid
      exact beq_iff_eq.1 hskill
    · intro hskill
      exact List.mem_map_of_mem (List.mem_filter.2 ⟨ht, beq_iff_eq.2 hskill⟩)

/-- The directory of a codex gives its answers. -/
theorem answers_ofCodex (c : Codex) :
    (Directory.ofCodex c).get? = c.get? ∧ (Directory.ofCodex c).forSkill = c.forSkill ∧
      (Directory.ofCodex c).size = c.size := by
  have hlists := Directory.lists_ofCodex c
  exact ⟨funext hlists.get?, funext (hlists.forSkill c.ids_nodup), hlists.size⟩

/-- **Which lists make a codex, and what it answers.**  A list makes a codex if and only if its keys
are distinct and no enchant variant is on route zero; otherwise the fault is that of the first
template that breaks a rule, and the variant is told before the key.  The pass that fills a
directory has the same outcome.  Codex and directory both serve the list. -/
theorem ofList_exact (ts : List Template) :
    ((∃ c, ofList ts = .ok c) ↔ Lawful ts) ∧
    (∀ fault, ofList ts = .error fault ↔ FirstFault ts fault) ∧
    Directory.ofList ts = (ofList ts).map Directory.ofCodex ∧
    ∀ c, ofList ts = .ok c → Serves ts c.get? c.forSkill c.size ∧
      Serves ts (Directory.ofCodex c).get? (Directory.ofCodex c).forSkill
        (Directory.ofCodex c).size := by
  refine ⟨?_, fun fault => ?_, Directory.ofList_eq_map ts, fun c hc => ?_⟩
  · constructor
    · rintro ⟨c, hc⟩
      exact ofList_eq_ok_iff.1 hc ▸ c.lawful
    · rintro ⟨distinct, pos⟩
      exact ⟨⟨ts, distinct, fun t ht => hasRouteZero_eq_false_iff.2 (pos t ht)⟩,
        ofList_eq_ok_iff.2 rfl⟩
  · rw [ofList_eq_error_iff, firstFault?_eq_some_iff]
    simp only [FirstFault, firstFault?_eq_none_iff_lawful, breaks_iff]
  · obtain rfl := ofList_eq_ok_iff.1 hc
    obtain ⟨hget, hskill, hsize⟩ := answers_ofCodex c
    rw [hget, hskill, hsize]
    exact ⟨c.serves, c.serves⟩

/-- A template of a skill with variants on some routes. -/
def sample (id skill : UInt32) (routes : List UInt32) : Template where
  id := ⟨id⟩
  name := "Sample"
  skill := ⟨skill⟩
  kind := .marker
  abnormalType := .none
  variants := routes.map fun route => { route, minLevel := 1 }

/-- Three templates are served.  With two more the first of these is at fault, both for its variant
on route zero and for its key, and the variant is told. -/
theorem ofList_exact_sample :
    let ts := [sample 3 10 [], sample 1 10 [1], sample 2 11 []]
    (∃ c, ofList ts = .ok c ∧ c.get? ⟨1⟩ = some (sample 1 10 [1]) ∧ c.get? ⟨4⟩ = none ∧
      (Directory.ofCodex c).forSkill ⟨10⟩ = [sample 3 10 [], sample 1 10 [1]]) ∧
    ofList (ts ++ [sample 3 12 [2, 0], sample 1 12 []]) = .error (.variantOnRouteZero ⟨3⟩) := by
  intro ts
  have hlawful : Lawful ts := by unfold Lawful; decide
  constructor
  · obtain ⟨c, hc⟩ := (ofList_exact ts).1.2 hlawful
    obtain ⟨hcodex, hdirectory⟩ := (ofList_exact ts).2.2.2 c hc
    exact ⟨c, hc, hcodex.known (sample 1 10 [1]) (List.mem_cons_of_mem _ List.mem_cons_self),
      hcodex.unknown ⟨4⟩ (by decide), hdirectory.listed ⟨10⟩⟩
  · exact ((ofList_exact _).2.1 _).2
      ⟨ts, sample 3 12 [2, 0], _, rfl, hlawful, .routeZero (by decide)⟩

end Codex

end StatusEffects
