import StatusEffects.Proofs.Directory
import StatusEffects.Proofs.Step

/-!
# Casts of a skill

A cast of a skill finds its templates through the table of the skills, and a request finds its
template by the key.  All the same a cast comes to requests for one template each, made one after
the other in the order of registration: it leaves what they leave, and answers what they are
answered.  In particular a template that is refused stands in the way of no other, but by what its
refusal leaves.

## Main definitions

* `Request.ofCast` : the request for one of the templates of a cast.
* `Engine.answers` : what is answered to requests made one after the other.

## Main statements

* `Engine.applyEach_eq` : templates that are found by their keys are requested one after the other.
* `Engine.answers_getElem?` : each answer is the one of its request after the requests before it.
* `Engine.applySkill_run` : a cast of a skill, after every run.
-/

namespace StatusEffects

/-- The request for one of the templates of a cast. -/
def Request.ofCast (caster target : ActorId) (skill : Skill) (id : TemplateId) : Request where
  template := id
  caster
  target
  skill := some skill

namespace Engine

variable {g : Engine} {ts : List Template}

/-- What is answered to requests made one after the other. -/
def answers (g : Engine) : List Request → List (TemplateId × Except Refusal Applied)
  | [] => []
  | r :: rest => (r.template, (g.apply r).2) :: (g.apply r).1.answers rest

/-- Each answer is the one of its request after the requests before it. -/
theorem answers_getElem? (g : Engine) (rs : List Request) (n : Nat) : (g.answers rs)[n]? =
    rs[n]?.map fun r => (r.template, ((g.run ((rs.take n).map .apply)).apply r).2) := by
  induction rs generalizing g n with
  | nil => rfl
  | cons r rest ih =>
    cases n with
    | zero => rfl
    | succ n => exact ih (g.apply r).1 n

theorem codex_apply (g : Engine) (r : Request) : (g.apply r).1.codex = g.codex := by
  simp only [apply]
  split
  · rfl
  · exact codex_applyTemplate g _ r

/-- **Templates that are found by their keys are requested one after the other.** -/
theorem applyEach_eq (caster target : ActorId) (skill : Skill)
    (known : ∀ t ∈ ts, g.codex.get? t.id = some t) :
    let requests := (ts.map (·.id)).map (Request.ofCast caster target skill)
    g.applyEach caster target skill ts = (g.run (requests.map .apply), g.answers requests) := by
  induction ts generalizing g with
  | nil => rfl
  | cons t rest ih =>
    have hfirst : g.apply (.ofCast caster target skill t.id) =
        g.applyTemplate t ⟨t.id, caster, target, some skill, .zero⟩ := by
      simp only [apply, Request.ofCast, known t List.mem_cons_self]
    -- the others are still found by their keys
    have hrest := ih (g := (g.apply (.ofCast caster target skill t.id)).1) fun u hu => by
      rw [codex_apply]
      exact known u (List.mem_cons_of_mem _ hu)
    simp only [applyEach, ← hfirst, hrest]
    rfl

/-- **A cast of a skill is the requests for its templates**, after every run over an empty world.
It leaves what the requests leave that are made one after the other for the keys that the directory
has for the skill, and each of its answers is the one that its request is given after those before
it.  Keys and skills are looked up as in the directory. -/
theorem applySkill_run (settings : Settings) (codex : Codex) (start : UInt64) (manual : Bool)
    (capacity : Nat) (ops : List Op) (caster target : ActorId) (skill : Skill) :
    let d := Directory.ofCodex codex
    let g := (opened settings codex start manual capacity).run ops
    let requests := (d.keysOf skill.id).map (Request.ofCast caster target skill)
    g.codex.get? = d.get? ∧ g.codex.forSkill = d.forSkill ∧
      (g.applySkill caster target skill).1 = g.run (requests.map .apply) ∧
      ∀ n : Nat, (g.applySkill caster target skill).2[n]? = requests[n]?.map fun r =>
        (r.template, ((g.run ((requests.take n).map .apply)).apply r).2) := by
  intro d g requests
  have hcodex : g.codex = codex :=
    codex_steps (steps_run (sound_opened settings codex start manual capacity) ops)
  obtain ⟨hget, hskill, -⟩ := codex.answers_ofCodex
  have hcast : g.applySkill caster target skill =
      (g.run (requests.map .apply), g.answers requests) := by
    have hkeys : (g.codex.forSkill skill.id).map (·.id) = d.keysOf skill.id := by
      rw [hcodex, (Directory.lists_ofCodex codex).keysOf]
      rfl
    simp only [applySkill, requests, ← hkeys]
    exact applyEach_eq caster target skill fun t ht =>
      g.codex.serves.known t (List.mem_of_mem_filter ht)
  rw [hcast, hcodex]
  exact ⟨hget.symm, hskill.symm, rfl, g.answers_getElem? requests⟩

/-- The second cast of a skill with two templates of one group: the lesser is refused, since the
greater is in its place, and the greater is renewed all the same. -/
theorem applySkill_run_renewed :
    let k : Skill := ⟨⟨1⟩, 1, 0, 0⟩
    let g := (opened {} trialCodex 0 true 1).run [.enter 1, .applySkill ⟨1⟩ ⟨1⟩ k]
    (g.applySkill ⟨1⟩ ⟨1⟩ k).1 =
        g.run [.apply (.ofCast ⟨1⟩ ⟨1⟩ k ⟨1⟩), .apply (.ofCast ⟨1⟩ ⟨1⟩ k ⟨2⟩)] ∧
      (g.applySkill ⟨1⟩ ⟨1⟩ k).2[0]? = some (⟨1⟩, .error (.outranked ⟨1⟩ ⟨2⟩)) ∧
      (g.applySkill ⟨1⟩ ⟨1⟩ k).2[1]? = some (⟨2⟩, .ok ⟨⟨1⟩, ⟨2⟩, true⟩) := by
  intro k g
  obtain ⟨-, -, hleft, hanswers⟩ :=
    applySkill_run {} trialCodex 0 true 1 [.enter 1, .applySkill ⟨1⟩ ⟨1⟩ k] ⟨1⟩ ⟨1⟩ k
  refine ⟨hleft, (hanswers 0).trans ?_, (hanswers 1).trans ?_⟩
  · decide +kernel
  · decide +kernel

end Engine

end StatusEffects
