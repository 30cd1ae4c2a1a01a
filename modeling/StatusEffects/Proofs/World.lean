import StatusEffects.World
import StatusEffects.Proofs.Keyed

/-!
# Access to the world

What an actor bears, looked up by key, after each change of the world.  Profiles and bearers are
changed apart from each other, and conditions see profiles only.

## Main definitions

* `World.bearer?` : what the actor with a key bears.
-/

namespace StatusEffects

namespace World

variable {w : World} {id k : ActorId} {a : Actor} {b : Bearer}

/-- What the actor with a key bears. -/
def bearer? (w : World) (id : ActorId) : Option Bearer := (w.get? id).map (·.bearer)

theorem bearer?_of_get? (h : w.get? id = some a) : w.bearer? id = some a.bearer := by
  simp [bearer?, h]

theorem bearer?_eq_none : w.bearer? id = none ↔ w.get? id = none := by
  simp [bearer?]

/-! ### Changing one actor -/

section Modify

variable {f : Actor → Actor} (hf : ∀ a, a.profile.id = id → (f a).profile.id = id)

include hf

theorem get?_modify_self : (w.modify id f).get? id = (w.get? id).map f :=
  find?_updateFirst (by simpa using hf) _

theorem get?_modify_of_ne (hk : k ≠ id) : (w.modify id f).get? k = w.get? k := by
  apply find?_updateFirst_of_disjoint
  intro a ha
  simp only [beq_iff_eq, beq_eq_false_iff_ne] at ha ⊢
  exact ⟨fun h => hk (h.symm.trans ha), fun h => hk (h.symm.trans (hf a ha))⟩

end Modify

theorem get?_setBearer_self (h : w.get? id = some a) :
    (w.setBearer id b).get? id = some { a with bearer := b } := by
  have hf : ∀ a : Actor, a.profile.id = id → ({ a with bearer := b } : Actor).profile.id = id :=
    fun _ h => h
  rw [setBearer, get?_modify_self hf, h, Option.map_some]

theorem get?_setBearer_of_ne (hk : k ≠ id) : (w.setBearer id b).get? k = w.get? k :=
  get?_modify_of_ne (fun _ h => h) hk

theorem bearer?_setBearer (h : w.get? id = some a) :
    (w.setBearer id b).bearer? k = if k = id then some b else w.bearer? k := by
  split_ifs with hk
  · subst hk
    simp [bearer?, get?_setBearer_self h]
  · simp [bearer?, get?_setBearer_of_ne hk]

theorem setBearer_setBearer (b₁ b₂ : Bearer) :
    (w.setBearer id b₁).setBearer id b₂ = w.setBearer id b₂ := by
  simp only [setBearer, modify, World.mk.injEq, and_true]
  induction w.actors with
  | nil => rfl
  | cons a rest ih =>
    simp only [updateFirst]
    split_ifs with h <;> simp [updateFirst, h, ih]

theorem setBearer_comm (hk : k ≠ id) (b c : Bearer) :
    (w.setBearer k c).setBearer id b = (w.setBearer id b).setBearer k c := by
  have hid : ∀ a : Actor, (a.profile.id == id) = true → (a.profile.id == k) = false := fun a ha => by
    rw [beq_iff_eq] at ha
    simpa [ha] using hk.symm
  have hcomm := updateFirst_comm (f := fun a : Actor => { a with bearer := b })
    (g := fun a : Actor => { a with bearer := c }) (q := (·.profile.id == k))
    (fun a ha => ⟨hid a ha, hid a ha⟩) (fun a ha => ?_) w.actors
  · simp only [setBearer, modify, hcomm]
  · rw [beq_iff_eq] at ha
    simpa [ha] using hk

theorem setBearer_bearer (h : w.get? id = some a) : w.setBearer id a.bearer = w := by
  cases w with
  | mk actors ready =>
    simp only [setBearer, modify, World.mk.injEq, and_true]
    induction actors with
    | nil => rfl
    | cons c rest ih =>
      by_cases hc : (c.profile.id == id) = true
      · obtain rfl : c = a := by simpa [get?, hc] using h
        simp [updateFirst, hc]
      · simp only [updateFirst, hc, Bool.false_eq_true, if_false, List.cons.injEq, true_and]
        exact ih (by simpa [get?, hc] using h)

theorem get?_modifyProfile_self {f : Profile → Profile} (hf : ∀ p, p.id = id → (f p).id = id) :
    (w.modifyProfile id f).get? id = (w.get? id).map fun a => { a with profile := f a.profile } :=
  get?_modify_self fun a h => hf a.profile h

theorem bearer?_modifyProfile {f : Profile → Profile} (hf : ∀ p, p.id = id → (f p).id = id) :
    (w.modifyProfile id f).bearer? k = w.bearer? k := by
  by_cases hk : k = id
  · subst hk
    simp [bearer?, get?_modifyProfile_self hf, Function.comp_def]
  · have hk' : (w.modifyProfile id f).get? k = w.get? k :=
      get?_modify_of_ne (fun a h => hf a.profile h) hk
    simp [bearer?, hk']

/-! ### Entering and leaving -/

theorem get?_spawn_new {p : Profile} (h : w.get? p.id = none) :
    (w.spawn p).get? k = if k = p.id then some ⟨p, .fresh p.id⟩ else w.get? k := by
  have hc : w.contains p.id = false := by simp [contains, h]
  simp only [spawn, hc, Bool.false_eq_true, if_false, get?, List.find?_append]
  split_ifs with hk
  · subst hk
    simp only [get?] at h
    simp [h]
  · simp [Ne.symm hk]

theorem bearer?_spawn_new {p : Profile} (h : w.get? p.id = none) :
    (w.spawn p).bearer? k = if k = p.id then some (.fresh p.id) else w.bearer? k := by
  simp only [bearer?, get?_spawn_new h]
  split_ifs <;> rfl

theorem spawn_known {p : Profile} (h : w.get? p.id = some a) :
    w.spawn p = w.modifyProfile p.id fun _ => p := by
  simp [spawn, contains, h]

theorem get?_remove : (w.remove id).get? k = if k = id then none else w.get? k := by
  simp only [remove, get?, List.find?_filter]
  split_ifs with hk
  · subst hk
    simp
  · congr 1
    funext a
    by_cases ha : a.profile.id = k
    · simp [ha, hk]
    · simp [ha]

theorem bearer?_remove : (w.remove id).bearer? k = if k = id then none else w.bearer? k := by
  simp only [bearer?, get?_remove]
  split_ifs <;> rfl

theorem remove_setBearer : (w.setBearer id b).remove id = w.remove id := by
  simp only [setBearer, modify, remove, World.mk.injEq, and_true]
  induction w.actors with
  | nil => rfl
  | cons a rest ih =>
    by_cases h : a.profile.id = id
    · simp [updateFirst, h]
    · simp [updateFirst, h, ih]

/-! ### What conditions see -/

theorem map_profile_setBearer :
    (w.setBearer id b).actors.map (·.profile) = w.actors.map (·.profile) :=
  map_updateFirst fun _ _ => rfl

theorem surroundings_setBearer : (w.setBearer id b).surroundings = w.surroundings := by
  simp only [surroundings, Surroundings.mk.injEq]
  funext center radius
  simp only [near, map_profile_setBearer]
  rfl

theorem profile?_setBearer : (w.setBearer id b).profile? k = w.profile? k := by
  by_cases hk : k = id
  · subst hk
    simp [profile?, setBearer, get?_modify_self, Function.comp_def]
  · simp [profile?, get?_setBearer_of_ne hk]

end World

end StatusEffects
