import StatusEffects.EffectList
import Mathlib.Data.List.Nodup

/-!
# Keyed lists

Actors and effects are kept in lists and reached by a test for their key.  Here is what the
accessors `find?`, `eraseP` and `updateFirst` leave of the other elements.
-/

namespace StatusEffects

variable {α β : Type} {p q : α → Bool} {f : α → α}

/-! ### Looking up -/

/-- Where keys are distinct an element is found under its key. -/
theorem find?_key_eq_some_iff [BEq β] [LawfulBEq β] {key : α → β} {as : List α}
    (h : (as.map key).Nodup) {k : β} {a : α} :
    as.find? (key · == k) = some a ↔ a ∈ as ∧ key a = k := by
  constructor
  · intro hfind
    exact ⟨List.mem_of_find?_eq_some hfind, by simpa using List.find?_some hfind⟩
  · rintro ⟨ha, rfl⟩
    cases hfind : as.find? (key · == key a) with
    | none => simpa using List.find?_eq_none.1 hfind a ha
    | some b =>
      have hb : key b = key a := by simpa using List.find?_some hfind
      rw [List.inj_on_of_nodup_map h (List.mem_of_find?_eq_some hfind) ha hb]

/-! ### Updating in place -/

theorem find?_updateFirst (hp : ∀ a, p a = true → p (f a) = true) (as : List α) :
    (updateFirst p f as).find? p = (as.find? p).map f := by
  induction as with
  | nil => rfl
  | cons a rest ih =>
    simp only [updateFirst]
    split_ifs with h
    · simp [h, hp a h]
    · simp [h, ih]

theorem find?_updateFirst_of_disjoint (hq : ∀ a, p a = true → q a = false ∧ q (f a) = false)
    (as : List α) : (updateFirst p f as).find? q = as.find? q := by
  induction as with
  | nil => rfl
  | cons a rest ih =>
    simp only [updateFirst]
    split_ifs with h
    · simp [hq a h]
    · simp only [List.find?_cons, ih]

theorem updateFirst_congr {f' : α → α} {as : List α}
    (h : ∀ a, as.find? p = some a → f a = f' a) : updateFirst p f as = updateFirst p f' as := by
  induction as with
  | nil => rfl
  | cons a rest ih =>
    by_cases ha : p a
    · simp [updateFirst, ha, h a (by simp [ha])]
    · simp only [updateFirst, ha, Bool.false_eq_true, if_false]
      rw [ih fun b hb => h b (by simpa [ha] using hb)]

theorem map_updateFirst {g : α → β} {as : List α} (h : ∀ a, as.find? p = some a → g (f a) = g a) :
    (updateFirst p f as).map g = as.map g := by
  induction as with
  | nil => rfl
  | cons a rest ih =>
    by_cases ha : p a
    · simp [updateFirst, ha, h a (by simp [ha])]
    · simp only [updateFirst, ha, Bool.false_eq_true, if_false, List.map_cons]
      rw [ih fun b hb => h b (by simpa [ha] using hb)]

/-- An image of the list is updated along with the list. -/
theorem map_updateFirst_comm {g : α → β} {p' : β → Bool} {f' : β → β}
    (hp : ∀ a, p' (g a) = p a) (hf : ∀ a, g (f a) = f' (g a)) (as : List α) :
    (updateFirst p f as).map g = updateFirst p' f' (as.map g) := by
  induction as with
  | nil => rfl
  | cons a rest ih =>
    simp only [updateFirst, List.map_cons, hp]
    split_ifs <;> simp [hf, ih]

theorem mem_updateFirst {as : List α} {x : α} (hx : x ∈ updateFirst p f as) :
    x ∈ as ∨ ∃ a, as.find? p = some a ∧ x = f a := by
  induction as with
  | nil => cases hx
  | cons a rest ih =>
    by_cases ha : p a
    · simp only [updateFirst, ha, if_true, List.mem_cons] at hx
      rcases hx with rfl | hx
      · exact .inr ⟨a, by simp [ha], rfl⟩
      · exact .inl (.tail _ hx)
    · simp only [updateFirst, ha, Bool.false_eq_true, if_false, List.mem_cons] at hx
      rcases hx with rfl | hx
      · exact .inl (.head _)
      · rcases ih hx with h | ⟨b, hb, rfl⟩
        · exact .inl (.tail _ h)
        · exact .inr ⟨b, by simpa [ha] using hb, rfl⟩

/-- Two tests that find the same element update the same place. -/
theorem updateFirst_of_find? {as : List α} {a : α} (hp : as.find? p = some a)
    (hq : as.find? q = some a) (hnd : as.Nodup) (f : α → α) :
    updateFirst p f as = updateFirst q f as := by
  induction as with
  | nil => rfl
  | cons b rest ih =>
    obtain ⟨hb, hnd⟩ := List.nodup_cons.1 hnd
    -- where only one test holds of `b`, the other finds the same element again further on
    by_cases hpb : p b <;> by_cases hqb : q b
    · simp [updateFirst, hpb, hqb]
    · simp only [List.find?_cons, hpb, hqb, Option.some.injEq] at hp hq
      exact absurd (List.mem_of_find?_eq_some hq) (hp ▸ hb)
    · simp only [List.find?_cons, hpb, hqb, Option.some.injEq] at hp hq
      exact absurd (List.mem_of_find?_eq_some hp) (hq ▸ hb)
    · simp only [updateFirst, hpb, hqb, Bool.false_eq_true, if_false]
      rw [ih (by simpa [hpb] using hp) (by simpa [hqb] using hq) hnd]

/-! ### Changes of different elements -/

/-- Tests that hold of no common element, whether changed or not, change different elements. -/
theorem updateFirst_comm {g : α → α} (hp : ∀ a, p a = true → q a = false ∧ q (f a) = false)
    (hq : ∀ a, q a = true → p (g a) = false) (as : List α) :
    updateFirst p f (updateFirst q g as) = updateFirst q g (updateFirst p f as) := by
  induction as with
  | nil => rfl
  | cons a rest ih =>
    by_cases hpa : p a
    · simp [updateFirst, hpa, hp a hpa]
    · by_cases hqa : q a
      · simp [updateFirst, hpa, hqa, hq a hqa]
      · simp [updateFirst, hpa, hqa, ih]

theorem eraseP_updateFirst_self (hp : ∀ a, p a = true → p (f a) = true) (as : List α) :
    (updateFirst p f as).eraseP p = as.eraseP p := by
  induction as with
  | nil => rfl
  | cons a rest ih =>
    by_cases h : p a
    · simp [updateFirst, h, hp a h]
    · simp [updateFirst, h, ih]

theorem eraseP_updateFirst_comm (hp : ∀ a, p a = true → q a = false ∧ q (f a) = false)
    (as : List α) : (updateFirst p f as).eraseP q = updateFirst p f (as.eraseP q) := by
  induction as with
  | nil => rfl
  | cons a rest ih =>
    by_cases hpa : p a
    · simp [updateFirst, hpa, hp a hpa]
    · by_cases hqa : q a
      · simp [updateFirst, hpa, hqa]
      · simp [updateFirst, hpa, hqa, ih]

theorem find?_eraseP_of_disjoint (hq : ∀ a, p a = true → q a = false) (as : List α) :
    (as.eraseP p).find? q = as.find? q := by
  induction as with
  | nil => rfl
  | cons a rest ih =>
    by_cases h : p a
    · simp [h, hq a h]
    · by_cases hqa : q a <;> simp [h, hqa, ih]

end StatusEffects
