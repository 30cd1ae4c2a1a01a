import StatusEffects.Proofs.Sound
import Mathlib.Data.List.AList

/-!
# Effects on shelves

A list of effects can be kept in groups: a table with a shelf for each abnormal type of which there
is an effect, and on a shelf the effects of that type in the order of application.  The shelves
stand in the table in any order, which may be another one after every change; the order of
application is found again by sorting.  Here a table of shelves is compared with the plain list: it
answers every question as the list does, however its shelves are arranged, and it goes on to do so
when both are changed.

## Main definitions

* `Shelves`, `ShelfTable` : the table, with the owner and the next place of the list.
* `Arrangement` : where the shelves come to stand after a change.
* `Shelves.Holds` : the table holds the effects of a list.

## Main statements

* `Shelves.Holds.all_perm`, `Shelves.Holds.iter_eq` : the effects on the shelves are those of the
  list, and sorting them gives the list.
* `Shelves.Holds.take`, `Shelves.Holds.set`, `Shelves.Holds.put`, `Shelves.Holds.renew` : changes
  of the table and of the list correspond.
-/

namespace StatusEffects

/-- Shelves of effects by abnormal type, with one shelf for a type. -/
abbrev ShelfTable : Type := AList fun _ : AbnormalType => List Effect

/-- Where the shelves of a table come to stand after a change, which may be anywhere. -/
structure Arrangement where
  arrange : ShelfTable → ShelfTable
  perm : ∀ table, (arrange table).entries.Perm table.entries

/-- The active effects of one actor in groups. -/
structure Shelves where
  /-- The actor. -/
  owner : ActorId
  table : ShelfTable := ∅
  /-- The place of the next effect in the order of application. -/
  nextOrder : Nat := 0

/-- Whether a cast of the incoming effect renews the effect `e` on the shelf that it would come
to. -/
def Effect.claims (incoming e : Effect) : Bool :=
  !incoming.template.stacksWithSelf && e.template.id == incoming.template.id &&
    e.caster == incoming.caster

namespace EffectList

variable {l : EffectList} {e x : Effect} {group : AbnormalType}

/-- The key of an effect is found in its own group only. -/
theorem id_ne_of_mem_activeOf (hkeys : (l.effects.map (·.id)).Nodup) (he : e ∈ l.effects)
    (hx : x ∈ l.activeOf group) (hgroup : group ≠ e.abnormalType) : x.id ≠ e.id := by
  intro hid
  obtain ⟨hxl, htype⟩ := List.mem_filter.1 hx
  rw [List.inj_on_of_nodup_map hkeys hxl he hid] at htype
  exact hgroup (beq_iff_eq.1 htype).symm

theorem keys_activeOf (hkeys : (l.effects.map (·.id)).Nodup) (group : AbnormalType) :
    ((l.activeOf group).map (·.id)).Nodup :=
  hkeys.sublist (List.filter_sublist.map _)

theorem find?_activeOf (hkeys : (l.effects.map (·.id)).Nodup) (he : e ∈ l.effects) :
    (l.activeOf e.abnormalType).find? (·.id == e.id) = some e :=
  (find?_key_eq_some_iff (keys_activeOf hkeys _)).2
    ⟨List.mem_filter.2 ⟨he, beq_self_eq_true _⟩, rfl⟩

end EffectList

/-- Where keys are distinct an update concerns the element with the key and no other. -/
theorem updateFirst_eq_map {α β : Type} [BEq β] [LawfulBEq β] {key : α → β} {as : List α}
    (h : (as.map key).Nodup) (k : β) (x : α) :
    updateFirst (key · == k) (fun _ => x) as = as.map fun a => if key a == k then x else a := by
  induction as with
  | nil => rfl
  | cons a rest ih =>
    obtain ⟨ha, hrest⟩ := List.nodup_cons.1 h
    by_cases hk : key a = k
    · have hself : (rest.map fun b => if key b == k then x else b) = rest := by
        refine (List.map_congr_left fun b hb => if_neg fun hbk => ha ?_).trans (List.map_id' rest)
        rw [hk, ← beq_iff_eq.1 hbk]
        exact List.mem_map_of_mem hb
      simp only [updateFirst, List.map_cons, hk, beq_self_eq_true, if_true, hself]
    · simp [updateFirst, hk, ih hrest]

namespace Shelves

/-! ### Questions -/

/-- The effects on all shelves, one shelf after the other. -/
def all (s : Shelves) : List Effect := s.table.entries.flatMap (·.2)

/-- Number of effects. -/
def size (s : Shelves) : Nat := s.table.entries.foldr (fun shelf n => shelf.2.length + n) 0

/-- The first effect with a key. -/
def get? (s : Shelves) (id : EffectId) : Option Effect := s.all.find? (·.id == id)

/-- The effects sorted by their places. -/
def sorted (es : List Effect) : List Effect := es.mergeSort fun e e' => e.order ≤ e'.order

/-- The effects on all shelves in the order of application. -/
def iter (s : Shelves) : List Effect := sorted s.all

/-- The effects on one shelf. -/
def activeOf (s : Shelves) (group : AbnormalType) : List Effect := (s.table.lookup group).getD []

/-- The first shelf with an effect with a key. -/
def shelfOf? (s : Shelves) (id : EffectId) : Option AbnormalType :=
  (s.table.entries.find? fun shelf => shelf.2.any (·.id == id)).map (·.1)

/-- The effect that the incoming one renews. -/
def renewable? (s : Shelves) (incoming : Effect) : Option Effect :=
  (s.activeOf incoming.abnormalType).find? incoming.claims

/-- The keys of the effects that the incoming one competes with. -/
def rivals (s : Shelves) (incoming : Effect) : List EffectId :=
  if EffectList.competes incoming then
    ((s.activeOf incoming.abnormalType).filter fun e => !e.template.stackable).map (·.id)
  else []

/-- The first rival that the incoming effect does not win against. -/
def holder? (s : Shelves) (incoming : Effect) : Option EffectId :=
  (s.rivals incoming).find? fun id =>
    (s.get? id).any fun e => !EffectList.outranks incoming e

/-! ### Changes -/

/-- Other effects on a shelf. An empty shelf is taken out of the table. -/
def restock (s : Shelves) (r : Arrangement) (group : AbnormalType) (es : List Effect) : Shelves :=
  { s with
    table := r.arrange (if es.isEmpty then s.table.erase group else s.table.insert group es) }

/-- Takes the effect with a key from its shelf. -/
def take (s : Shelves) (r : Arrangement) (id : EffectId) : Option (Effect × Shelves) :=
  (s.shelfOf? id).bind fun group =>
    ((s.activeOf group).find? (·.id == id)).map fun e =>
      (e, s.restock r group ((s.activeOf group).eraseP (·.id == id)))

/-- Another state of the effect with a key, in its place. -/
def set (s : Shelves) (r : Arrangement) (id : EffectId) (e : Effect) : Shelves :=
  match s.shelfOf? id with
  | none => s
  | some group => s.restock r group (updateFirst (·.id == id) (fun _ => e) (s.activeOf group))

/-- Puts an effect behind the others of its shelf. -/
def put (s : Shelves) (r : Arrangement) (e : Effect) : Shelves :=
  s.restock r e.abnormalType (s.activeOf e.abnormalType ++ [e])

/-- Renews the effect that the incoming one renews. -/
def renew (s : Shelves) (r : Arrangement) (incoming : Effect) (adopt : Bool) : Shelves :=
  s.restock r incoming.abnormalType
    (updateFirst incoming.claims (·.refresh incoming.params adopt)
      (s.activeOf incoming.abnormalType))

variable {s : Shelves} {l : EffectList} {r : Arrangement} {group : AbnormalType}
  {es : List Effect} {e e' incoming : Effect} {id : EffectId}

theorem activeOf_restock (s : Shelves) (r : Arrangement) (group k : AbnormalType)
    (es : List Effect) :
    (s.restock r group es).activeOf k = if k = group then es else s.activeOf k := by
  have hlookup : (s.restock r group es).table.lookup k =
      (if es.isEmpty then s.table.erase group else s.table.insert group es).lookup k :=
    AList.perm_lookup (r.perm _)
  rw [activeOf, hlookup]
  split_ifs with hempty hk hk
  · rw [hk, AList.lookup_erase, List.isEmpty_iff.1 hempty]
    rfl
  · rw [AList.lookup_erase_ne hk]
    rfl
  · rw [hk, AList.lookup_insert]
    rfl
  · rw [AList.lookup_insert_ne hk]
    rfl

theorem activeOf_of_mem (h : ⟨group, es⟩ ∈ s.table.entries) : s.activeOf group = es := by
  rw [activeOf, AList.mem_lookup_iff.2 h]
  rfl

theorem mem_all : e ∈ s.all ↔ ∃ group, e ∈ s.activeOf group := by
  rw [all, List.mem_flatMap]
  constructor
  · rintro ⟨⟨group, es⟩, hmem, he⟩
    exact ⟨group, by rwa [activeOf_of_mem hmem]⟩
  · rintro ⟨group, he⟩
    cases hes : s.table.lookup group with
    | none => simp [activeOf, hes] at he
    | some es =>
      refine ⟨⟨group, es⟩, AList.mem_lookup_iff.1 hes, ?_⟩
      simpa [activeOf, hes] using he

/-! ### A table and a list -/

/-- The table holds the effects of the list, each on the shelf of its type. -/
structure Holds (s : Shelves) (l : EffectList) : Prop where
  owner : s.owner = l.owner
  nextOrder : s.nextOrder = l.nextOrder
  shelves : ∀ group, s.activeOf group = l.activeOf group

theorem holds_empty (owner : ActorId) (nextOrder : Nat) :
    Holds ⟨owner, ∅, nextOrder⟩ ⟨owner, [], nextOrder⟩ :=
  ⟨rfl, rfl, fun _ => rfl⟩

namespace Holds

theorem mem_all (h : s.Holds l) : e ∈ s.all ↔ e ∈ l.effects := by
  rw [Shelves.mem_all]
  constructor
  · rintro ⟨group, he⟩
    rw [h.shelves] at he
    exact List.mem_of_mem_filter he
  · intro he
    refine ⟨e.abnormalType, ?_⟩
    rw [h.shelves]
    exact List.mem_filter.2 ⟨he, beq_self_eq_true _⟩

/-- Every effect is on the shelf of its type. -/
theorem abnormalType (h : s.Holds l) (hmem : ⟨group, es⟩ ∈ s.table.entries) (he : e ∈ es) :
    e.abnormalType = group := by
  rw [← activeOf_of_mem hmem, h.shelves] at he
  simpa using List.of_mem_filter he

/-- **The effects on the shelves are those of the list**, each of them once. -/
theorem all_perm (h : s.Holds l) (hnd : l.effects.Nodup) : s.all.Perm l.effects := by
  refine (List.perm_ext_iff_of_nodup ?_ hnd).2 fun e => h.mem_all
  refine List.nodup_flatMap.2 ⟨?_, ?_⟩
  · rintro ⟨group, es⟩ hmem
    obtain rfl : l.activeOf group = es := (h.shelves group).symm.trans (activeOf_of_mem hmem)
    exact hnd.filter _
  · -- the shelves of two types have no effect in common
    have hkeys : s.table.entries.Pairwise fun x y => x.1 ≠ y.1 :=
      List.pairwise_map.1 s.table.nodupKeys
    refine hkeys.imp_of_mem fun {x y} hx hy hne e hex hey => ?_
    exact hne ((h.abnormalType hx hex).symm.trans (h.abnormalType hy hey))

theorem size_eq (h : s.Holds l) (hnd : l.effects.Nodup) : s.size = l.size := by
  have hlength := (h.all_perm hnd).length_eq
  rwa [all, List.length_flatMap, List.sum_eq_foldr, List.foldr_map] at hlength

theorem get?_eq (h : s.Holds l) (hkeys : (l.effects.map (·.id)).Nodup) (id : EffectId) :
    s.get? id = l.get? id := by
  have hperm := h.all_perm hkeys.of_map
  refine Option.ext fun e => ?_
  rw [get?, find?_key_eq_some_iff ((hperm.map _).nodup_iff.2 hkeys), EffectList.get?,
    find?_key_eq_some_iff hkeys, hperm.mem_iff]

/-- Sorting brings effects with places of their own into the order of these places, in whatever
order they come. -/
theorem sorted_eq (hord : (l.effects.map (·.order)).Pairwise (· < ·)) (h : es.Perm l.effects) :
    sorted es = l.effects := by
  have hperm : (sorted es).Perm l.effects := (List.mergeSort_perm _ _).trans h
  have hsorted : (sorted es).Pairwise fun e e' => e.order ≤ e'.order := by
    have hpair := @List.pairwise_mergeSort Effect (fun e e' => e.order ≤ e'.order)
      (by simpa using fun a b c => Nat.le_trans) (by simpa using fun a b => Nat.le_total _ _) es
    simpa [sorted] using hpair
  have hle : l.effects.Pairwise fun e e' => e.order ≤ e'.order :=
    (List.pairwise_map.1 hord).imp Nat.le_of_lt
  refine hperm.eq_of_pairwise (fun e e' he he' h₁ h₂ => ?_) hsorted hle
  exact List.inj_on_of_nodup_map (hord.imp Nat.ne_of_lt) (hperm.mem_iff.1 he) he'
    (Nat.le_antisymm h₁ h₂)

/-- **Sorting the effects on the shelves gives the list.** -/
theorem iter_eq (h : s.Holds l) (hord : (l.effects.map (·.order)).Pairwise (· < ·)) :
    s.iter = l.effects :=
  sorted_eq hord (h.all_perm (List.Nodup.of_map _ (hord.imp Nat.ne_of_lt)))

theorem renewable?_eq (h : s.Holds l) (incoming : Effect) :
    s.renewable? incoming = l.renewable? incoming := by
  rw [renewable?, h.shelves, EffectList.activeOf, List.find?_filter, EffectList.renewable?]
  congr 1
  funext e
  rw [Bool.eq_iff_iff]
  simp [EffectList.renews, Effect.claims, and_assoc, and_left_comm]

theorem rivals_eq (h : s.Holds l) (incoming : Effect) : s.rivals incoming = l.rivals incoming := by
  rw [rivals, h.shelves, EffectList.rivals]

theorem holder?_eq (h : s.Holds l) (hkeys : (l.effects.map (·.id)).Nodup) (incoming : Effect) :
    s.holder? incoming = l.holder? incoming := by
  simp only [holder?, EffectList.holder?, h.rivals_eq, h.get?_eq hkeys]

theorem shelfOf?_of_get? (h : s.Holds l) (hkeys : (l.effects.map (·.id)).Nodup)
    (found : l.get? e.id = some e) : s.shelfOf? e.id = some e.abnormalType := by
  have he := EffectList.mem_of_get? found
  cases hfind : s.table.entries.find? fun shelf => shelf.2.any (·.id == e.id) with
  | none =>
    obtain ⟨shelf, hmem, hes⟩ := List.mem_flatMap.1 (h.mem_all.2 he)
    have hnone : ∀ x ∈ shelf.2, x.id ≠ e.id := by simpa using List.find?_eq_none.1 hfind shelf hmem
    exact absurd rfl (hnone e hes)
  | some shelf =>
    obtain ⟨x, hx, hid⟩ : ∃ x ∈ shelf.2, x.id = e.id := by simpa using List.find?_some hfind
    have hmem := List.mem_of_find?_eq_some hfind
    have hxl : x ∈ l.effects := h.mem_all.1 (List.mem_flatMap.2 ⟨shelf, hmem, hx⟩)
    obtain rfl : x = e := List.inj_on_of_nodup_map hkeys hxl he hid
    rw [shelfOf?, hfind, h.abnormalType hmem hx]
    rfl

theorem shelfOf?_of_get?_none (h : s.Holds l) (missing : l.get? id = none) :
    s.shelfOf? id = none := by
  rw [shelfOf?, Option.map_eq_none_iff, List.find?_eq_none]
  intro shelf hmem hany
  obtain ⟨x, hx, hid⟩ := List.any_eq_true.1 hany
  exact List.find?_eq_none.1 missing x (h.mem_all.1 (List.mem_flatMap.2 ⟨shelf, hmem, hx⟩)) hid

/-! ### Changes of both -/

/-- A shelf is restocked as the effects of its type change in the list, and the others stay. -/
theorem restock (h : s.Holds l) (r : Arrangement) {l' : EffectList} (owner : l'.owner = l.owner)
    (nextOrder : l'.nextOrder = l.nextOrder) (self : l'.activeOf group = es)
    (others : ∀ k, k ≠ group → l'.activeOf k = l.activeOf k) :
    (s.restock r group es).Holds l' where
  owner := h.owner.trans owner.symm
  nextOrder := h.nextOrder.trans nextOrder.symm
  shelves k := by
    rw [activeOf_restock]
    split_ifs with hk
    · rw [hk, self]
    · rw [others k hk, h.shelves]

theorem put (h : s.Holds l) (r : Arrangement) (e : Effect) :
    (s.put r e).Holds { l with effects := l.effects ++ [e] } := by
  refine h.restock r rfl rfl ?_ fun k hk => ?_
  · simp [EffectList.activeOf, h.shelves]
  · simp [EffectList.activeOf, Ne.symm hk]

/-- An effect that is taken is the one of the list, and is gone from both. -/
theorem take (h : s.Holds l) (hkeys : (l.effects.map (·.id)).Nodup) (r : Arrangement)
    (found : l.get? e.id = some e) :
    ∃ s', s.take r e.id = some (e, s') ∧ s'.Holds (l.erase e.id) := by
  have he := EffectList.mem_of_get? found
  have herase : ∀ k, (l.erase e.id).activeOf k = (l.activeOf k).eraseP (·.id == e.id) := by
    intro k
    rw [EffectList.activeOf, EffectList.erase, eraseP_eq_filter hkeys,
      eraseP_eq_filter (EffectList.keys_activeOf hkeys k), EffectList.activeOf, List.filter_comm]
  refine ⟨_, ?_, h.restock r rfl rfl (herase e.abnormalType) fun k hk => ?_⟩
  · rw [Shelves.take, h.shelfOf?_of_get? hkeys found, Option.bind_some, h.shelves,
      EffectList.find?_activeOf hkeys he, Option.map_some]
  · rw [herase]
    refine List.eraseP_of_forall_not fun x hx hid => ?_
    exact EffectList.id_ne_of_mem_activeOf hkeys he hx hk (beq_iff_eq.1 hid)

theorem take_of_get?_none (h : s.Holds l) (r : Arrangement) (missing : l.get? id = none) :
    s.take r id = none := by
  rw [Shelves.take, h.shelfOf?_of_get?_none missing, Option.bind_none]

/-- A shelf with another state of one of its effects, and the list with that state. -/
theorem update (h : s.Holds l) (hkeys : (l.effects.map (·.id)).Nodup) (r : Arrangement)
    (found : l.get? e.id = some e) (same : e.Same e') :
    (s.restock r e.abnormalType (updateFirst (·.id == e.id) (fun _ => e')
      (l.activeOf e.abnormalType))).Holds (l.update e.id e') := by
  have he := EffectList.mem_of_get? found
  have hupdate : ∀ k, (l.update e.id e').activeOf k =
      updateFirst (·.id == e.id) (fun _ => e') (l.activeOf k) := by
    intro k
    rw [EffectList.activeOf, EffectList.update, updateFirst_eq_map hkeys,
      updateFirst_eq_map (EffectList.keys_activeOf hkeys k), List.filter_map, EffectList.activeOf]
    refine congrArg _ (List.filter_congr fun x hx => ?_)
    -- the new state is in the group of the old one
    by_cases hid : x.id = e.id
    · obtain rfl := List.inj_on_of_nodup_map hkeys hx he hid
      simp [Effect.abnormalType, same.template]
    · simp [hid]
  refine h.restock r rfl rfl (hupdate e.abnormalType) fun k hk => ?_
  rw [hupdate, updateFirst_eq_map (EffectList.keys_activeOf hkeys k)]
  refine (List.map_congr_left fun x hx => if_neg fun hid => ?_).trans (List.map_id' _)
  exact EffectList.id_ne_of_mem_activeOf hkeys he hx hk (beq_iff_eq.1 hid)

theorem set (h : s.Holds l) (hkeys : (l.effects.map (·.id)).Nodup) (r : Arrangement)
    (found : l.get? e.id = some e) (same : e.Same e') :
    (s.set r e.id e').Holds (l.update e.id e') := by
  rw [Shelves.set, h.shelfOf?_of_get? hkeys found]
  simp only [h.shelves]
  exact h.update hkeys r found same

theorem renew (h : s.Holds l) (hkeys : (l.effects.map (·.id)).Nodup) (r : Arrangement)
    (adopt : Bool) (found : l.renewable? incoming = some e) :
    (s.renew r incoming adopt).Holds (l.update e.id (e.refresh incoming.params adopt)) := by
  have he := List.mem_of_find?_eq_some found
  have htype : e.abnormalType = incoming.abnormalType := by
    have hrenews := List.find?_some found
    simp only [EffectList.renews, Bool.and_eq_true, beq_iff_eq] at hrenews
    exact hrenews.1.1.2
  have hshelf : (l.activeOf incoming.abnormalType).find? incoming.claims = some e := by
    rw [← h.shelves]
    exact (h.renewable?_eq incoming).trans found
  rw [← htype] at hshelf
  have hfind := EffectList.find?_activeOf hkeys he
  have hnodup := (EffectList.keys_activeOf hkeys e.abnormalType).of_map
  have hcongr : updateFirst (·.id == e.id) (·.refresh incoming.params adopt)
      (l.activeOf e.abnormalType) = updateFirst (·.id == e.id)
        (fun _ => e.refresh incoming.params adopt) (l.activeOf e.abnormalType) :=
    updateFirst_congr fun a ha => by rw [← Option.some.inj (hfind.symm.trans ha)]
  -- the effect that is claimed is the one with the key
  rw [Shelves.renew, ← htype, h.shelves, updateFirst_of_find? hshelf hfind hnodup, hcongr]
  exact h.update hkeys r (EffectList.get?_of_mem hkeys he) (Effect.same_refresh e _ _)

end Holds

end Shelves

end StatusEffects
