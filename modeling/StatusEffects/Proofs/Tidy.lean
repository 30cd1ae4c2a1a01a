import StatusEffects.Proofs.Course
import StatusEffects.Proofs.Generation
import StatusEffects.Proofs.Shelving

/-!
# Tidy shelves

What the shelves of every actor are like after every run: never more effects than the settings
allow, each running, on the shelf of its type and under a key of its own, with part of its duration
left unless it has none.  Nothing of this depends on how the shelves are arranged.

## Main definitions

* `Effect.Rationed` : how much of its duration an effect has left.
* `Bearer.Kept` : what holds of the effects of a bearer once an operation is over.
* `Shelves.Tidy` : what shelves are like.

## Main statements

* `Bearer.Kept.apply`, `Bearer.Kept.fire` : operations keep a bearer so.
* `Keeper.Stocked.tidy` : every history leads to tidy shelves.
* `Engine.shelved_run` : the effects of every actor after every run can be kept on shelves, and
  wherever they are the shelves are tidy.
-/

namespace StatusEffects

/-! ### What is left of a duration -/

/-- Nothing is left of a duration that an effect does not have, and of one that it has at least one
unit and at most all. -/
def Effect.Rationed (e : Effect) : Prop :=
  if e.params.duration = 0 then e.remaining = 0
  else 1 ≤ e.remaining ∧ e.remaining ≤ e.params.duration

namespace Effect

variable {e : Effect}

/-- An effect with all of its duration left. -/
theorem rationed_of_whole (h : e.remaining = e.params.duration) : e.Rationed := by
  unfold Rationed
  split_ifs with hzero
  · rw [h, hzero]
  · rw [h]
    exact ⟨by grind, UInt32.le_refl _⟩

theorem rationed_refresh (e : Effect) (params : Params) (adopt : Bool) :
    (e.refresh params adopt).Rationed :=
  rationed_of_whole rfl

/-- A tick leaves something of a duration, unless that is over. -/
theorem Rationed.countTick (h : e.Rationed) (unexhausted : e.countTick.isExhausted = false) :
    e.countTick.Rationed := by
  have hcount := Cast.remaining_countTick (e := e) fun hzero => by
    rwa [Rationed, if_pos hzero] at h
  have hparams : e.countTick.params = e.params := rfl
  unfold Rationed at h ⊢
  rw [hparams]
  split_ifs at h ⊢ with hzero
  · rw [← UInt32.toNat_inj, hcount, h]
    rfl
  · have hleft : e.countTick.remaining ≠ 0 := by
      simpa [isExhausted, isPermanent, hparams, hzero] using unexhausted
    have hle := UInt32.le_iff_toNat_le.1 h.2
    exact ⟨by grind, UInt32.le_iff_toNat_le.2 (by omega)⟩

end Effect

/-! ### What operations keep -/

namespace Bearer

/-- There are no more effects than the settings allow, and each has part of its duration left. -/
structure Kept (settings : Settings) (b : Bearer) : Prop where
  limit : b.list.size ≤ settings.maxEffects.toNat
  rationed : ∀ e ∈ b.list.effects, e.Rationed

namespace Kept

variable {codex : Codex} {settings : Settings} {next : Nat} {id : ActorId} {b b' : Bearer}
  {incoming : Effect}

theorem of_sublist (h : b.Kept settings) (hsub : b'.list.effects.Sublist b.list.effects) :
    b'.Kept settings :=
  ⟨hsub.length_le.trans h.limit, fun e he => h.rationed e (hsub.subset he)⟩

theorem update (h : b.Kept settings) {k : EffectId} {e : Effect} (he : e.Rationed) :
    ({ b with list := b.list.update k e } : Bearer).Kept settings where
  limit := by
    rw [EffectList.size, EffectList.update, length_updateFirst]
    exact h.limit
  rationed x hx := by
    rcases mem_updateFirst hx with hx | ⟨_, -, rfl⟩
    · exact h.rationed x hx
    · exact he

/-- An effect that starts needs room and has all of its duration left. -/
theorem begin (h : b.Kept settings) (hin : incoming.Incoming codex next id)
    (room : b.list.size < settings.maxEffects.toNat) (p : Profile) :
    (b.begin p settings incoming).bearer.Kept settings := by
  cases hc : incoming.contribute p b.status with
  | made s =>
    rw [begin_made hin.pending hc]
    refine ⟨?_, fun e he => ?_⟩
    · rw [EffectList.size, List.length_append, List.length_singleton]
      exact room
    · rcases List.mem_append.1 he with he | he
      · exact h.rationed e he
      · rw [List.mem_singleton.1 he]
        exact Effect.rationed_of_whole hin.whole
  | vetoed =>
    rw [begin_vetoed hin.pending hc]
    exact h.of_sublist (List.Sublist.refl _)
  | failed cause =>
    rw [begin_failed hin.pending hc]
    exact h.of_sublist (List.Sublist.refl _)

theorem apply (h : b.Kept settings) (hb : b.Sound codex next id)
    (hin : incoming.Incoming codex next id) (p : Profile) :
    (b.apply p settings incoming).bearer.Kept settings := by
  rcases b.apply_cases p settings incoming with
    ⟨_, -, happly⟩ | ⟨e, _, found, rfl, happly⟩ | ⟨-, -, hroom, happly⟩
  · rw [happly]
    exact h
  · rw [happly, hb.renew_eq_update found]
    exact h.update (e.rationed_refresh _ _)
  · rw [happly]
    have hsub : (b.dropAll .superseded (b.list.rivals incoming)).1.list.effects.Sublist
        b.list.effects := by
      rw [hb.effects_dropRivals]
      exact List.filter_sublist
    exact (h.of_sublist hsub).begin hin (by rwa [hb.size_dropRivals]) p

theorem dispel (h : b.Kept settings) (hb : b.Sound codex next id) (selector : Selector)
    (cause : Cause) : (b.dispel settings selector cause).bearer.Kept settings := by
  have heffects := hb.effects_dropAll_filter .dispelled rfl fun e =>
    selector.selects e && cause.permits e.template settings
  refine h.of_sublist ?_
  rw [Bearer.dispel, heffects]
  exact List.filter_sublist

/-- An effect that answers a timer and goes on has something of its duration left. -/
theorem fire (h : b.Kept settings) (t : Timer) : (b.fire settings t).bearer.Kept settings := by
  cases found : b.list.get? t.effect with
  | none =>
    rw [fire_of_get?_none found]
    exact h
  | some e =>
    rw [fire_of_get? found]
    have hreplies := e.replies settings.expiryUnit t
    generalize e.reply settings.expiryUnit t = reply at hreplies
    cases hreplies with
    | stale => exact h
    | again _ _ _ unexhausted _ =>
      exact h.update ((h.rationed e (EffectList.mem_of_get? found)).countTick unexhausted)
    | last | ends => exact h.of_sublist List.eraseP_sublist

end Kept

end Bearer

/-! ### Shelves -/

/-- What the shelves of an actor are like. -/
structure Shelves.Tidy (settings : Settings) (id : ActorId) (s : Shelves) : Prop where
  owner : s.owner = id
  limit : s.size ≤ settings.maxEffects.toNat
  /-- Every effect is on the shelf of its type. -/
  shelved : ∀ group es, ⟨group, es⟩ ∈ s.table.entries → ∀ e ∈ es, e.abnormalType = group
  active : ∀ e ∈ s.all, e.isActive = true
  target : ∀ e ∈ s.all, e.target = s.owner
  ahead : ∀ e ∈ s.all, e.order < s.nextOrder
  rationed : ∀ e ∈ s.all, e.Rationed
  keys : (s.all.map (·.id)).Nodup
  places : (s.all.map (·.order)).Nodup
  /-- In the order of application every effect comes once. -/
  once : s.iter.Perm s.all
  ordered : (s.iter.map (·.order)).Pairwise (· < ·)
  /-- That order does not depend on how the effects come off the shelves. -/
  settled : ∀ es, es.Perm s.all → Shelves.sorted es = s.iter
  group : ∀ group, s.activeOf group = s.iter.filter (·.abnormalType == group)

namespace Keeper.Stocked

variable {codex : Codex} {settings : Settings} {id : ActorId} {next : Nat} {b : Bearer}
  {k : Keeper}

theorem kept (h : Stocked codex settings id next b k) : b.Kept settings := by
  induction h with
  | fresh => exact ⟨Nat.zero_le _, fun _ h => nomatch h⟩
  | later _ _ ih => exact ih
  | apply _ p h hin ih => exact ih.apply h.sound hin p
  | dispel _ selector cause h ih => exact ih.dispel h.sound selector cause
  | fire _ t _ ih => exact ih.fire t
  | clear _ ih => exact ih.of_sublist (List.nil_sublist _)

/-- **Every history leads to tidy shelves.** -/
theorem tidy (h : Stocked codex settings id next b k) : k.shelves.Tidy settings id := by
  have hb := h.sound
  have hholds := h.mirrors.holds
  have hperm := hholds.all_perm hb.keys.of_map
  have hiter := hholds.iter_eq hb.ordered
  have hseated : ∀ e ∈ k.shelves.all, e.Seated codex next id b.list.nextOrder := fun e he =>
    hb.seated e (hholds.mem_all.1 he)
  have howner : k.shelves.owner = id := hholds.owner.trans hb.owner
  exact {
    owner := howner
    limit := by
      rw [hholds.size_eq hb.keys.of_map]
      exact h.kept.limit
    shelved := fun _ _ hmem _ he => hholds.abnormalType hmem he
    active := fun e he => by simp [Effect.isActive, (hseated e he).active]
    target := fun e he => (hseated e he).target.trans howner.symm
    ahead := fun e he => hholds.nextOrder ▸ (hseated e he).ahead
    rationed := fun e he => h.kept.rationed e (hholds.mem_all.1 he)
    keys := (hperm.map _).nodup_iff.2 hb.keys
    places := (hperm.map _).nodup_iff.2 (hb.ordered.imp Nat.ne_of_lt)
    once := hiter ▸ hperm.symm
    ordered := hiter ▸ hb.ordered
    settled := fun es hes =>
      (Shelves.Holds.sorted_eq hb.ordered (hes.trans hperm)).trans hiter.symm
    group := fun group => by rw [hholds.shelves, hiter, EffectList.activeOf] }

end Keeper.Stocked

/-! ### Runs -/

/-- Shelves stay as they are. -/
def Arrangement.still : Arrangement := ⟨fun table => table, fun _ => .refl _⟩

namespace Engine

open Keeper (Stocked)

variable {id : ActorId} {a : Actor}

/-- A keeper can go along with every operation. -/
theorem upholds_stocked (codex : Codex) (settings : Settings) :
    Upholds codex settings fun next id b => ∃ k, Stocked codex settings id next b k where
  fresh next _ := ⟨_, .fresh next⟩
  later := fun ⟨_, h⟩ le => ⟨_, h.later le⟩
  apply p _ hin := fun ⟨_, h⟩ => ⟨_, h.apply .still p hin⟩
  dispel selector cause _ := fun ⟨_, h⟩ => ⟨_, h.dispel .still selector cause⟩
  fire t _ := fun ⟨_, h⟩ => ⟨_, h.fire .still t⟩

/-- **The effects of every actor are kept on tidy shelves.**  After every run over an empty world
there is a keeper that the operations on an actor have made, and every such keeper, however its
shelves have been arranged, is tidy: it mirrors what the actor bears, and its effects have keys
that no other effect in the world has. -/
theorem shelved_run (settings : Settings) (codex : Codex) (start : UInt64) (manual : Bool)
    (capacity : Nat) (ops : List Op)
    (found : ((opened settings codex start manual capacity).run ops).world.get? id = some a) :
    let g := (opened settings codex start manual capacity).run ops
    (∃ k, Stocked codex settings id g.nextEffect a.bearer k) ∧
      ∀ k, Stocked codex settings id g.nextEffect a.bearer k →
        k.shelves.Tidy settings id ∧ k.Mirrors a.bearer ∧
        k.shelves.iter = a.bearer.list.effects ∧
        ∀ e ∈ k.shelves.all, ∀ id' e', g.Bears id' e' → e'.id = e.id → id' = id ∧ e' = e := by
  intro g
  have hopened := sound_opened settings codex start manual capacity
  have hsteps := steps_run hopened ops
  have hg : g.Sound := hopened.steps hsteps
  have hc : Chronicled g.nextEffect g.shown g.log :=
    chronicled_steps hopened (chronicled_opened settings codex start manual capacity) hsteps
  refine ⟨(upholds_stocked codex settings).run start manual capacity ops id _
    (World.bearer?_of_get? found), fun k hk => ?_⟩
  have hholds := hk.mirrors.holds
  refine ⟨hk.tidy, hk.mirrors, hholds.iter_eq hk.sound.ordered, fun e he id' e' he' hid => ?_⟩
  have hmem := hholds.mem_all.1 he
  obtain rfl := actor_unique hc (bears_of_mem hg found hmem) he' hid
  exact ⟨rfl, List.inj_on_of_nodup_map hk.sound.keys (mem_of_bears found he') hmem hid⟩

/-- A greater haste takes the place of a haste: the hold, which was applied between them, is on
another shelf and comes before it. -/
theorem shelved_run_haste :
    ∃ a k, ((opened {} trialCodex 0 true 1).run
        [.enter 1, .cast 1 1, .cast 1 3, .cast 1 2]).world.get? ⟨1⟩ = some a ∧
      Stocked trialCodex {} ⟨1⟩ 4 a.bearer k ∧ k.shelves.Tidy {} ⟨1⟩ ∧
      k.shelves.iter.map (·.id) = [⟨2⟩, ⟨3⟩] ∧
      (k.shelves.activeOf .speedUp).map (·.id) = [⟨3⟩] := by
  obtain ⟨⟨k, hk⟩, hall⟩ := @shelved_run ⟨1⟩ _ {} trialCodex 0 true 1
    [.enter 1, .cast 1 1, .cast 1 3, .cast 1 2] rfl
  obtain ⟨htidy, -, hiter, -⟩ := hall k hk
  refine ⟨_, k, rfl, hk, htidy, ?_, ?_⟩
  · rw [hiter]
    decide +kernel
  · rw [htidy.group, hiter]
    decide +kernel

end Engine

end StatusEffects
