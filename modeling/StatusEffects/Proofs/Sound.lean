import StatusEffects.Proofs.Change

/-!
# Sound bearers

What every bearer in an engine is like: its effects are active, have keys of their own that were
handed out before, are on this actor and of templates of the codex, and stand in the order of their
places.  The small changes of a bearer keep this, and under it the rivals of an incoming effect can
be told apart from the other effects.

## Main definitions

* `Effect.Same` : two states of one running effect.
* `Effect.Incoming` : a pending effect under the next key, for an actor.
* `Bearer.Sound` : the invariant.

## Main statements

* `Bearer.Sound.turn`, `Bearer.Sound.arrival` : small changes keep a bearer sound.
* `Bearer.Sound.effects_dropRivals` : what is left once the rivals have ended.
* `Bearer.Sound.apply_changes` : an application is a chain of small changes.
-/

namespace StatusEffects

/-! ### States of one effect -/

/-- Two states of one running effect: ticks and renewals change neither of these parts. -/
structure Effect.Same (e e' : Effect) : Prop where
  id : e.id = e'.id
  template : e.template = e'.template
  caster : e.caster = e'.caster
  target : e.target = e'.target
  order : e.order = e'.order
  phase : e.phase = e'.phase

namespace Effect

theorem same_countTick (e : Effect) : e.Same e.countTick := ⟨rfl, rfl, rfl, rfl, rfl, rfl⟩

theorem same_refresh (e : Effect) (params : Params) (adopt : Bool) :
    e.Same (e.refresh params adopt) :=
  ⟨rfl, rfl, rfl, rfl, rfl, rfl⟩

end Effect

/-! ### Lists with distinct keys -/

theorem eraseP_eq_filter {α β : Type} [BEq β] [LawfulBEq β] {key : α → β} {as : List α}
    (h : (as.map key).Nodup) (k : β) : as.eraseP (key · == k) = as.filter (key · != k) := by
  induction as with
  | nil => rfl
  | cons a rest ih =>
    obtain ⟨ha, hrest⟩ := List.nodup_cons.1 h
    by_cases hk : key a = k
    · have hall : ∀ x ∈ rest, key x != k := fun x hx => by
        have : key x ≠ k := fun hxk => ha (hk ▸ hxk ▸ List.mem_map_of_mem hx)
        simpa using this
      simp [hk, List.filter_eq_self.2 hall]
    · simp [hk, ih hrest]

namespace EffectList

variable {l : EffectList} {e e' x : Effect}

theorem get?_of_mem (h : (l.effects.map (·.id)).Nodup) (he : e ∈ l.effects) :
    l.get? e.id = some e := by
  cases hget : l.get? e.id with
  | none => simpa using List.find?_eq_none.1 hget e he
  | some e₁ =>
    rw [List.inj_on_of_nodup_map h (mem_of_get? hget) he (id_of_get? hget)]

theorem map_update {β : Type} {g : Effect → β} (found : l.get? e.id = some e)
    (h : g e' = g e) : (l.update e.id e').effects.map g = l.effects.map g := by
  refine map_updateFirst fun a ha => ?_
  obtain rfl : e = a := Option.some.inj (found.symm.trans ha)
  exact h

theorem exists_same_of_mem_update (found : l.get? e.id = some e) (h : e.Same e')
    (hx : x ∈ (l.update e.id e').effects) : ∃ y ∈ l.effects, y.Same x := by
  rcases mem_updateFirst hx with hx | ⟨a, -, rfl⟩
  · exact ⟨x, hx, ⟨rfl, rfl, rfl, rfl, rfl, rfl⟩⟩
  · exact ⟨e, mem_of_get? found, h⟩

/-- In a list with distinct keys the updated effect is the only one that is new. -/
theorem mem_update (h : (l.effects.map (·.id)).Nodup) (found : l.get? e.id = some e)
    (hid : e'.id = e.id) (hx : x ∈ (l.update e.id e').effects) :
    x = e' ∨ (x ∈ l.effects ∧ x.id ≠ e.id) := by
  have hkeys : ((l.update e.id e').effects.map (·.id)).Nodup := by
    rwa [map_update found hid]
  -- under the key of the update there is the new state, and no other as the keys are distinct
  have he' : e' ∈ (l.update e.id e').effects := by
    have : (l.update e.id e').get? e.id = some e' := by
      simp only [get?, update]
      rw [find?_updateFirst (by simp [hid])]
      simpa [get?] using ⟨e, found⟩
    exact mem_of_get? this
  by_cases hxe : x.id = e.id
  · exact .inl (List.inj_on_of_nodup_map hkeys hx he' (hxe.trans hid.symm))
  · rcases mem_updateFirst hx with hx | ⟨a, -, rfl⟩
    · exact .inr ⟨hx, hxe⟩
    · exact absurd hid hxe

/-! ### Rivals -/

/-- Whether an effect stands against the incoming one: both do not stack, and they are of the same
group. -/
def isRival (incoming e : Effect) : Bool :=
  competes incoming && e.abnormalType == incoming.abnormalType && !e.template.stackable

theorem rivals_eq (l : EffectList) (incoming : Effect) :
    l.rivals incoming = (l.effects.filter (isRival incoming)).map (·.id) := by
  have hrival : isRival incoming = fun e =>
      competes incoming && e.abnormalType == incoming.abnormalType && !e.template.stackable := rfl
  cases h : competes incoming <;>
    simp [rivals, hrival, activeOf, h, List.filter_filter, Bool.and_comm]

theorem rivals_eq_nil_iff {incoming : Effect} :
    l.rivals incoming = [] ↔ ∀ e ∈ l.effects, isRival incoming e = false := by
  simp [rivals_eq, List.filter_eq_nil_iff]

end EffectList

/-! ### The invariant -/

/-- An effect on its way to an actor: pending, under the next key, of a known template, and with all
of its duration left. -/
structure Effect.Incoming (codex : Codex) (next : Nat) (id : ActorId) (e : Effect) : Prop where
  key : e.id = ⟨next⟩
  target : e.target = id
  known : e.template ∈ codex.templates
  pending : e.phase = .pending
  whole : e.remaining = e.params.duration

/-- An effect in its place on an actor, before the next key and before the next place. -/
structure Effect.Seated (codex : Codex) (next : Nat) (id : ActorId) (place : Nat) (e : Effect) :
    Prop where
  fresh : e.id.val < next
  target : e.target = id
  known : e.template ∈ codex.templates
  active : e.phase = .active
  ahead : e.order < place

theorem Effect.Seated.of_same {codex : Codex} {next place : Nat} {id : ActorId} {e e' : Effect}
    (h : e.Seated codex next id place) (hs : e.Same e') : e'.Seated codex next id place :=
  ⟨hs.id ▸ h.fresh, hs.target ▸ h.target, hs.template ▸ h.known, hs.phase ▸ h.active,
    hs.order ▸ h.ahead⟩

theorem Effect.Seated.mono {codex : Codex} {next place next' place' : Nat} {id : ActorId}
    {e : Effect} (h : e.Seated codex next id place) (hn : next ≤ next') (hp : place ≤ place') :
    e.Seated codex next' id place' :=
  { h with fresh := Nat.lt_of_lt_of_le h.fresh hn, ahead := Nat.lt_of_lt_of_le h.ahead hp }

namespace Bearer

/-- What a bearer is like, given the codex, the next key and the key of the actor. -/
structure Sound (codex : Codex) (next : Nat) (id : ActorId) (b : Bearer) : Prop where
  owner : b.owner = id
  keys : (b.list.effects.map (·.id)).Nodup
  ordered : (b.list.effects.map (·.order)).Pairwise (· < ·)
  seated : ∀ e ∈ b.list.effects, e.Seated codex next id b.list.nextOrder

theorem sound_fresh (codex : Codex) (next : Nat) (id : ActorId) :
    (Bearer.fresh id).Sound codex next id :=
  ⟨rfl, .nil, .nil, fun _ h => nomatch h⟩

namespace Sound

variable {codex : Codex} {next : Nat} {id : ActorId} {b b' : Bearer} {ev : Event}
  {p : Profile} {settings : Settings} {incoming : Effect}

theorem mono (hb : b.Sound codex next id) {next' : Nat} (h : next ≤ next') :
    b.Sound codex next' id :=
  { hb with seated := fun e he => (hb.seated e he).mono h (Nat.le_refl _) }

theorem get?_of_mem (hb : b.Sound codex next id) {e : Effect} (he : e ∈ b.list.effects) :
    b.list.get? e.id = some e :=
  EffectList.get?_of_mem hb.keys he

theorem ne_incoming (hb : b.Sound codex next id) (hin : incoming.Incoming codex next id)
    {e : Effect} (he : e ∈ b.list.effects) : e.id ≠ incoming.id := by
  intro hid
  have hlt := (hb.seated e he).fresh
  rw [hid, hin.key] at hlt
  exact Nat.lt_irrefl _ hlt

/-- An effect may be replaced by another state of itself. -/
theorem update (hb : b.Sound codex next id) {e e' : Effect} (found : b.list.get? e.id = some e)
    (h : e.Same e') : ({ b with list := b.list.update e.id e' } : Bearer).Sound codex next id where
  owner := hb.owner
  keys := by
    rw [EffectList.map_update found h.id.symm]
    exact hb.keys
  ordered := by
    rw [EffectList.map_update found h.order.symm]
    exact hb.ordered
  seated x hx := by
    obtain ⟨y, hy, hs⟩ := EffectList.exists_same_of_mem_update found h hx
    exact (hb.seated y hy).of_same hs

theorem turn (hb : b.Sound codex next id) (h : b.Turn ev b') : b'.Sound codex next id := by
  cases h with
  | tick found _ => exact hb.update found (Effect.same_countTick _)
  | @finish e _ found _ =>
    have hsub : (b.list.erase e.id).effects.Sublist b.list.effects := List.eraseP_sublist
    exact ⟨hb.owner, hb.keys.sublist (hsub.map _), hb.ordered.sublist (hsub.map _),
      fun x hx => hb.seated x (hsub.subset hx)⟩

theorem turns (hb : b.Sound codex next id) {events : List Event} (h : b.Turns events b') :
    b'.Sound codex next id := by
  induction h with
  | nil => exact hb
  | cons ht _ ih => exact ih (hb.turn ht)

theorem skipped_seated (hb : b.Sound codex next id) (s : Status) :
    (⟨b.skipped, s⟩ : Bearer).Sound codex (next + 1) id :=
  ⟨hb.owner, hb.keys, hb.ordered,
    fun e he => (hb.seated e he).mono (Nat.le_succ _) (Nat.le_succ _)⟩

theorem arrival (hb : b.Sound codex next id) (hin : incoming.Incoming codex next id)
    (h : b.Arrival p settings incoming ev b') : b'.Sound codex (next + 1) id := by
  cases h with
  | renew found =>
    have hfound := hb.get?_of_mem (List.mem_of_find?_eq_some found)
    exact (hb.update hfound (Effect.same_refresh _ _ _)).mono (Nat.le_succ _)
  | start _ _ _ _ =>
    have hall := (hb.skipped_seated b.status).seated
    refine ⟨hb.owner, ?_, ?_, ?_⟩
    · -- the new key is not among those handed out before
      simp only [List.map_append, List.map_cons, List.map_nil, List.nodup_append,
        List.nodup_singleton, true_and, List.mem_singleton]
      refine ⟨hb.keys, ?_⟩
      rintro k hk k' rfl rfl
      obtain ⟨e, he, hid⟩ := List.mem_map.1 hk
      have hlt := (hb.seated e he).fresh
      rw [hid] at hlt
      simp [begun, hin.key] at hlt
    · simp only [List.map_append, List.map_cons, List.map_nil, List.pairwise_append,
        List.pairwise_singleton, true_and, List.mem_singleton]
      refine ⟨hb.ordered, ?_⟩
      rintro n hn n' rfl
      obtain ⟨e, he, rfl⟩ := List.mem_map.1 hn
      exact (hb.seated e he).ahead
    · intro e he
      rcases List.mem_append.1 he with he | he
      · exact hall e he
      · obtain rfl := List.mem_singleton.1 he
        exact ⟨by simp [begun, hin.key], hin.target, hin.known, rfl, Nat.lt_succ_self _⟩
  | veto _ => exact hb.skipped_seated _
  | fail _ => exact hb.skipped_seated _

/-! ### Ending the rivals -/

theorem effects_drop (hb : b.Sound codex next id) (k : EffectId) (reason : EndReason) :
    (b.drop k reason).1.list.effects = b.list.effects.filter (·.id != k) := by
  simp only [drop]
  cases hget : b.list.get? k with
  | none =>
    refine (List.filter_eq_self.2 fun e he => ?_).symm
    simpa using List.find?_eq_none.1 hget e he
  | some e => exact eraseP_eq_filter hb.keys k

theorem effects_dropAll (hb : b.Sound codex next id) (reason : EndReason)
    (h : reason.isParting = true) (ids : List EffectId) :
    (b.dropAll reason ids).1.list.effects = b.list.effects.filter fun e => !ids.contains e.id := by
  induction ids generalizing b with
  | nil => simp [dropAll]
  | cons k rest ih =>
    simp only [dropAll]
    rw [ih (hb.turns (turns_drop b k h)), hb.effects_drop, List.filter_filter]
    congr 1
    funext e
    by_cases hk : e.id = k <;> simp [hk]

/-- Once the effects that pass a test have ended, those that do not are left. -/
theorem effects_dropAll_filter (hb : b.Sound codex next id) (reason : EndReason)
    (h : reason.isParting = true) (p : Effect → Bool) :
    (b.dropAll reason ((b.list.effects.filter p).map (·.id))).1.list.effects =
      b.list.effects.filter fun e => !p e := by
  rw [hb.effects_dropAll reason h]
  refine List.filter_congr fun e he => congrArg not (Bool.eq_iff_iff.2 ?_)
  rw [List.contains_iff_mem]
  refine ⟨fun hmem => ?_, fun hp => List.mem_map_of_mem (List.mem_filter.2 ⟨he, hp⟩)⟩
  obtain ⟨x, hx, hid⟩ := List.mem_map.1 hmem
  obtain ⟨hx, hp⟩ := List.mem_filter.1 hx
  rwa [List.inj_on_of_nodup_map hb.keys hx he hid] at hp

/-- The ends of several effects are told one after the other. -/
theorem events_dropAll (hb : b.Sound codex next id) {reason : EndReason}
    (h : reason.isParting = true) {es : List Effect} (hes : es.Sublist b.list.effects) :
    (b.dropAll reason (es.map (·.id))).2 = es.map fun e => .ended id e.summary reason := by
  induction es generalizing b with
  | nil => rfl
  | cons e rest ih =>
    have hget := hb.get?_of_mem (hes.subset List.mem_cons_self)
    have hdrop : b.drop e.id reason =
        (⟨b.list.erase e.id, b.statusWithout e⟩, [.ended b.owner e.summary reason]) := by
      simp [drop, hget]
    have hb' : (⟨b.list.erase e.id, b.statusWithout e⟩ : Bearer).Sound codex next id :=
      hb.turn (.finish hget h)
    have hrest : rest.Sublist (b.list.erase e.id).effects := by
      have hnodup := hb.keys.sublist (hes.map _)
      rw [List.map_cons, List.nodup_cons] at hnodup
      have hkeep : (e :: rest).filter (·.id != e.id) = rest := by
        rw [List.filter_cons_of_neg (by simp)]
        refine List.filter_eq_self.2 fun y hy => ?_
        simpa using fun heq : y.id = e.id => hnodup.1 (heq ▸ List.mem_map_of_mem hy)
      rw [EffectList.erase, eraseP_eq_filter hb.keys, ← hkeep]
      exact hes.filter _
    simp only [List.map_cons, dropAll, hdrop, ih hb' hrest, hb.owner, List.singleton_append]

/-- **What the rivals leave.**  Once they have ended, the others are as they were. -/
theorem effects_dropRivals (hb : b.Sound codex next id) (incoming : Effect) :
    (b.dropAll .superseded (b.list.rivals incoming)).1.list.effects =
      b.list.effects.filter fun e => !EffectList.isRival incoming e := by
  rw [EffectList.rivals_eq]
  exact hb.effects_dropAll_filter .superseded rfl _

/-- With the rivals gone the incoming effect meets no other, and there is room if there was. -/
theorem unrivalled_dropRivals (hb : b.Sound codex next id) (incoming : Effect) :
    (b.dropAll .superseded (b.list.rivals incoming)).1.list.rivals incoming = [] := by
  simp [EffectList.rivals_eq_nil_iff, hb.effects_dropRivals]

theorem unclaimed_dropRivals (hb : b.Sound codex next id)
    (unclaimed : b.list.renewable? incoming = none) :
    (b.dropAll .superseded (b.list.rivals incoming)).1.list.renewable? incoming = none := by
  refine List.find?_eq_none.2 fun e he => List.find?_eq_none.1 unclaimed e ?_
  rw [hb.effects_dropRivals] at he
  exact List.mem_of_mem_filter he

theorem size_dropRivals (hb : b.Sound codex next id) (incoming : Effect) :
    (b.dropAll .superseded (b.list.rivals incoming)).1.list.size =
      b.list.size - (b.list.rivals incoming).length := by
  have := List.length_eq_length_filter_add (l := b.list.effects) (EffectList.isRival incoming)
  simp only [EffectList.size, EffectList.rivals_eq, List.length_map]
  rw [← EffectList.rivals_eq, hb.effects_dropRivals]
  omega

/-! ### Applying an effect -/

theorem renew_eq_update (hb : b.Sound codex next id) {e : Effect}
    (found : b.list.renewable? incoming = some e) (adopt : Bool) :
    b.list.renew incoming adopt = b.list.update e.id (e.refresh incoming.params adopt) := by
  have hget : b.list.effects.find? (·.id == e.id) = some e :=
    hb.get?_of_mem (List.mem_of_find?_eq_some found)
  simp only [EffectList.renew, EffectList.update, EffectList.mk.injEq, true_and, and_true]
  rw [updateFirst_of_find? found hget hb.keys.of_map]
  refine updateFirst_congr fun a ha => ?_
  rw [Option.some.inj (hget.symm.trans ha)]

/-- Starting an effect that meets no other is one small change. -/
theorem arrival_begin (hp : incoming.phase = .pending) (p : Profile)
    (unclaimed : b.list.renewable? incoming = none) (unrivalled : b.list.rivals incoming = [])
    (room : b.list.size < settings.maxEffects.toNat) :
    ∃ ev, b.Arrival p settings incoming ev (b.begin p settings incoming).bearer ∧
      (b.begin p settings incoming).events = [ev] := by
  cases hc : incoming.contribute p b.status with
  | made s =>
    rw [begin_made hp hc]
    exact ⟨_, .start unclaimed unrivalled room hc, rfl⟩
  | vetoed =>
    rw [begin_vetoed hp hc]
    exact ⟨_, .veto hc, rfl⟩
  | failed cause =>
    rw [begin_failed hp hc]
    exact ⟨_, .fail hc, rfl⟩

/-- **An application is a chain of small changes**: it is turned away and changes nothing, or some
effects end and then the incoming one renews, starts or comes to nothing. -/
theorem apply_changes (hb : b.Sound codex next id) (hin : incoming.Incoming codex next id)
    (p : Profile) (settings : Settings) :
    (∃ refusal, b.apply p settings incoming = ⟨b, [], .error refusal⟩) ∨
    ∃ losses b₁ ev, b.Turns losses b₁ ∧
      b₁.Arrival p settings incoming ev (b.apply p settings incoming).bearer ∧
      (b.apply p settings incoming).events = losses ++ [ev] := by
  rcases b.apply_cases p settings incoming with
    ⟨_, -, h⟩ | ⟨e, _, found, rfl, h⟩ | ⟨hfree, -, hroom, h⟩
  · exact .inl ⟨_, h⟩
  · refine .inr ⟨[], b, _, .nil b, ?_, by rw [h]; rfl⟩
    rw [h, hb.renew_eq_update found]
    exact .renew found
  · rw [h]
    have hbegin := arrival_begin hin.pending p (hb.unclaimed_dropRivals hfree)
      (hb.unrivalled_dropRivals incoming) (by rwa [hb.size_dropRivals])
    obtain ⟨ev, harrival, hevents⟩ := hbegin
    refine .inr ⟨_, _, ev, turns_dropAll b rfl _, harrival, ?_⟩
    simp only [replace, hevents]

end Sound

end Bearer

end StatusEffects
