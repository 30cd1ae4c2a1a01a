import StatusEffects.Proofs.Step

/-!
# What running effects leave on their actor

The status of an actor is kept apart from the list of its effects: starts write to it and ends
withdraw from it.  It is nevertheless a function of the list: the entries of an actor are those its
active effects make, one effect after the other in the order of application.

## Main definitions

* `Effect.ownHolds`, `Effect.ownVisuals`, `Effect.ownBonuses`, `Effect.ownForm` : the entries an
  effect makes.
* `Status.Reflects` : a status consists of the entries of a list of effects.
* `Status.Lacks`, `Status.Adds` : a status has no entry of an effect; one has those of an effect
  besides what another one has.

## Main statements

* `Bearer.Sound.reflected_turn`, `Bearer.Sound.reflected_arrival` : small changes keep status and
  list in step.
* `Engine.status_run` : after every run the status of every actor is that of its active effects.
-/

namespace StatusEffects

/-! ### The entries of one effect -/

namespace Effect

/-- Whether the effect holds its actor in place. -/
def immobilizes (e : Effect) : Bool := e.template.kind == .paralyze || e.template.kind == .liftHold

/-- Whether the effect puts the bonuses of its template in force. -/
def modifiesStats (e : Effect) : Bool := e.template.kind == .buff || e.template.kind == .debuff

/-- Whether the effect changes its actor's appearance. -/
def transforms (e : Effect) : Bool := e.template.kind == .transform

/-- What the effect shows: the visual of its template and that of its kind. -/
def visual (e : Effect) : Visuals :=
  e.template.visual ∪
    match e.template.kind with
    | .paralyze => .paralyze
    | .liftHold => .liftHold
    | _ => ∅

/-- The holds the effect makes. -/
def ownHolds (e : Effect) : List EffectId := if e.immobilizes then [e.id] else []

/-- The visuals the effect shows. -/
def ownVisuals (e : Effect) : List (EffectId × Visuals) :=
  if !e.visual.isEmpty then [(e.id, e.visual)] else []

/-- The bonuses the effect grants. -/
def ownBonuses (e : Effect) : List (EffectId × StatBonus) :=
  if e.modifiesStats then e.template.bonuses.map (e.id, ·) else []

/-- The appearance the effect gives. -/
def ownForm (e : Effect) : List (EffectId × UInt32) :=
  if e.transforms then [(e.id, e.template.form)] else []

/-- The entries of an effect, each behind its key. -/
structure OwnSame (e e' : Effect) : Prop where
  holds : e.ownHolds = e'.ownHolds
  visuals : e.ownVisuals = e'.ownVisuals
  bonuses : e.ownBonuses = e'.ownBonuses
  form : e.ownForm = e'.ownForm

/-- The entries depend on key and template alone. -/
theorem ownSame {e e' : Effect} (hid : e.id = e'.id) (htemplate : e.template = e'.template) :
    e.OwnSame e' := by
  constructor <;>
    (simp only [ownHolds, ownVisuals, ownBonuses, ownForm, immobilizes, modifiesStats, transforms,
      visual, hid, htemplate]; rfl)

theorem Same.own {e e' : Effect} (h : e.Same e') : e.OwnSame e' := ownSame h.id h.template

theorem tag_ownHolds {e : Effect} {k : EffectId} (h : k ∈ e.ownHolds) : k = e.id := by
  simp only [ownHolds] at h
  split_ifs at h <;> simp_all

theorem tag_ownVisuals {e : Effect} {x : EffectId × Visuals} (h : x ∈ e.ownVisuals) :
    x.1 = e.id := by
  simp only [ownVisuals] at h
  split_ifs at h <;> simp_all

theorem tag_ownBonuses {e : Effect} {x : EffectId × StatBonus} (h : x ∈ e.ownBonuses) :
    x.1 = e.id := by
  simp only [ownBonuses] at h
  split_ifs at h
  · obtain ⟨_, -, rfl⟩ := List.mem_map.1 h
    rfl
  · cases h

theorem tag_ownForm {e : Effect} {x : EffectId × UInt32} (h : x ∈ e.ownForm) : x.1 = e.id := by
  simp only [ownForm] at h
  split_ifs at h <;> simp_all

end Effect

/-! ### Entries of a list of effects -/

section Entries

variable {β : Type} {own : Effect → List β} {tag : β → EffectId}

theorem filter_flatMap_tag (htag : ∀ e, ∀ x ∈ own e, tag x = e.id) (es : List Effect)
    (k : EffectId) : (es.flatMap own).filter (fun x => tag x ≠ k) =
      (es.filter (·.id != k)).flatMap own := by
  induction es with
  | nil => rfl
  | cons e rest ih =>
    rw [List.flatMap_cons, List.filter_append, ih]
    by_cases hk : e.id = k
    · have hnone : (own e).filter (fun x => tag x ≠ k) = [] :=
        List.filter_eq_nil_iff.2 fun x hx => by simp [htag e x hx, hk]
      rw [hnone]
      simp [hk]
    · have hall : (own e).filter (fun x => tag x ≠ k) = own e :=
        List.filter_eq_self.2 fun x hx => by simp [htag e x hx, hk]
      rw [hall]
      simp [hk]

theorem tag_of_mem_flatMap (htag : ∀ e, ∀ x ∈ own e, tag x = e.id) {es : List Effect} {x : β}
    (hx : x ∈ es.flatMap own) : ∃ e ∈ es, e.id = tag x := by
  obtain ⟨e, he, hxe⟩ := List.mem_flatMap.1 hx
  exact ⟨e, he, (htag e x hxe).symm⟩

theorem flatMap_update {l : EffectList} {e e' : Effect} (found : l.get? e.id = some e)
    (h : own e' = own e) : (l.update e.id e').effects.flatMap own = l.effects.flatMap own := by
  rw [List.flatMap_def, List.flatMap_def, EffectList.map_update found h]

end Entries

namespace Status

/-- A status that consists of the entries of the effects, one effect after the other. -/
structure Reflects (s : Status) (es : List Effect) : Prop where
  holds : s.holds = es.flatMap Effect.ownHolds
  visuals : s.visuals = es.flatMap Effect.ownVisuals
  bonuses : s.bonuses = es.flatMap Effect.ownBonuses
  form : s.form.toList = es.flatMap Effect.ownForm

/-- A status without an entry of the effect. -/
structure Lacks (s : Status) (k : EffectId) : Prop where
  holds : k ∉ s.holds
  visuals : ∀ x ∈ s.visuals, x.1 ≠ k
  bonuses : ∀ x ∈ s.bonuses, x.1 ≠ k
  form : ∀ x ∈ s.form, x.1 ≠ k

variable {s : Status} {es : List Effect} {k : EffectId}

theorem Reflects.lacks (h : s.Reflects es) (hk : ∀ e ∈ es, e.id ≠ k) : s.Lacks k where
  holds hx := by
    rw [h.holds] at hx
    obtain ⟨e, he, hke⟩ := List.mem_flatMap.1 hx
    exact hk e he (Effect.tag_ownHolds hke).symm
  visuals x hx hxk := by
    rw [h.visuals] at hx
    obtain ⟨e, he, hid⟩ := tag_of_mem_flatMap (fun _ _ => Effect.tag_ownVisuals) hx
    exact hk e he (hid.trans hxk)
  bonuses x hx hxk := by
    rw [h.bonuses] at hx
    obtain ⟨e, he, hid⟩ := tag_of_mem_flatMap (fun _ _ => Effect.tag_ownBonuses) hx
    exact hk e he (hid.trans hxk)
  form x hx hxk := by
    have hx' : x ∈ s.form.toList := Option.mem_toList.2 hx
    rw [h.form] at hx'
    obtain ⟨e, he, hid⟩ := tag_of_mem_flatMap (fun _ _ => Effect.tag_ownForm) hx'
    exact hk e he (hid.trans hxk)

theorem Reflects.snoc_congr {e e' : Effect} (h : s.Reflects (es ++ [e])) (he : e.OwnSame e') :
    s.Reflects (es ++ [e']) where
  holds := by simp only [h.holds, List.flatMap_append, List.flatMap_singleton, he.holds]
  visuals := by simp only [h.visuals, List.flatMap_append, List.flatMap_singleton, he.visuals]
  bonuses := by simp only [h.bonuses, List.flatMap_append, List.flatMap_singleton, he.bonuses]
  form := by simp only [h.form, List.flatMap_append, List.flatMap_singleton, he.form]

theorem Lacks.withdraw_eq (h : s.Lacks k) : s.withdraw k = s := by
  have hform : s.form.filter (fun x => decide (x.1 ≠ k)) = s.form := by
    cases hf : s.form with
    | none => rfl
    | some x => simp [Option.filter, h.form x hf]
  have hholds : s.holds.filter (fun x => decide (x ≠ k)) = s.holds :=
    List.filter_eq_self.2 fun x hx => by
      simpa using fun hxk : x = k => h.holds (hxk ▸ hx)
  have hvisuals : s.visuals.filter (fun x => decide (x.1 ≠ k)) = s.visuals :=
    List.filter_eq_self.2 fun x hx => by simpa using h.visuals x hx
  have hbonuses : s.bonuses.filter (fun x => decide (x.1 ≠ k)) = s.bonuses :=
    List.filter_eq_self.2 fun x hx => by simpa using h.bonuses x hx
  simp only [withdraw, release, conceal, revoke, restoreForm, hholds, hvisuals, hbonuses, hform]

theorem toList_filter {α : Type} (p : α → Bool) (o : Option α) :
    (o.filter p).toList = o.toList.filter p := by
  cases o with
  | none => rfl
  | some a => by_cases h : p a <;> simp [Option.filter, h]

/-- Withdrawing takes away the entries of one effect. -/
theorem Reflects.withdraw (h : s.Reflects es) (k : EffectId) :
    (s.withdraw k).Reflects (es.filter (·.id != k)) where
  holds := by
    have htag : ∀ e : Effect, ∀ x ∈ e.ownHolds, id x = e.id := fun _ _ => Effect.tag_ownHolds
    rw [← filter_flatMap_tag htag, ← h.holds]
    rfl
  visuals := by
    rw [← filter_flatMap_tag fun _ _ => Effect.tag_ownVisuals, ← h.visuals]
    rfl
  bonuses := by
    rw [← filter_flatMap_tag fun _ _ => Effect.tag_ownBonuses, ← h.bonuses]
    rfl
  form := by
    rw [← filter_flatMap_tag fun _ _ => Effect.tag_ownForm, ← h.form, ← toList_filter]
    rfl

/-! ### Starts -/

theorem visuals_display (s : Status) (k : EffectId) (v : Visuals) :
    (s.display k v).visuals = s.visuals ++ if !v.isEmpty then [(k, v)] else [] := by
  cases h : v.isEmpty <;> simp [display, h]

theorem holds_display (s : Status) (k : EffectId) (v : Visuals) :
    (s.display k v).holds = s.holds := by
  cases h : v.isEmpty <;> simp [display, h]

theorem bonuses_display (s : Status) (k : EffectId) (v : Visuals) :
    (s.display k v).bonuses = s.bonuses := by
  cases h : v.isEmpty <;> simp [display, h]

theorem form_display (s : Status) (k : EffectId) (v : Visuals) :
    (s.display k v).form = s.form := by
  cases h : v.isEmpty <;> simp [display, h]

/-- A status with the entries of an effect behind those that it had. -/
structure Adds (s : Status) (e : Effect) (s' : Status) : Prop where
  holds : s'.holds = s.holds ++ e.ownHolds
  visuals : s'.visuals = s.visuals ++ e.ownVisuals
  bonuses : s'.bonuses = s.bonuses ++ e.ownBonuses
  form : s'.form.toList = s.form.toList ++ e.ownForm

/-- A start adds the entries of the effect behind the others. -/
theorem adds_of_contribute {e : Effect} {p : Profile} {s' : Status} (hfree : e.id ∉ s.holds)
    (made : e.contribute p s = .made s') : s.Adds e s' := by
  have hadd : s'.holds = s.holds ++ e.ownHolds ∧ s'.visuals = s.visuals ++ e.ownVisuals ∧
      s'.bonuses = s.bonuses ++ e.ownBonuses ∧ s'.form.toList = s.form.toList ++ e.ownForm := by
    cases hkind : e.template.kind with
    | buff | debuff | paralyze | periodic | marker =>
      simp only [Effect.contribute, hkind, Start.made.injEq] at made
      subst made
      simp [Effect.displayed, holds_display, visuals_display, bonuses_display, form_display,
        hold, grant, hfree, Effect.ownHolds, Effect.ownVisuals, Effect.ownBonuses, Effect.ownForm,
        Effect.immobilizes, Effect.modifiesStats, Effect.transforms, Effect.visual, hkind]
    | liftHold =>
      simp only [Effect.contribute, hkind] at made
      split_ifs at made
      obtain rfl := Start.made.inj made
      simp [Effect.displayed, holds_display, visuals_display, bonuses_display, form_display,
        hold, hfree, Effect.ownHolds, Effect.ownVisuals, Effect.ownBonuses, Effect.ownForm,
        Effect.immobilizes, Effect.modifiesStats, Effect.transforms, Effect.visual, hkind]
    | recovery =>
      simp only [Effect.contribute, hkind] at made
      split_ifs at made
      obtain rfl := Start.made.inj made
      simp [Effect.displayed, holds_display, visuals_display, bonuses_display, form_display,
        Effect.ownHolds, Effect.ownVisuals, Effect.ownBonuses, Effect.ownForm,
        Effect.immobilizes, Effect.modifiesStats, Effect.transforms, Effect.visual, hkind]
    | transform =>
      simp only [Effect.contribute, hkind] at made
      split_ifs at made with happ hzero
      obtain rfl := Start.made.inj made
      -- a form is given only where there is none
      have hnone : s.form = none := by simpa [appearance] using happ
      simp [Effect.displayed, holds_display, visuals_display, bonuses_display, form_display,
        transform, hnone, Effect.ownHolds, Effect.ownVisuals, Effect.ownBonuses, Effect.ownForm,
        Effect.immobilizes, Effect.modifiesStats, Effect.transforms, Effect.visual, hkind]
  obtain ⟨hholds, hvisuals, hbonuses, hform⟩ := hadd
  exact ⟨hholds, hvisuals, hbonuses, hform⟩

/-- After a start the status consists of the entries of one more effect. -/
theorem Reflects.contribute {e : Effect} {p : Profile} {s' : Status} (h : s.Reflects es)
    (hk : ∀ x ∈ es, x.id ≠ e.id) (made : e.contribute p s = .made s') :
    s'.Reflects (es ++ [e]) := by
  obtain ⟨hholds, hvisuals, hbonuses, hform⟩ := adds_of_contribute (h.lacks hk).holds made
  constructor
  · simp [hholds, h.holds]
  · simp [hvisuals, h.visuals]
  · simp [hbonuses, h.bonuses]
  · simp [hform, h.form]

end Status

/-! ### Bearers -/

namespace Bearer

variable {codex : Codex} {next : Nat} {id : ActorId} {b b' : Bearer} {ev : Event} {p : Profile}
  {settings : Settings} {incoming e e' : Effect}

/-- The status of a bearer consists of the entries of its effects. -/
def Reflected (b : Bearer) : Prop := b.status.Reflects b.list.effects

theorem Reflected.update (hr : b.Reflected) (found : b.list.get? e.id = some e) (h : e.Same e') :
    ({ b with list := b.list.update e.id e' } : Bearer).Reflected where
  holds := by rw [flatMap_update found h.own.holds.symm, hr.holds]
  visuals := by rw [flatMap_update found h.own.visuals.symm, hr.visuals]
  bonuses := by rw [flatMap_update found h.own.bonuses.symm, hr.bonuses]
  form := by rw [flatMap_update found h.own.form.symm, hr.form]

theorem Sound.statusWithout_eq (hb : b.Sound codex next id) (he : e ∈ b.list.effects) :
    b.statusWithout e = b.status.withdraw e.id := by
  simp [statusWithout, Effect.exit, (hb.seated e he).active]

/-- **Ticks and ends keep status and list in step.** -/
theorem Sound.reflected_turn (hb : b.Sound codex next id) (hr : b.Reflected) (h : b.Turn ev b') :
    b'.Reflected := by
  cases h with
  | tick found _ => exact hr.update found (Effect.same_countTick _)
  | @finish e _ found _ =>
    have hends := hr.withdraw e.id
    rw [← eraseP_eq_filter hb.keys] at hends
    rw [hb.statusWithout_eq (EffectList.mem_of_get? found)]
    exact hends

theorem Sound.reflected_turns (hb : b.Sound codex next id) (hr : b.Reflected) {events : List Event}
    (h : b.Turns events b') : b'.Reflected := by
  induction h with
  | nil => exact hr
  | cons hturn _ ih => exact ih (hb.turn hturn) (hb.reflected_turn hr hturn)

/-- **Incoming effects keep status and list in step**: one that starts adds its own entries, one
that refuses or fails leaves none. -/
theorem Sound.reflected_arrival (hb : b.Sound codex next id) (hr : b.Reflected)
    (hin : incoming.Incoming codex next id) (h : b.Arrival p settings incoming ev b') :
    b'.Reflected := by
  cases h with
  | renew found =>
    have hget := hb.get?_of_mem (List.mem_of_find?_eq_some found)
    exact hr.update hget (Effect.same_refresh _ _ _)
  | start _ _ _ made =>
    have hstart := hr.contribute (fun e he => hb.ne_incoming hin he) made
    refine hstart.snoc_congr ?_
    exact ⟨rfl, rfl, rfl, rfl⟩
  | veto _ => exact hr
  | fail _ =>
    have hlacks := hr.lacks fun e he => hb.ne_incoming hin he
    have hsame := hlacks.withdraw_eq
    exact show (b.status.withdraw incoming.id).Reflects b.list.effects from hsame.symm ▸ hr

end Bearer

/-! ### Runs -/

namespace Engine

theorem keeps_reflected (codex : Codex) (settings : Settings) :
    Keeps codex settings Bearer.Reflected where
  fresh _ := ⟨rfl, rfl, rfl, rfl⟩
  turn hb hr h := hb.reflected_turn hr h
  arrival hb hin hr h := hb.reflected_arrival hr hin h

theorem flatMap_ite_singleton {α β : Type} (p : α → Bool) (f : α → β) (as : List α) :
    (as.flatMap fun a => if p a then [f a] else []) = (as.filter p).map f := by
  induction as with
  | nil => rfl
  | cons a rest ih => by_cases h : p a <;> simp [h, ih]

theorem flatMap_ite {α β : Type} (p : α → Bool) (f : α → List β) (as : List α) :
    (as.flatMap fun a => if p a then f a else []) = (as.filter p).flatMap f := by
  induction as with
  | nil => rfl
  | cons a rest ih => by_cases h : p a <;> simp [h, ih]

/-- **The status of an actor is that of its active effects.**  After every run over an empty world
every registered actor has a list of active effects in the order of their places, and what is
entered in its status is what these effects make, in that order: the holds of those that paralyze
or lift, the visuals that are not empty, the bonuses of buffs and debuffs, and the form of the one
effect that transforms, if there is one.  Whatever is not active has left no entry. -/
theorem status_run (settings : Settings) (codex : Codex) (start : UInt64) (manual : Bool)
    (capacity : Nat) (ops : List Op) {id : ActorId} {a : Actor}
    (found : ((opened settings codex start manual capacity).run ops).world.get? id = some a) :
    let es := a.bearer.list.effects
    let s := a.bearer.status
    (∀ e ∈ es, e.isActive) ∧ es.Pairwise (·.order < ·.order) ∧
    s.holds = (es.filter (·.immobilizes)).map (·.id) ∧
    s.visuals = (es.filter fun e => !e.visual.isEmpty).map (fun e => (e.id, e.visual)) ∧
    s.bonuses = (es.filter (·.modifiesStats)).flatMap (fun e => e.template.bonuses.map (e.id, ·)) ∧
    (es.filter (·.transforms)).length ≤ 1 ∧
    s.form = (es.filter (·.transforms)).head?.map (fun e => (e.id, e.template.form)) ∧
    ∀ k, (∀ e ∈ es, e.id ≠ k) → s.Lacks k := by
  intro es s
  have hbearer := World.bearer?_of_get? found
  have hb := sound_run (sound_opened settings codex start manual capacity) ops id _ hbearer
  have hr : s.Reflects es :=
    (keeps_reflected codex settings).run start manual capacity ops id _ hbearer
  have hform : s.form.toList = (es.filter (·.transforms)).map fun e => (e.id, e.template.form) := by
    rw [hr.form]
    exact flatMap_ite_singleton _ _ _
  refine ⟨?_, List.pairwise_map.1 hb.ordered, ?_, ?_, ?_, ?_, ?_, fun k hk => hr.lacks hk⟩
  · intro e he
    simp [Effect.isActive, (hb.seated e he).active]
  · rw [hr.holds]
    exact flatMap_ite_singleton _ _ _
  · rw [hr.visuals]
    exact flatMap_ite_singleton _ _ _
  · rw [hr.bonuses]
    exact flatMap_ite _ _ _
  · have hlen := congrArg List.length hform
    rw [List.length_map] at hlen
    rw [← hlen]
    cases s.form <;> simp
  · rw [← List.head?_map, ← hform]
    cases s.form <;> rfl

/-- The haste that a greater one has superseded has left nothing behind. -/
theorem status_run_superseded :
    ∃ a, ((opened {} trialCodex 0 true 1).run
        [.enter 1, .cast 1 1, .cast 1 3, .cast 1 2]).world.get? ⟨1⟩ = some a ∧
      a.bearer.status.holds = [⟨2⟩] ∧ a.bearer.status.visuals = [(⟨2⟩, .paralyze)] ∧
      a.bearer.status.bonuses = [(⟨3⟩, ⟨.runSpeed, .flat 33⟩)] ∧
      a.bearer.status.form = none := by
  refine ⟨_, rfl, ?_⟩
  obtain ⟨-, -, hholds, hvisuals, hbonuses, -, hform, -⟩ := @status_run {} trialCodex 0 true 1
    [.enter 1, .cast 1 1, .cast 1 3, .cast 1 2] ⟨1⟩ _ rfl
  exact ⟨hholds, hvisuals, hbonuses, hform⟩

end Engine

end StatusEffects
