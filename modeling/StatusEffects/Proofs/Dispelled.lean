import StatusEffects.Proofs.Tidy
import StatusEffects.Proofs.Turnout

/-!
# What a dispel removes

A dispel looks for its targets once and then takes them away one after the other, each by its key
and with what it has done to the status.  It comes to one filter of the list and one of the status:
what goes is what the selector aims at and the cause permits, the rest stays in place, and a second
dispel of the same kind finds nothing.

## Main definitions

* `Selector.removes` : whether a dispel removes an effect.
* `EffectList.removed`, `EffectList.spares` : what goes and what stays.
* `Status.without` : a status without the entries of some effects.

## Main statements

* `Bearer.Sound.status_dropAll` : ends of effects take away the entries of these effects.
* `Bearer.Sound.dispel_eq` : a dispel as one equation.
* `Bearer.Sound.dispel_dispel` : a dispel that has been made finds nothing more.
* `Bearer.Sound.dispel_buffs_debuffs` : a dispel of everything in two halves.
* `Keeper.Stocked.dispel_exact` : what a dispel does after any history.
-/

namespace StatusEffects

/-- Whether a dispel removes an effect: the selector aims at it and the cause may remove it. -/
def Selector.removes (settings : Settings) (cause : Cause) (selector : Selector) (e : Effect) :
    Bool :=
  selector.selects e && cause.permits e.template settings

namespace EffectList

/-- The effects that a dispel removes. -/
def removed (l : EffectList) (settings : Settings) (selector : Selector) (cause : Cause) :
    List Effect :=
  l.effects.filter (selector.removes settings cause)

/-- The list with the effects that a dispel does not remove, as they are and where they are. -/
def spares (l : EffectList) (settings : Settings) (selector : Selector) (cause : Cause) :
    EffectList :=
  { l with effects := l.effects.filter fun e => !selector.removes settings cause e }

variable (l : EffectList) (settings : Settings) (cause : Cause)

/-- What a dispel spares, the same dispel spares again. -/
theorem removed_spares_self (selector : Selector) :
    (l.spares settings selector cause).removed settings selector cause = [] :=
  List.filter_eq_nil_iff.2 fun _ he => by simpa using List.of_mem_filter he

/-- Every effect is helpful or harmful. -/
theorem spares_buffs_debuffs :
    (l.spares settings .allBuffs cause).spares settings .allDebuffs cause =
      l.spares settings .all cause := by
  simp only [spares, List.filter_filter]
  congr 2
  funext e
  cases hharm : e.template.isDebuff <;> simp [Selector.removes, Selector.selects, hharm]

/-- No effect is both. -/
theorem removed_buffs_debuffs_perm :
    (l.removed settings .allBuffs cause ++
      (l.spares settings .allBuffs cause).removed settings .allDebuffs cause).Perm
      (l.removed settings .all cause) := by
  have hbuffs : l.removed settings .allBuffs cause =
      (l.removed settings .all cause).filter fun e => !e.template.isDebuff := by
    rw [removed, removed, List.filter_filter]
    rfl
  have hdebuffs : (l.spares settings .allBuffs cause).removed settings .allDebuffs cause =
      (l.removed settings .all cause).filter fun e => !!e.template.isDebuff := by
    simp only [removed, spares, List.filter_filter]
    congr 1
    funext e
    cases hharm : e.template.isDebuff <;> simp [Selector.removes, Selector.selects, hharm]
  rw [hbuffs, hdebuffs]
  exact List.filter_append_perm _ _

end EffectList

/-! ### The status -/

namespace Status

/-- The status without the entries of some effects. -/
def without (s : Status) (ids : List EffectId) : Status where
  holds := s.holds.filter fun x => !ids.contains x
  visuals := s.visuals.filter fun x => !ids.contains x.1
  bonuses := s.bonuses.filter fun x => !ids.contains x.1
  form := s.form.filter fun x => !ids.contains x.1

theorem without_nil (s : Status) : s.without [] = s := by
  have hform : s.form.filter (fun _ => true) = s.form := by cases s.form <;> rfl
  simp [without, hform]

theorem withdraw_without (s : Status) (k : EffectId) (ids : List EffectId) :
    (s.withdraw k).without ids = s.without (k :: ids) := by
  have hkey : ∀ x : EffectId, (!ids.contains x && decide (x ≠ k)) = !(k :: ids).contains x := by
    intro x
    by_cases hx : x = k <;> simp [hx]
  -- an option applies the two filters in the other order
  have hkey' : ∀ x : EffectId, (decide (x ≠ k) && !ids.contains x) = !(k :: ids).contains x :=
    fun x => (Bool.and_comm ..).trans (hkey x)
  simp only [without, withdraw, release, conceal, revoke, restoreForm, List.filter_filter,
    Option.filter_filter, hkey, hkey']

/-- A list of effects makes one status. -/
theorem Reflects.unique {s s' : Status} {es : List Effect} (h : s.Reflects es)
    (h' : s'.Reflects es) : s = s' := by
  have hholds := h.holds.trans h'.holds.symm
  have hvisuals := h.visuals.trans h'.visuals.symm
  have hbonuses := h.bonuses.trans h'.bonuses.symm
  have hform := congrArg List.head? (h.form.trans h'.form.symm)
  rw [Option.head?_toList, Option.head?_toList] at hform
  cases s
  cases s'
  congr

end Status

namespace Bearer

variable {codex : Codex} {settings : Settings} {next : Nat} {id : ActorId} {b : Bearer}

/-- An application keeps status and list in step. -/
theorem Sound.reflected_apply {incoming : Effect} (hb : b.Sound codex next id) (hr : b.Reflected)
    (hin : incoming.Incoming codex next id) (p : Profile) (settings : Settings) :
    (b.apply p settings incoming).bearer.Reflected := by
  rcases hb.apply_changes hin p settings with ⟨_, h⟩ | ⟨_, _, _, hturns, harrival, -⟩
  · rw [h]
    exact hr
  · exact (hb.turns hturns).reflected_arrival (hb.reflected_turns hr hturns) hin harrival

theorem Sound.status_drop (hb : b.Sound codex next id) (hr : b.Reflected) (k : EffectId)
    (reason : EndReason) : (b.drop k reason).1.status = b.status.withdraw k := by
  simp only [drop]
  cases hget : b.list.get? k with
  | none =>
    have hlacks : b.status.Lacks k := hr.lacks fun e he => by
      simpa using List.find?_eq_none.1 hget e he
    exact hlacks.withdraw_eq.symm
  | some e =>
    obtain rfl := EffectList.id_of_get? hget
    exact hb.statusWithout_eq (EffectList.mem_of_get? hget)

/-- **Ends of effects take away the entries of these effects** and no others. -/
theorem Sound.status_dropAll (hb : b.Sound codex next id) (hr : b.Reflected) {reason : EndReason}
    (parting : reason.isParting = true) (ids : List EffectId) :
    (b.dropAll reason ids).1.status = b.status.without ids := by
  induction ids generalizing b with
  | nil => exact b.status.without_nil.symm
  | cons k rest ih =>
    have hdrop := turns_drop b k parting
    simp only [dropAll]
    rw [ih (hb.turns hdrop) (hb.reflected_turns hr hdrop), hb.status_drop hr,
      Status.withdraw_without]

/-- **A dispel as one equation.**  What it removes is told in the order of application, and the
rest stays as it is. -/
theorem Sound.dispel_eq (hb : b.Sound codex next id) (hr : b.Reflected) (settings : Settings)
    (selector : Selector) (cause : Cause) :
    let removed := b.list.removed settings selector cause
    b.dispel settings selector cause =
      ⟨⟨b.list.spares settings selector cause, b.status.without (removed.map (·.id))⟩,
        removed.map fun e => .ended id e.summary .dispelled, removed.length⟩ := by
  intro removed
  have parting : EndReason.isParting .dispelled = true := rfl
  have hlist : (b.dropAll .dispelled (removed.map (·.id))).1.list =
      b.list.spares settings selector cause :=
    (b.list_dropAll .dispelled _).trans (congrArg (fun es => { b.list with effects := es })
      (hb.effects_dropAll_filter .dispelled parting (selector.removes settings cause)))
  have hstatus := hb.status_dropAll hr parting (removed.map (·.id))
  have hevents : (b.dropAll .dispelled (removed.map (·.id))).2 =
      removed.map fun e => .ended id e.summary .dispelled :=
    hb.events_dropAll parting List.filter_sublist
  have hafter : (b.dropAll .dispelled (removed.map (·.id))).1 =
      ⟨b.list.spares settings selector cause, b.status.without (removed.map (·.id))⟩ := by
    rw [← hlist, ← hstatus]
  have hdispel : b.dispel settings selector cause =
      ⟨(b.dropAll .dispelled (removed.map (·.id))).1,
        (b.dropAll .dispelled (removed.map (·.id))).2,
        (b.dropAll .dispelled (removed.map (·.id))).2.length⟩ := rfl
  rw [hdispel, hevents, hafter, List.length_map]

/-- A list makes one bearer. -/
theorem Reflected.unique {b' : Bearer} (hr : b.Reflected) (hr' : b'.Reflected)
    (same : b.list = b'.list) : b = b' := by
  obtain ⟨l, s⟩ := b
  obtain ⟨l', s'⟩ := b'
  obtain rfl : l = l' := same
  exact congrArg _ (Status.Reflects.unique hr hr')

/-- A dispel keeps status and list in step. -/
theorem Sound.reflected_dispel (hb : b.Sound codex next id) (hr : b.Reflected)
    (settings : Settings) (selector : Selector) (cause : Cause) :
    (b.dispel settings selector cause).bearer.Reflected :=
  hb.reflected_turns hr (turns_dispel b settings selector cause)

/-- **A dispel that has been made finds nothing more.** -/
theorem Sound.dispel_dispel (hb : b.Sound codex next id) (hr : b.Reflected) (settings : Settings)
    (selector : Selector) (cause : Cause) :
    (b.dispel settings selector cause).bearer.dispel settings selector cause =
      ⟨(b.dispel settings selector cause).bearer, [], 0⟩ := by
  have hnone : (b.dispel settings selector cause).bearer.list.effects.filter
      (fun e => selector.selects e && cause.permits e.template settings) = [] := by
    rw [hb.dispel_eq hr]
    exact b.list.removed_spares_self settings cause selector
  generalize (b.dispel settings selector cause).bearer = b' at hnone ⊢
  simp only [dispel, hnone, List.map_nil, dropAll, List.length_nil]

/-- **What is helpful and then what is harmful** is everything. -/
theorem Sound.dispel_buffs_debuffs (hb : b.Sound codex next id) (hr : b.Reflected)
    (settings : Settings) (cause : Cause) :
    let buffs := b.dispel settings .allBuffs cause
    let debuffs := buffs.bearer.dispel settings .allDebuffs cause
    let all := b.dispel settings .all cause
    debuffs.bearer = all.bearer ∧ (buffs.events ++ debuffs.events).Perm all.events ∧
      buffs.answer + debuffs.answer = all.answer := by
  intro buffs debuffs all
  have hb' := hb.turns (turns_dispel b settings .allBuffs cause)
  have hr' := hb.reflected_dispel hr settings .allBuffs cause
  have hbuffs : buffs = _ := hb.dispel_eq hr settings .allBuffs cause
  have hdebuffs : debuffs = _ := hb'.dispel_eq hr' settings .allDebuffs cause
  have hall : all = _ := hb.dispel_eq hr settings .all cause
  have hleft : buffs.bearer.list = b.list.spares settings .allBuffs cause := by rw [hbuffs]
  have hperm := b.list.removed_buffs_debuffs_perm settings cause
  have hlist : debuffs.bearer.list = all.bearer.list := by
    rw [hdebuffs, hall, hleft]
    exact b.list.spares_buffs_debuffs settings cause
  refine ⟨?_, ?_, ?_⟩
  · have hd : debuffs.bearer.Reflected := hb'.reflected_dispel hr' settings .allDebuffs cause
    exact hd.unique (hb.reflected_dispel hr settings .all cause) hlist
  · rw [hdebuffs, hbuffs, hall, hleft, ← List.map_append]
    exact hperm.map _
  · rw [hdebuffs, hbuffs, hall, hleft, ← List.length_append]
    exact hperm.length_eq

end Bearer

/-! ### After any history -/

namespace Keeper.Stocked

variable {codex : Codex} {settings : Settings} {id : ActorId} {next : Nat} {b : Bearer}
  {k : Keeper}

/-- A history keeps status and list in step. -/
theorem reflected (h : Stocked codex settings id next b k) : b.Reflected := by
  induction h with
  | fresh => exact ⟨rfl, rfl, rfl, rfl⟩
  | later _ _ ih => exact ih
  | apply _ p h hin ih => exact h.sound.reflected_apply ih hin p settings
  | dispel _ selector cause h ih => exact h.sound.reflected_dispel ih settings selector cause
  | fire _ t h ih => exact h.sound.reflected_turns ih (Bearer.turns_fire _ settings t)
  | clear h ih => exact h.sound.reflected_turns ih (Bearer.turns_clear _ rfl)

/-- **A dispel removes what it may and nothing else.**  Whatever has been done to an actor before,
and whatever the settings are now, a dispel leaves the effects that its selector does not aim at or
its cause may not remove, as they are and where they are.  It answers the number of the others,
tells the end of each once, in the order of application, and takes their entries and no others out
of the status.  Made again it finds nothing, and to remove what is helpful and then what is harmful
is to remove everything.  All this is so on shelves as well, whatever their arrangement. -/
theorem dispel_exact (h : Stocked codex settings id next b k) (current : Settings)
    (selector : Selector) (cause : Cause) :
    let removed := b.list.removed current selector cause
    let o := b.dispel current selector cause
    o.bearer.list = b.list.spares current selector cause ∧
      o.answer = removed.length ∧
      o.events = removed.map (fun e => .ended id e.summary .dispelled) ∧
      (removed.map (·.order)).Pairwise (· < ·) ∧
      o.bearer.status = b.status.without (removed.map (·.id)) ∧
      o.bearer.status.Reflects (b.list.spares current selector cause).effects ∧
      o.bearer.dispel current selector cause = ⟨o.bearer, [], 0⟩ ∧
      (let buffs := b.dispel current .allBuffs cause
        let debuffs := buffs.bearer.dispel current .allDebuffs cause
        let all := b.dispel current .all cause
        debuffs.bearer = all.bearer ∧ (buffs.events ++ debuffs.events).Perm all.events ∧
          buffs.answer + debuffs.answer = all.answer) ∧
      ∀ (r r' : Arrangement) (selector' : Selector),
        (k.dispel r current selector cause).Mirrors o ∧
        ((k.dispel r current selector cause).keeper.dispel r' current selector' cause).Mirrors
          (o.bearer.dispel current selector' cause) := by
  intro removed o
  have hb := h.sound
  have ho : o = _ := hb.dispel_eq h.reflected current selector cause
  have hlist : o.bearer.list = b.list.spares current selector cause := by rw [ho]
  have hreflects : o.bearer.Reflected := hb.reflected_dispel h.reflected current selector cause
  have horder : (removed.map (·.order)).Pairwise (· < ·) :=
    hb.ordered.sublist (List.filter_sublist.map _)
  refine ⟨hlist, by rw [ho], by rw [ho], horder, by rw [ho], hlist ▸ hreflects,
    hb.dispel_dispel h.reflected current selector cause,
    hb.dispel_buffs_debuffs h.reflected current cause, fun r r' selector' => ?_⟩
  have hmirrors := h.mirrors.dispel hb r current selector cause
  have hb' := hb.turns (Bearer.turns_dispel b current selector cause)
  exact ⟨hmirrors, hmirrors.keeper.dispel hb' r' current selector' cause⟩

/-- Of a haste and a hold the hold is dispelled, and the actor is free to move. -/
theorem dispel_exact_hold :
    ∃ a k, ((Engine.opened {} Engine.trialCodex 0 true 1).run
        [.enter 1, .cast 1 1, .cast 1 3]).world.get? ⟨1⟩ = some a ∧
      let o := a.bearer.dispel {} (.abnormal .paralyze) .cleanse
      Stocked Engine.trialCodex {} ⟨1⟩ 3 a.bearer k ∧
      o.bearer.list.effects.map (·.id) = [⟨1⟩] ∧ o.answer = 1 ∧
      a.bearer.status.holds = [⟨2⟩] ∧ o.bearer.status.holds = [] ∧
      (k.dispel .still {} (.abnormal .paralyze) .cleanse).Mirrors o := by
  obtain ⟨⟨k, hk⟩, -⟩ := @Engine.shelved_run ⟨1⟩ _ {} Engine.trialCodex 0 true 1
    [.enter 1, .cast 1 1, .cast 1 3] rfl
  obtain ⟨hlist, hanswer, -, -, hstatus, -, -, -, hmirrors⟩ :=
    hk.dispel_exact {} (.abnormal .paralyze) .cleanse
  refine ⟨_, k, rfl, hk, ?_, ?_, ?_, ?_, (hmirrors .still .still .all).1⟩
  · rw [hlist]
    decide +kernel
  · rw [hanswer]
    decide +kernel
  · decide +kernel
  · rw [hstatus]
    decide +kernel

end Keeper.Stocked

end StatusEffects
