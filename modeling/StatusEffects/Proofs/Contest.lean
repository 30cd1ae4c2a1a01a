import StatusEffects.Proofs.Chronicle
import Mathlib.Data.List.Induction
import Mathlib.Data.Prod.Lex

/-!
# Contests within a group

Effects that do not stack and are of one group compete: each incoming effect meets the one that has
come through so far, and only one of the two is left.  Applied one after the other, effects that
follow one rule and never refuse to start hold a contest, and the decisions made pair by pair come
to a decision over all of them: the last effect with the greatest rank is left, or simply the last
or the first, as the rule has it.

## Main definitions

* `LastGreatest`, `TieBreak.Favours` : the effect that a rule favours over a whole list.
* `Effect.Entrant`, `Bearer.Lineup` : effects that may enter a contest, and lists of them.
* `Bearer.applyEach` : effects applied one after the other.
* `Bearer.Reigns` : one effect of a bearer is the only one of its group.
* `Bearer.Loses`, `Bearer.Leads` : the two ways of losing a contest, and how a contest stands.

## Main statements

* `TieBreak.Favours.overtake`, `TieBreak.Favours.hold` : one decision between two effects.
* `Bearer.Reigns.apply_outranked`, `Bearer.Reigns.apply_outranking` : what an incoming effect makes
  of the one in place.
* `Bearer.Leads.overtake`, `Bearer.Leads.hold` : one more effect in a contest.
* `Bearer.contest_decided` : the effect that is left in the end, and what has become of the others.
-/

namespace StatusEffects

/-! ### The effect that a rule favours -/

/-- The last of the elements with the greatest rank. -/
def LastGreatest {ε α : Type} [LinearOrder α] (rank : ε → α) (es : List ε) (w : ε) : Prop :=
  ∃ before after, es = before ++ w :: after ∧
    (∀ e ∈ before, rank e ≤ rank w) ∧ ∀ e ∈ after, rank e < rank w

namespace LastGreatest

variable {ε α : Type} [LinearOrder α] {rank : ε → α} {es : List ε} {w e : ε}

theorem singleton (rank : ε → α) (w : ε) : LastGreatest rank [w] w :=
  ⟨[], [], rfl, fun _ h => (nomatch h), fun _ h => nomatch h⟩

theorem le (h : LastGreatest rank es w) (he : e ∈ es) : rank e ≤ rank w := by
  obtain ⟨before, after, rfl, hbefore, hafter⟩ := h
  rcases List.mem_append.1 he with he | he
  · exact hbefore e he
  · rcases List.mem_cons.1 he with rfl | he
    · exact le_refl _
    · exact (hafter e he).le

/-- A tie goes to the later element. -/
theorem overtake (h : LastGreatest rank es w) (hle : rank w ≤ rank e) :
    LastGreatest rank (es ++ [e]) e :=
  ⟨es, [], rfl, fun _ hx => (h.le hx).trans hle, fun _ hx => nomatch hx⟩

theorem hold (h : LastGreatest rank es w) (hlt : rank e < rank w) :
    LastGreatest rank (es ++ [e]) w := by
  obtain ⟨before, after, rfl, hbefore, hafter⟩ := h
  refine ⟨before, after ++ [e], by simp, hbefore, fun x hx => ?_⟩
  rcases List.mem_append.1 hx with hx | hx
  · exact hafter x hx
  · rw [List.mem_singleton.1 hx]
    exact hlt

end LastGreatest

/-- What counts between enchanted effects: the enchant level, and the priority where that is
equal. -/
def Params.standing (p : Params) : ℕ ×ₗ ℕ := toLex (p.enchantLevel.toNat, p.priority.toNat)

/-- The effect that a rule favours over all the effects that are applied one after the other. -/
def TieBreak.Favours (es : List Effect) (w : Effect) : TieBreak → Prop
  | .higherPriority => LastGreatest (·.params.priority.toNat) es w
  | .higherEnchant => LastGreatest (·.params.standing) es w
  | .mostRecent => es.getLast? = some w
  | .keepExisting => es.head? = some w

namespace TieBreak.Favours

open EffectList

variable {rule : TieBreak} {es : List Effect} {w e : Effect}

theorem outranks_iff_priority (hr : e.template.tieBreak = .higherPriority) :
    outranks e w = true ↔ w.params.priority.toNat ≤ e.params.priority.toNat := by
  simp [outranks, hr, UInt32.le_iff_toNat_le]

theorem outranks_iff_standing (hr : e.template.tieBreak = .higherEnchant) :
    outranks e w = true ↔ w.params.standing ≤ e.params.standing := by
  rw [Params.standing, Params.standing, Prod.Lex.toLex_le_toLex]
  simp [outranks, hr, UInt32.le_iff_toNat_le, UInt32.lt_iff_toNat_lt, ← UInt32.toNat_inj]

theorem singleton (rule : TieBreak) (w : Effect) : rule.Favours [w] w := by
  cases rule with
  | higherPriority | higherEnchant => exact LastGreatest.singleton _ w
  | mostRecent | keepExisting => rfl

/-- **An effect that wins against the favourite** is the new favourite. -/
theorem overtake (h : rule.Favours es w) (hr : e.template.tieBreak = rule)
    (wins : outranks e w = true) : rule.Favours (es ++ [e]) e := by
  cases rule with
  | higherPriority => exact LastGreatest.overtake h ((outranks_iff_priority hr).1 wins)
  | higherEnchant => exact LastGreatest.overtake h ((outranks_iff_standing hr).1 wins)
  | mostRecent => exact List.getLast?_concat
  | keepExisting => simp [outranks, hr] at wins

/-- **The favourite stays the favourite** if the next effect does not win against it. -/
theorem hold (h : rule.Favours es w) (hr : e.template.tieBreak = rule)
    (loses : ¬ outranks e w = true) : rule.Favours (es ++ [e]) w := by
  cases rule with
  | higherPriority => exact LastGreatest.hold h (not_le.1 (mt (outranks_iff_priority hr).2 loses))
  | higherEnchant => exact LastGreatest.hold h (not_le.1 (mt (outranks_iff_standing hr).2 loses))
  | mostRecent => exact absurd (by simp [outranks, hr]) loses
  | keepExisting =>
    have hfirst : es.head? = some w := h
    show (es ++ [e]).head? = some w
    rw [List.head?_append, hfirst, Option.some_or]

end TieBreak.Favours

/-! ### Entering a contest -/

namespace Effect

/-- The effect as it runs in a place of the order of application. -/
def placed (e : Effect) (n : Nat) : Effect := { e with order := n, phase := .active }

/-- An effect that may enter a contest in a group: it is yet to start, does not stack, follows the
rule of the contest, and its kind never refuses. -/
structure Entrant (group : AbnormalType) (rule : TieBreak) (e : Effect) : Prop where
  pending : e.phase = .pending
  group : e.abnormalType = group
  single : e.template.stackable = false
  rule : e.template.tieBreak = rule
  willing : e.template.kind ∈ [.buff, .debuff, .paralyze, .periodic, .marker]

namespace Entrant

variable {group : AbnormalType} {rule : TieBreak} {e : Effect}

theorem made (h : e.Entrant group rule) (p : Profile) (s : Status) :
    ∃ s', e.contribute p s = .made s' := by
  have hkind := h.willing
  simp only [List.mem_cons, List.not_mem_nil, or_false] at hkind
  rcases hkind with hkind | hkind | hkind | hkind | hkind <;> simp [contribute, hkind]

theorem competes (h : e.Entrant group rule) (grouped : group ≠ .none) :
    EffectList.competes e = true := by
  simp [EffectList.competes, h.single, h.group, grouped]

end Entrant

end Effect

namespace Bearer

open EffectList

variable {b : Bearer} {p : Profile} {settings : Settings} {group : AbnormalType} {rule : TieBreak}
  {others : List Effect} {x e : Effect}

/-- One effect of a bearer, the last in the order of application, is the only one of its group, and
it does not stack. -/
structure Reigns (group : AbnormalType) (others : List Effect) (x : Effect) (b : Bearer) :
    Prop where
  effects : b.list.effects = others ++ [x]
  alone : ∀ y ∈ others, y.abnormalType ≠ group
  keys : ∀ y ∈ others, y.id ≠ x.id
  group : x.abnormalType = group
  single : x.template.stackable = false

/-- An effect that meets no other of its group starts, if there is room, and reigns. -/
theorem apply_vacant (he : e.Entrant group rule)
    (vacant : ∀ y ∈ b.list.effects, y.abnormalType ≠ group)
    (fresh : ∀ y ∈ b.list.effects, y.id ≠ e.id)
    (room : b.list.size < settings.maxEffects.toNat) :
    ∃ b' timer, b.apply p settings e =
        ⟨b', [.started b.owner e.summary], .ok (.started e.id timer)⟩ ∧
      b'.owner = b.owner ∧
      b'.Reigns group b.list.effects (e.placed b.list.nextOrder) := by
  have hren : b.list.renewable? e = none :=
    List.find?_eq_none.2 fun y hy => by simp [renews, he.group, vacant y hy]
  have hrivals : b.list.rivals e = [] :=
    rivals_eq_nil_iff.2 fun y hy => by simp [isRival, he.group, vacant y hy]
  have hfree : ¬ settings.maxEffects.toNat ≤ b.list.size := by omega
  obtain ⟨s, hs⟩ := he.made p b.status
  have happly : b.apply p settings e = b.begin p settings e := by
    simp [apply, hren, holder?, hrivals, hfree, replace, dropAll]
  rw [happly, begin_made he.pending hs]
  exact ⟨_, _, rfl, rfl, rfl, vacant, fresh, he.group, he.single⟩

namespace Reigns

theorem activeOf (h : b.Reigns group others x) : b.list.activeOf group = [x] := by
  have hnone : others.filter (·.abnormalType == group) = [] :=
    List.filter_eq_nil_iff.2 fun y hy => by simpa using h.alone y hy
  simp [EffectList.activeOf, h.effects, hnone, h.group]

theorem get? (h : b.Reigns group others x) : b.list.get? x.id = some x := by
  have hnone : others.find? (·.id == x.id) = none :=
    List.find?_eq_none.2 fun y hy => by simpa using h.keys y hy
  simp [EffectList.get?, h.effects, hnone]

/-- Once it has ended the others are left. -/
theorem erase (h : b.Reigns group others x) :
    b.list.erase x.id = { b.list with effects := others } := by
  have hkeep : (others ++ [x]).eraseP (·.id == x.id) = others := by
    rw [List.eraseP_append_right _ fun y hy => by simpa using h.keys y hy]
    simp
  rw [EffectList.erase, h.effects, hkeep]

section Meets

variable (h : b.Reigns group others x) (he : e.Entrant group rule)

include h he

theorem rivals (grouped : group ≠ .none) : b.list.rivals e = [x.id] := by
  simp [EffectList.rivals, he.competes grouped, he.group, h.activeOf, h.single]

theorem renewable? (other : (x.template.id, x.caster) ≠ (e.template.id, e.caster)) :
    b.list.renewable? e = none := by
  refine List.find?_eq_none.2 fun y hy hrenews => ?_
  simp only [renews, he.group, Bool.and_eq_true, beq_iff_eq] at hrenews
  obtain ⟨⟨⟨-, hgroup⟩, hid⟩, hcaster⟩ := hrenews
  rw [h.effects] at hy
  rcases List.mem_append.1 hy with hy | hy
  · exact h.alone y hy hgroup
  · rw [List.mem_singleton.1 hy] at hid hcaster
    exact other (Prod.ext hid hcaster)

/-- **An effect that does not win against the one in place** is turned away, and that one is
named. -/
theorem apply_outranked (grouped : group ≠ .none)
    (other : (x.template.id, x.caster) ≠ (e.template.id, e.caster))
    (loses : ¬ outranks e x = true) :
    b.apply p settings e = ⟨b, [], .error (.outranked e.template.id x.id)⟩ := by
  have hholder : b.list.holder? e = some x.id := by
    simp [holder?, h.rivals he grouped, h.get?, loses]
  exact Bearer.apply_of_holder? (h.renewable? he other) hholder

/-- **An effect that wins against the one in place** ends it and reigns, within the same room. -/
theorem apply_outranking (grouped : group ≠ .none)
    (other : (x.template.id, x.caster) ≠ (e.template.id, e.caster))
    (wins : outranks e x = true) (fresh : ∀ y ∈ others, y.id ≠ e.id)
    (room : others.length < settings.maxEffects.toNat) :
    ∃ b' timer, b.apply p settings e =
        ⟨b', [.ended b.owner x.summary .superseded, .started b.owner e.summary],
          .ok (.started e.id timer)⟩ ∧
      b'.owner = b.owner ∧ b'.Reigns group others (e.placed b.list.nextOrder) := by
  have hholder : b.list.holder? e = none := by
    simp [holder?, h.rivals he grouped, h.get?, wins]
  have hroom : b.list.size - (b.list.rivals e).length < settings.maxEffects.toNat := by
    simp only [h.rivals he grouped, size, h.effects, List.length_append, List.length_singleton]
    omega
  have hdrop : b.dropAll .superseded [x.id] =
      (⟨{ b.list with effects := others }, b.statusWithout x⟩,
        [.ended b.owner x.summary .superseded]) := by
    simp [dropAll, drop, h.get?, h.erase]
  obtain ⟨s, hs⟩ := he.made p (b.statusWithout x)
  rw [Bearer.apply_of_room (h.renewable? he other) hholder hroom, h.rivals he grouped]
  simp only [replace, hdrop]
  rw [begin_made he.pending hs]
  exact ⟨_, _, rfl, rfl, rfl, h.alone, fresh, he.group, he.single⟩

end Meets

end Reigns

/-! ### Contests -/

/-- Effects applied one after the other, each to the profile that it finds: the bearer after them,
and what is told. -/
def applyEach (b : Bearer) (p : Effect → Profile) (settings : Settings) :
    List Effect → Bearer × List Event
  | [] => (b, [])
  | e :: rest =>
    let o := b.apply (p e) settings e
    let (b', events) := o.bearer.applyEach p settings rest
    (b', o.events ++ events)

/-- Effects that can hold a contest on a bearer: each may enter, none has the key of another or of
an effect that is there, and none would renew another. -/
structure Lineup (group : AbnormalType) (rule : TieBreak) (es : List Effect) (b : Bearer) :
    Prop where
  entrants : ∀ e ∈ es, e.Entrant group rule
  fresh : ∀ e ∈ es, ∀ x ∈ b.list.effects, x.id ≠ e.id
  keys : (es.map (·.id)).Nodup
  casts : (es.map fun e => (e.template.id, e.caster)).Nodup

/-- The ways of losing a contest, for the effect behind those in `before`. -/
inductive Loses (b : Bearer) (p : Effect → Profile) (settings : Settings) (es before : List Effect)
    (e : Effect) : Prop
  /-- It starts, and is superseded once. -/
  | superseded
      (told : history e.id (b.applyEach p settings es).2 =
        [.started b.owner e.summary, .ended b.owner e.summary .superseded])
  /-- It is turned away, with the key of the effect of its group that is active at that moment, and
  nothing changes. -/
  | outranked {b' : Bearer} {x : Effect} (reached : (b.applyEach p settings before).1 = b')
      (active : b'.list.activeOf e.abnormalType = [x])
      (rejected : b'.apply (p e) settings e = ⟨b', [], .error (.outranked e.template.id x.id)⟩)
      (untold : history e.id (b.applyEach p settings es).2 = [])

/-- How a contest stands once some effects have been applied: the favourite is the only effect of
its group, and the others have lost. -/
structure Leads (group : AbnormalType) (rule : TieBreak) (b : Bearer) (p : Effect → Profile)
    (settings : Settings) (es : List Effect) (w : Effect) : Prop where
  mem : w ∈ es
  favoured : rule.Favours es w
  owner : (b.applyEach p settings es).1.owner = b.owner
  reigns : ∃ n, (b.applyEach p settings es).1.Reigns group b.list.effects (w.placed n)
  told : history w.id (b.applyEach p settings es).2 = [.started b.owner w.summary]
  losers : ∀ before e after, es = before ++ e :: after → e.id ≠ w.id →
    b.Loses p settings es before e
  about : ∀ ev ∈ (b.applyEach p settings es).2, ev.effect.id ∈ es.map (·.id)

section Contest

variable {b' : Bearer} {p : Effect → Profile} {es before : List Effect} {w : Effect}
  {events : List Event}

theorem applyEach_snoc (b : Bearer) (p : Effect → Profile) (settings : Settings)
    (es : List Effect) (e : Effect) {o : Outcome (Except Refusal Admission)}
    (last : (b.applyEach p settings es).1.apply (p e) settings e = o) :
    b.applyEach p settings (es ++ [e]) =
      (o.bearer, (b.applyEach p settings es).2 ++ o.events) := by
  subst last
  induction es generalizing b with
  | nil => simp [applyEach]
  | cons x rest ih => simp only [List.cons_append, applyEach, ih, List.append_assoc]

theorem history_append (k : EffectId) (log more : List Event) :
    history k (log ++ more) = history k log ++ history k more :=
  List.filter_append ..

/-- What is told when one effect takes the place of another is about the two of them. -/
theorem history_exchange (k : EffectId) (id : ActorId) (x e : Effect) :
    history k [.ended id x.summary .superseded, .started id e.summary] =
      (if x.id = k then [.ended id x.summary .superseded] else []) ++
        if e.id = k then [.started id e.summary] else [] := by
  have hstart := history_snoc k [.ended id x.summary .superseded] (.started id e.summary)
  have hend := history_snoc k [] (.ended id x.summary .superseded)
  exact hstart.trans (congrArg (· ++ _) hend)

/-- A place in a list that has grown by one element is the new one, or was there before. -/
theorem split_snoc {after : List Effect} (h : es ++ [e] = before ++ x :: after) :
    (before = es ∧ x = e) ∨ ∃ after', es = before ++ x :: after' := by
  rcases List.eq_nil_or_concat after with rfl | ⟨after', y, rfl⟩
  · obtain ⟨hes, hxe⟩ := List.append_inj' h rfl
    exact .inl ⟨hes.symm, (List.singleton_inj.1 hxe).symm⟩
  · rw [List.concat_eq_append, ← List.cons_append, ← List.append_assoc] at h
    exact .inr ⟨after', (List.append_inj' h rfl).1⟩

namespace Lineup

theorem init (h : b.Lineup group rule (es ++ [e])) : b.Lineup group rule es where
  entrants x hx := h.entrants x (List.mem_append_left _ hx)
  fresh x hx := h.fresh x (List.mem_append_left _ hx)
  keys := h.keys.sublist ((List.sublist_append_left es [e]).map _)
  casts := h.casts.sublist ((List.sublist_append_left es [e]).map _)

theorem last (h : b.Lineup group rule (es ++ [e])) : e.Entrant group rule :=
  h.entrants e (by simp)

theorem key_ne (h : b.Lineup group rule (es ++ [e])) : e.id ∉ es.map (·.id) := by
  have hkeys := h.keys
  rw [List.map_append, List.nodup_append] at hkeys
  exact fun hmem => hkeys.2.2 _ hmem _ (List.mem_singleton.2 rfl) rfl

theorem cast_ne (h : b.Lineup group rule (es ++ [e])) (hx : x ∈ es) :
    (x.template.id, x.caster) ≠ (e.template.id, e.caster) := by
  have hcasts := h.casts
  rw [List.map_append, List.nodup_append] at hcasts
  exact hcasts.2.2 _ (List.mem_map_of_mem hx) _ (List.mem_singleton.2 rfl)

end Lineup

/-- What has become of an effect that has lost does not change with an effect that nothing is told
of it. -/
theorem Loses.snoc (h : b.Loses p settings es before x)
    (later : (b.applyEach p settings (es ++ [e])).2 = (b.applyEach p settings es).2 ++ events)
    (untold : history x.id events = []) : b.Loses p settings (es ++ [e]) before x := by
  have hsame : history x.id (b.applyEach p settings (es ++ [e])).2 =
      history x.id (b.applyEach p settings es).2 := by
    rw [later, history_append, untold, List.append_nil]
  cases h with
  | superseded told => exact .superseded (hsame.trans told)
  | outranked reached active rejected none =>
    exact .outranked reached active rejected (hsame.trans none)

/-- The first effect of a contest leads it. -/
theorem Lineup.leads (h : b.Lineup group rule [e])
    (vacant : ∀ y ∈ b.list.effects, y.abnormalType ≠ group)
    (room : b.list.size < settings.maxEffects.toNat) :
    Leads group rule b p settings [e] e := by
  have he := h.entrants e List.mem_cons_self
  obtain ⟨b', timer, happly, howner, hreigns⟩ :=
    apply_vacant (p := p e) he vacant (h.fresh e List.mem_cons_self) room
  have hafter : b.applyEach p settings [e] = (b', [.started b.owner e.summary]) :=
    applyEach_snoc b p settings [] e happly
  exact {
    mem := List.mem_cons_self
    favoured := .singleton rule e
    owner := by
      rw [hafter]
      exact howner
    reigns := by
      rw [hafter]
      exact ⟨b.list.nextOrder, hreigns⟩
    told := by
      rw [hafter]
      exact List.filter_eq_self.2 fun ev hev => by
        rw [List.mem_singleton.1 hev]
        exact beq_self_eq_true e.id
    losers := by
      intro before x after hsplit hne
      have hx : x ∈ [e] := hsplit ▸ List.mem_append_right before List.mem_cons_self
      exact absurd (congrArg Effect.id (List.mem_singleton.1 hx)) hne
    about := by
      rw [hafter]
      intro ev hev
      rw [List.mem_singleton.1 hev]
      exact List.mem_cons_self }

namespace Leads

variable (h : Leads group rule b p settings es w) (hl : b.Lineup group rule (es ++ [e]))
  (grouped : group ≠ .none)

include h hl

/-- Nothing has been told of the next effect. -/
theorem untold : history e.id (b.applyEach p settings es).2 = [] := by
  refine List.filter_eq_nil_iff.2 fun ev hev hid => hl.key_ne ?_
  rw [← beq_iff_eq.1 hid]
  exact h.about ev hev

include grouped

/-- **An effect that wins against the leader** supersedes it and leads. -/
theorem overtake (wins : EffectList.outranks e w = true)
    (room : b.list.size < settings.maxEffects.toNat) :
    Leads group rule b p settings (es ++ [e]) e := by
  have he := hl.last
  have hwe : w.id ≠ e.id := fun hid => hl.key_ne (hid ▸ List.mem_map_of_mem h.mem)
  obtain ⟨n, hreigns⟩ := h.reigns
  have hcast : ((w.placed n).template.id, (w.placed n).caster) ≠ (e.template.id, e.caster) :=
    hl.cast_ne (x := w) h.mem
  obtain ⟨b', timer, happly, howner, hreigns'⟩ :=
    hreigns.apply_outranking (p := p e) he grouped hcast wins (hl.fresh e (by simp)) room
  rw [h.owner] at happly howner
  have hafter : b.applyEach p settings (es ++ [e]) = (b', (b.applyEach p settings es).2 ++
      [.ended b.owner w.summary .superseded, .started b.owner e.summary]) :=
    applyEach_snoc b p settings es e happly
  exact {
    mem := List.mem_append_right es List.mem_cons_self
    favoured := h.favoured.overtake he.rule wins
    owner := by
      rw [hafter]
      exact howner
    reigns := by
      rw [hafter]
      exact ⟨(b.applyEach p settings es).1.list.nextOrder, hreigns'⟩
    told := by
      rw [hafter]
      simp only [history_append, h.untold hl, history_exchange, if_neg hwe, if_true,
        List.nil_append]
    losers := by
      intro before x after hsplit hne
      rcases split_snoc hsplit with ⟨-, rfl⟩ | ⟨after', rfl⟩
      · exact absurd rfl hne
      by_cases hxw : x.id = w.id
      · -- the leader so far is the one that is superseded now
        obtain rfl : x = w := List.inj_on_of_nodup_map hl.init.keys (by simp) h.mem hxw
        refine .superseded ?_
        rw [hafter]
        simp only [history_append, h.told, history_exchange, if_true, if_neg hne.symm,
          List.append_nil]
        rfl
      · refine (h.losers before x after' rfl hxw).snoc (congrArg Prod.snd hafter) ?_
        rw [history_exchange, if_neg (Ne.symm hxw), if_neg hne.symm, List.append_nil]
    about := by
      rw [hafter]
      intro ev hev
      rw [List.map_append]
      rcases List.mem_append.1 hev with hev | hev
      · exact List.mem_append_left _ (h.about ev hev)
      · simp only [List.mem_cons, List.not_mem_nil, or_false] at hev
        rcases hev with rfl | rfl
        · exact List.mem_append_left _ (List.mem_map_of_mem (f := (·.id)) h.mem)
        · exact List.mem_append_right _ List.mem_cons_self }

/-- **The leader goes on to lead** if the next effect does not win against it. -/
theorem hold (loses : ¬ EffectList.outranks e w = true) :
    Leads group rule b p settings (es ++ [e]) w := by
  have he := hl.last
  obtain ⟨n, hreigns⟩ := h.reigns
  have hcast : ((w.placed n).template.id, (w.placed n).caster) ≠ (e.template.id, e.caster) :=
    hl.cast_ne (x := w) h.mem
  have happly : (b.applyEach p settings es).1.apply (p e) settings e =
      ⟨_, [], .error (.outranked e.template.id (w.placed n).id)⟩ :=
    hreigns.apply_outranked he grouped hcast loses
  have hafter : b.applyEach p settings (es ++ [e]) = b.applyEach p settings es := by
    rw [applyEach_snoc b p settings es e happly, List.append_nil]
  exact {
    mem := List.mem_append_left _ h.mem
    favoured := h.favoured.hold he.rule loses
    owner := by
      rw [hafter]
      exact h.owner
    reigns := by
      rw [hafter]
      exact ⟨n, hreigns⟩
    told := by
      rw [hafter]
      exact h.told
    losers := by
      intro before x after hsplit hne
      rcases split_snoc hsplit with ⟨rfl, rfl⟩ | ⟨after', rfl⟩
      · refine .outranked rfl (he.group ▸ hreigns.activeOf) happly ?_
        rw [hafter]
        exact h.untold hl
      · have hsame := (congrArg Prod.snd hafter).trans (List.append_nil _).symm
        exact (h.losers before x after' rfl hne).snoc hsame rfl
    about := by
      rw [hafter]
      intro ev hev
      rw [List.map_append]
      exact List.mem_append_left _ (h.about ev hev) }

end Leads

/-- Every contest has a leader. -/
theorem Lineup.exists_leads (h : b.Lineup group rule es) (grouped : group ≠ .none)
    (vacant : ∀ y ∈ b.list.effects, y.abnormalType ≠ group)
    (room : b.list.size < settings.maxEffects.toNat) (nonempty : es ≠ []) :
    ∃ w, Leads group rule b p settings es w := by
  induction es using List.reverseRecOn with
  | nil => exact absurd rfl nonempty
  | append_singleton es e ih =>
    by_cases hes : es = []
    · subst hes
      exact ⟨e, h.leads vacant room⟩
    · obtain ⟨w, hw⟩ := ih h.init hes
      by_cases wins : EffectList.outranks e w = true
      · exact ⟨e, hw.overtake h grouped wins room⟩
      · exact ⟨w, hw.hold h grouped wins⟩

/-- **A contest is decided by its rule.**  A bearer has no effect of a group and room for one more.
Effects of the group that follow one rule and never refuse are applied to it one after the other.
In the end one effect of the group is left, the one that the rule favours over them all: it has
started, and nothing else is told of it.  Every other effect has started and been superseded once,
or it has been turned away with the key of the effect of its group that was active then. -/
theorem contest_decided (b : Bearer) (p : Effect → Profile) (settings : Settings)
    {group : AbnormalType} {rule : TieBreak} {es : List Effect} (grouped : group ≠ .none)
    (vacant : b.list.activeOf group = []) (room : b.list.size < settings.maxEffects.toNat)
    (nonempty : es ≠ []) (lineup : b.Lineup group rule es) :
    let final := (b.applyEach p settings es).1
    let told := (b.applyEach p settings es).2
    ∃ w ∈ es, rule.Favours es w ∧
      (∃ n, final.list.activeOf group = [w.placed n] ∧
        final.list.effects = b.list.effects ++ [w.placed n]) ∧
      history w.id told = [.started b.owner w.summary] ∧
      ∀ before e after, es = before ++ e :: after → e.id ≠ w.id →
        b.Loses p settings es before e := by
  intro final told
  have halone : ∀ y ∈ b.list.effects, y.abnormalType ≠ group := fun y hy => by
    simpa using List.filter_eq_nil_iff.1 vacant y hy
  obtain ⟨w, hw⟩ := lineup.exists_leads (p := p) grouped halone room nonempty
  obtain ⟨n, hreigns⟩ := hw.reigns
  exact ⟨w, hw.mem, hw.favoured, ⟨n, hreigns.activeOf, hreigns.effects⟩, hw.told, hw.losers⟩

/-- A template of a group with a priority. -/
def trialTemplate (id : TemplateId) (group : AbnormalType) (priority : UInt32) : Template where
  id
  name := "Trial"
  skill := ⟨1⟩
  kind := .buff
  abnormalType := group
  priority

/-- A cast of such a template. -/
def trialCast (key : Nat) (group : AbnormalType) (priority : UInt32) : Effect :=
  .ofCast ⟨key⟩ (trialTemplate ⟨.ofNat key⟩ group priority) ⟨1⟩ ⟨1⟩ none

/-- Of four casts the third is left on a bearer with an effect of another group: it is the later one
of the two with the greatest priority. The first has been superseded and the fourth turned away. -/
theorem contest_decided_speed :
    let b : Bearer := ⟨⟨⟨1⟩, [(trialCast 0 .paralyze 0).placed 0], 1⟩, {}⟩
    let p : Effect → Profile := fun _ => { id := ⟨1⟩ }
    let es := [trialCast 1 .speedUp 5, trialCast 2 .speedUp 7, trialCast 3 .speedUp 7,
      trialCast 4 .speedUp 6]
    ∃ w n, w ∈ es ∧ w.id = ⟨3⟩ ∧ TieBreak.higherPriority.Favours es w ∧
      (b.applyEach p {} es).1.list.effects = b.list.effects ++ [w.placed n] ∧
      b.Loses p {} es [] (trialCast 1 .speedUp 5) ∧
      b.Loses p {} es (es.take 3) (trialCast 4 .speedUp 6) := by
  intro b p es
  have hlineup : b.Lineup .speedUp .higherPriority es :=
    { entrants := by
        intro e he
        simp only [es, List.mem_cons, List.not_mem_nil, or_false] at he
        rcases he with rfl | rfl | rfl | rfl <;>
          exact ⟨rfl, rfl, rfl, rfl, List.mem_cons_self⟩
      fresh := by decide
      keys := by decide
      casts := by decide }
  have hleft : (b.applyEach p {} es).1.list.effects.map (·.id) = [⟨0⟩, ⟨3⟩] := by
    decide +kernel
  have hsome : es ≠ [] := List.cons_ne_nil _ _
  obtain ⟨w, hw, hfavours, ⟨n, -, heffects⟩, -, hlosers⟩ :=
    contest_decided b p {} (by decide) rfl (by decide) hsome hlineup
  have hid : w.id = ⟨3⟩ := by
    rw [heffects] at hleft
    exact (List.cons.inj (List.cons.inj hleft).2).1
  have hfirst : (trialCast 1 .speedUp 5).id ≠ w.id := by
    rw [hid]
    decide
  have hlast : (trialCast 4 .speedUp 6).id ≠ w.id := by
    rw [hid]
    decide
  exact ⟨w, n, hw, hid, hfavours, heffects, hlosers [] _ _ rfl hfirst,
    hlosers (es.take 3) _ [] rfl hlast⟩

end Contest

end Bearer

end StatusEffects
