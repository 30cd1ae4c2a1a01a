import StatusEffects.Proofs.Advance
import StatusEffects.Proofs.Upshot

/-!
# What happens unbidden

Of their own accord effects tick and expire, and that is all that becomes of the effects of an actor
as long as no request is aimed at them.  It is so whatever is done to other actors, and also if the
actor itself is revived or gets another profile.

## Main definitions

* `Event.isUnbidden` : the events that come about by themselves.
* `Engine.Op.aimsAt`, `Engine.Op.restores` : the requests that are aimed at the effects of an actor,
  and those that may bring it back.
* `Engine.Ages` : the effects of an actor have at most ticked and ended.

## Main statements

* `Engine.Ages.perform` : requests that are not for an actor let its effects age.
* `Engine.Ages.run` : runs of requests that let them age.
* `Engine.Ages.unbidden` : what becomes of effects that no request is aimed at.
-/

namespace StatusEffects

/-- Whether an event comes about by itself. -/
def Event.isUnbidden : Event → Bool
  | .ticked _ _ _ => true
  | .ended _ _ reason => reason == .expired
  | .started _ _ | .refreshed _ _ => false

namespace World

variable {w : World} {k : ActorId}

theorem get?_spawn_of_ne {p : Profile} (h : k ≠ p.id) : (w.spawn p).get? k = w.get? k := by
  cases found : w.get? p.id with
  | none => rw [get?_spawn_new found, if_neg h]
  | some a =>
    rw [spawn_known found]
    exact get?_modify_of_ne (fun _ _ => rfl) h

end World

namespace Bearer

variable {b : Bearer} {settings : Settings} {t : Timer} {ev : Event}

/-- What is told of a timer comes about by itself. -/
theorem isUnbidden_fire (h : ev ∈ (b.fire settings t).events) : ev.isUnbidden = true := by
  cases found : b.list.get? t.effect with
  | none =>
    rw [fire_of_get?_none found] at h
    cases h
  | some e =>
    rw [fire_of_get? found] at h
    have hreply : ∀ r : Reply, ∀ ev ∈ r.events b.owner e, ev.isUnbidden = true := fun r => by
      cases r <;> simp [Reply.events, Event.isUnbidden]
    exact hreply _ ev h

end Bearer

namespace Engine

open Bearer

variable {g g' g₁ : Engine} {a k : ActorId} {c : Actor} {t : Template} {r : Request}
  {op : Op} {w : World} {b : Bearer} {events : List Event} {asked : Option Timer} {moment : Nat}
  {p : Profile → Prop} {q : Event → Prop}

/-! ### Actors brought to death or to life -/

/-- An actor is registered, under a profile of some sort. -/
def Registers (g : Engine) (a : ActorId) (p : Profile → Prop) : Prop :=
  ∃ c, g.world.get? a = some c ∧ p c.profile

theorem Registers.congr (hp : g.Registers a p) (h : g'.world.get? a = g.world.get? a) :
    g'.Registers a p := by
  obtain ⟨c, found, hprofile⟩ := hp
  exact ⟨c, h.trans found, hprofile⟩

/-- An engine with an actor brought to death or to life, and its effects left to it. -/
def animated (g : Engine) (k : ActorId) (alive : Bool) : Engine :=
  { g with world := g.world.modifyProfile k fun p => { p with alive } }

theorem get?_animated_self (found : g.world.get? a = some c) (alive : Bool) :
    (g.animated a alive).world.get? a =
      some { c with profile := { c.profile with alive } } := by
  simp only [animated]
  rw [World.get?_modifyProfile_self (f := fun p => { p with alive }) fun _ hp => hp, found,
    Option.map_some]

theorem get?_animated_of_ne (h : a ≠ k) (alive : Bool) :
    (g.animated k alive).world.get? a = g.world.get? a :=
  World.get?_modify_of_ne (fun _ ha => ha) h

theorem bearer?_animated (alive : Bool) :
    (g.animated k alive).world.bearer? a = g.world.bearer? a :=
  World.bearer?_modifyProfile fun _ hp => hp

theorem Sound.animated (hg : g.Sound) (k : ActorId) (alive : Bool) : (g.animated k alive).Sound :=
  hg.step (.profile g fun _ hp => hp)

theorem death_eq (found : g.world.get? a = some c) :
    g.death a = (g.animated a false).dispelFor a .all .death := by
  simp only [death, World.contains, found, Option.isSome_some, if_true]
  rfl

/-! ### Aging -/

/-- The effects of an actor have at most ticked and ended, what has been told of it are events of some
sort, and it is registered, under a profile of some sort. -/
structure Ages (p : Profile → Prop) (q : Event → Prop) (a : ActorId) (g g' : Engine) : Prop where
  registers : g'.Registers a p
  turns : ∀ b', g'.world.bearer? a = some b' →
    ∃ b events, g.world.bearer? a = some b ∧ b.Turns events b'
  told : ∃ more, g'.feed.journal.toList = g.feed.journal.toList ++ more ∧
    ∀ s ∈ more, s.event.actor = a → q s.event

/-- What neither tells anything nor concerns what an actor bears. -/
theorem ages_of_bearer? (registers : g'.Registers a p) (feed : g'.feed = g.feed)
    (bearer : g'.world.bearer? a = g.world.bearer? a) : Ages p q a g g' where
  registers := registers
  turns b' hb' := ⟨b', [], bearer ▸ hb', .nil b'⟩
  told := ⟨[], by rw [feed, List.append_nil], fun _ hs => nomatch hs⟩

/-- An operation on another actor. -/
theorem Upshot.ages_of_ne (hu : Upshot k w events asked moment g g') (hk : k ≠ a)
    (world : w.get? a = g.world.get? a) (hp : g.Registers a p) : Ages p q a g g' where
  registers := hp.congr (hu.world ▸ world)
  turns b' hb' := by
    rw [hu.world, World.bearer?, world] at hb'
    exact ⟨b', [], hb', .nil b'⟩
  told := by
    refine ⟨events.map (.mk moment), by rw [hu.feed, Feed.journal_publishAll], fun s hs ha => ?_⟩
    obtain ⟨ev, hev, rfl⟩ := List.mem_map.1 hs
    exact absurd ((hu.about ev hev).symm.trans ha) hk

/-- An operation on the running effects of the actor. -/
theorem Upshot.ages_self (hu : Upshot a (g.world.setBearer a b) events asked moment g g')
    (turns : ∀ c, g.world.get? a = some c → c.bearer.Turns events b)
    (mere : ∀ ev ∈ events, q ev) (hp : g.Registers a p) : Ages p q a g g' := by
  obtain ⟨c, found, hprofile⟩ := hp
  refine ⟨⟨{ c with bearer := b }, ?_, hprofile⟩, fun b' hb' => ?_, events.map (.mk moment), ?_,
    fun s hs _ => ?_⟩
  · rw [hu.world, World.get?_setBearer_self found]
  · rw [hu.world, World.bearer?_setBearer found, if_pos rfl] at hb'
    obtain rfl := Option.some.inj hb'
    exact ⟨c.bearer, events, World.bearer?_of_get? found, turns c found⟩
  · rw [hu.feed, Feed.journal_publishAll]
  · obtain ⟨ev, hev, rfl⟩ := List.mem_map.1 hs
    exact mere ev hev

namespace Ages

theorem trans (h : Ages p q a g g₁) (h' : Ages p q a g₁ g') : Ages p q a g g' where
  registers := h'.registers
  turns b' hb' := by
    obtain ⟨b₁, others, hb₁, hturns'⟩ := h'.turns b' hb'
    obtain ⟨b, events, hb, hturns⟩ := h.turns b₁ hb₁
    exact ⟨b, events ++ others, hb, hturns.append hturns'⟩
  told := by
    obtain ⟨more, hmore, htold⟩ := h.told
    obtain ⟨more', hmore', htold'⟩ := h'.told
    refine ⟨more ++ more', by rw [hmore', hmore, List.append_assoc], fun s hs => ?_⟩
    exact (List.mem_append.1 hs).elim (htold s) (htold' s)

/-- A change that leaves the actor alone. -/
theorem quiet (hp : g.Registers a p) (feed : g'.feed = g.feed)
    (actor : g'.world.get? a = g.world.get? a) : Ages p q a g g' :=
  ages_of_bearer? (hp.congr actor) feed (by simp only [World.bearer?, actor])

theorem refl (hp : g.Registers a p) : Ages p q a g g := quiet hp rfl rfl

/-! ### Requests for other actors -/

theorem applyTemplate (hg : g.Sound) (hp : g.Registers a p) (known : t ∈ g.codex.templates)
    (hk : r.target ≠ a) : Ages p q a g (g.applyTemplate t r).1 := by
  cases passed : g.gate t r with
  | error refusal =>
    rw [applyTemplate_of_error passed]
    exact refl hp
  | ok c =>
    exact (upshot_applyTemplate hg known passed).ages_of_ne hk
      (World.get?_setBearer_of_ne hk.symm) hp

theorem applyEach (hg : g.Sound) (hp : g.Registers a p) (caster : ActorId) (hk : k ≠ a)
    (skill : Skill) (ts : List Template) (known : ∀ t ∈ ts, t ∈ g.codex.templates) :
    Ages p q a g (g.applyEach caster k skill ts).1 := by
  induction ts generalizing g with
  | nil => exact refl hp
  | cons t rest ih =>
    have ht := known t List.mem_cons_self
    let r : Request := ⟨t.id, caster, k, some skill, .zero⟩
    have hfirst : Ages p q a g (g.applyTemplate t r).1 := applyTemplate hg hp ht hk
    refine hfirst.trans (ih (hg.steps (steps_applyTemplate hg ht)) hfirst.registers fun u hu => ?_)
    rw [codex_applyTemplate]
    exact known u (List.mem_cons_of_mem _ hu)

theorem dispelFor (hg : g.Sound) (hp : g.Registers a p) (hk : k ≠ a) (selector : Selector)
    (cause : Cause) : Ages p q a g (g.dispelFor k selector cause).1 := by
  cases found : g.world.get? k with
  | none =>
    rw [dispelFor_of_absent found]
    exact refl hp
  | some c =>
    exact (upshot_dispelFor hg found selector cause).ages_of_ne hk
      (World.get?_setBearer_of_ne hk.symm) hp

theorem remove (hg : g.Sound) (hp : g.Registers a p) (hk : k ≠ a) :
    Ages p q a g (g.remove k).1 := by
  cases found : g.world.get? k with
  | none =>
    rw [remove_of_absent found]
    exact refl hp
  | some c =>
    refine (upshot_remove hg found).ages_of_ne hk ?_ hp
    rw [World.get?_remove, if_neg hk.symm]

theorem animated (hp : g.Registers a p) (hk : k ≠ a) (alive : Bool) :
    Ages p q a g (g.animated k alive) :=
  quiet hp rfl (get?_animated_of_ne hk.symm alive)

theorem death (hg : g.Sound) (hp : g.Registers a p) (hk : k ≠ a) :
    Ages p q a g (g.death k).1 := by
  cases found : g.world.get? k with
  | none =>
    simp only [Engine.death, World.contains, found, Option.isSome_none, Bool.false_eq_true,
      if_false]
    exact refl hp
  | some c =>
    have hanimated : Ages p q a g (g.animated k false) := animated hp hk false
    rw [death_eq found]
    exact hanimated.trans (dispelFor (hg.animated k false) hanimated.registers hk _ _)

/-! ### Time -/

section Time

variable (hq : ∀ ev : Event, ev.isUnbidden = true → q ev)

include hq

theorem fire (hg : g.Sound) (hp : g.Registers a p) (x : Entry) : Ages p q a g (g.fire x) := by
  have hu := upshot_fire hg x
  by_cases hk : x.timer.actor = a
  · obtain ⟨c, found, hprofile⟩ := hp
    rw [World.fire_of_get? (hk ▸ found), hk] at hu
    refine hu.ages_self (fun c' found' => ?_) (fun ev hev => hq ev (isUnbidden_fire hev))
      ⟨c, found, hprofile⟩
    obtain rfl := Option.some.inj (found.symm.trans found')
    exact turns_fire _ _ _
  · exact hu.ages_of_ne hk (World.get?_fire_of_ne (Ne.symm hk)) hp

theorem fires (hg : g.Sound) (hp : g.Registers a p) (es : List Entry) :
    Ages p q a g (es.foldl Engine.fire g) := by
  induction es generalizing g with
  | nil => exact refl hp
  | cons x rest ih =>
    have hfirst := fire hq hg hp x
    exact hfirst.trans (ih (hg.steps (steps_fire g x)) hfirst.registers)

theorem drainDue (hg : g.Sound) (hp : g.Registers a p) (max : Nat) :
    Ages p q a g (g.drainDue max).1 := by
  have htake : Ages p q a g { g with queue := (g.queue.popDue g.now max).1 } := quiet hp rfl rfl
  refine htake.trans (fires hq ?_ htake.registers _)
  exact hg

theorem fireAll (hg : g.Sound) (hp : g.Registers a p) (deadline n fuel : Nat) :
    Ages p q a g (g.fireAll deadline n fuel).1 := by
  induction fuel generalizing g n with
  | zero => exact refl hp
  | succ fuel ih =>
    cases due : g.queue.pop deadline with
    | mk queue found =>
      cases found with
      | none =>
        rw [fireAll_of_none due]
        exact refl hp
      | some x =>
        rw [fireAll_of_some due]
        have htake : Ages p q a g { g with queue, clock := g.clock.advanceTo x.due } :=
          quiet hp rfl rfl
        have hnext : Ages p q a g (g.fireNext queue x) := by
          refine htake.trans (fire hq ?_ htake.registers x)
          exact hg
        have hsteps := steps_acts (s := (g, [])) hg (acts_fireNext due)
        exact hnext.trans (ih (hg.steps hsteps) hnext.registers (n + 1))

theorem advanceTo (hg : g.Sound) (hp : g.Registers a p) (deadline : Nat) :
    Ages p q a g (g.advanceTo deadline).1 := by
  have hfire := fireAll hq hg hp deadline 0 (g.timersUpTo deadline)
  exact hfire.trans (quiet hfire.registers rfl rfl)

end Time

end Ages

/-! ### Runs -/

/-- Whether a request is aimed at the effects of an actor. -/
def Op.aimsAt (a : ActorId) : Op → Bool
  | .apply r => r.target == a
  | .applySkill _ k _ | .dispel k _ | .cancelBuff _ k _ | .death k | .remove k => k == a
  | .spawn _ | .locate _ | .revive _ | .setClock _ | .pass _ | .advanceTo _ | .drainDue _ => false

/-- Whether a request may bring an actor back: it revives, registers or removes the actor. -/
def Op.restores (a : ActorId) : Op → Bool
  | .spawn p => p.id == a
  | .revive k | .remove k => k == a
  | .locate _ | .apply _ | .applySkill _ _ _ | .dispel _ _ | .cancelBuff _ _ _ | .death _
  | .setClock _ | .pass _ | .advanceTo _ | .drainDue _ => false

namespace Ages

/-- **Requests that are not for an actor let its effects age**, as time does. -/
theorem perform (hq : ∀ ev : Event, ev.isUnbidden = true → q ev) (hg : g.Sound)
    (hp : g.Registers a p) (unaimed : op.aimsAt a = false) (unrestored : op.restores a = false) :
    Ages p q a g (g.perform op) := by
  cases op with
  | spawn profile =>
    have hk : a ≠ profile.id := Ne.symm (beq_eq_false_iff_ne.1 unrestored)
    exact quiet hp rfl (World.get?_spawn_of_ne hk)
  | revive k => exact animated hp (beq_eq_false_iff_ne.1 unrestored) true
  | remove k => exact remove hg hp (beq_eq_false_iff_ne.1 unaimed)
  | locate | setClock | pass => exact quiet hp rfl rfl
  | apply r =>
    simp only [Engine.perform, Engine.apply]
    cases known : g.codex.get? r.template with
    | none => exact refl hp
    | some t =>
      exact applyTemplate hg hp (List.mem_of_find?_eq_some known) (beq_eq_false_iff_ne.1 unaimed)
  | applySkill caster k skill =>
    exact applyEach hg hp caster (beq_eq_false_iff_ne.1 unaimed) skill _ fun t ht =>
      List.mem_of_mem_filter ht
  | dispel k selector => exact dispelFor hg hp (beq_eq_false_iff_ne.1 unaimed) selector .cleanse
  | cancelBuff requester k skill =>
    simp only [Engine.perform, cancelBuff]
    split_ifs
    · exact dispelFor hg hp (beq_eq_false_iff_ne.1 unaimed) _ _
    · exact refl hp
  | death k => exact death hg hp (beq_eq_false_iff_ne.1 unaimed)
  | advanceTo deadline => exact advanceTo hq hg hp deadline.toNat
  | drainDue max => exact drainDue hq hg hp max.toNat

theorem run {ops : List Op} (hg : g.Sound) (hp : g.Registers a p)
    (h : ∀ op ∈ ops, ∀ g : Engine, g.Sound → g.Registers a p → Ages p q a g (g.perform op)) :
    Ages p q a g (g.run ops) := by
  induction ops generalizing g with
  | nil => exact refl hp
  | cons op rest ih =>
    have hfirst := h op List.mem_cons_self g hg hp
    refine hfirst.trans (ih (sound_run hg [op]) hfirst.registers fun u hu => ?_)
    exact h u (List.mem_cons_of_mem op hu)

/-- **Effects that no request is aimed at tick and expire**, and nothing else becomes of them, even
if their actor is revived or gets another profile. -/
theorem unbidden {ops : List Op} (hg : g.Sound) (registered : g.Registers a fun _ => True)
    (unaimed : ∀ op ∈ ops, op.aimsAt a = false) :
    Ages (fun _ => True) (·.isUnbidden = true) a g (g.run ops) := by
  refine run hg registered fun op hop g hg hp => ?_
  have hop := unaimed op hop
  cases restores : op.restores a with
  | false => exact perform (fun _ h => h) hg hp hop restores
  | true =>
    obtain ⟨c, found, -⟩ := hp
    cases op with
    | spawn profile =>
      obtain rfl := beq_iff_eq.1 restores
      have hspawn : (g.spawn profile).world = g.world.modifyProfile profile.id fun _ => profile :=
        World.spawn_known found
      refine ages_of_bearer? ⟨{ c with profile }, ?_, trivial⟩ rfl ?_
      · rw [Engine.perform, hspawn, World.get?_modifyProfile_self fun _ _ => rfl, found,
          Option.map_some]
      · rw [Engine.perform, hspawn, World.bearer?_modifyProfile fun _ _ => rfl]
    | revive k =>
      obtain rfl := beq_iff_eq.1 restores
      exact ages_of_bearer? ⟨_, get?_animated_self found true, trivial⟩ rfl (bearer?_animated true)
    | remove k => cases (restores.symm.trans hop : true = false)
    | _ => cases restores

end Ages

end Engine

end StatusEffects
