import StatusEffects.Engine.View
import StatusEffects.Proofs.Agenda
import StatusEffects.Proofs.Upshot

/-!
# Engines that are the same but for one actor

All actors of an engine share its clock, its queue of timers, its keys for effects and its feed.  Two
engines are the same but for an actor if nobody who leaves that actor out of sight can tell them
apart: the profiles are the same, the others bear the same, what has been published about them is the
same, and their timers are due at the same moments in the same order, whatever numbers they have in
the queue.  An operation that comes to the same on both sides keeps them so, and so does one that
concerns the actor.

## Main definitions

* `TimerQueue.besides` : timers without those of one actor.
* `World.SameBut`, `Engine.SameBut` : worlds and engines that are the same but for one actor.
* `Engine.told`, `Engine.heard` : what has been published about an actor, and about all but one.

## Main statements

* `TimerQueue.besides_settled` : the timers of the others after an operation.
* `Engine.SameBut.upshot_self` : an operation on the actor goes unnoticed.
* `Engine.SameBut.upshot` : operations keep engines the same but for one actor.
* `Engine.SameBut.gate` : a request passes the gate of both or of none.
-/

namespace StatusEffects

/-! ### Timers of the others -/

namespace TimerQueue

open Engine (place settled cancelEnded sound_cancelEnded)

variable {q q' : TimerQueue} {a : ActorId} {e : Entry} {es fs : List Entry} {t : Timer}
  {due now moment : Nat} {events events' : List Event} {asked asked' : Option Timer}

/-- The timers of all actors but one, with the moments they are due. -/
def besides (a : ActorId) (es : List Entry) : List (Nat × Timer) :=
  (es.filter (·.timer.actor != a)).map place

theorem besides_append (es fs : List Entry) :
    besides a (es ++ fs) = besides a es ++ besides a fs := by
  unfold besides
  rw [List.filter_append, List.map_append]

theorem besides_cons_self (he : e.timer.actor = a) : besides a (e :: es) = besides a es := by
  unfold besides
  rw [List.filter_cons_of_neg (by simpa using he)]

theorem besides_cons_of_ne (he : e.timer.actor ≠ a) :
    besides a (e :: es) = place e :: besides a es := by
  unfold besides
  rw [List.filter_cons_of_pos (by simpa using he), List.map_cons]

/-- What can be asked of a timer and its moment may be asked before or after. -/
theorem besides_filter (p : Nat × Timer → Bool) (es : List Entry) :
    besides a (es.filter fun x => p (place x)) = (besides a es).filter p := by
  unfold besides
  rw [List.filter_map, List.filter_filter, List.filter_filter]
  refine congrArg (List.map place) (List.filter_congr fun x _ => ?_)
  rw [Function.comp_apply, Bool.and_comm]

theorem mem_besides {p : Nat × Timer} :
    p ∈ besides a es ↔ p.2.actor ≠ a ∧ ∃ x ∈ es, place x = p := by
  unfold besides
  simp only [List.mem_map, List.mem_filter, bne_iff_ne]
  constructor
  · rintro ⟨x, ⟨hx, hactor⟩, rfl⟩
    exact ⟨hactor, x, hx, rfl⟩
  · rintro ⟨hactor, x, hx, rfl⟩
    exact ⟨x, ⟨hx, hactor⟩, rfl⟩

/-- Entries in firing order are in no other order. -/
theorem eq_of_perm_ordered (hes : es.Pairwise fun x y => x.before y = true)
    (hfs : fs.Pairwise fun x y => x.before y = true) (h : es.Perm fs) : es = fs := by
  refine List.Perm.eq_of_pairwise (fun x y _ _ hxy hyx => ?_) hes hfs h
  rw [Entry.before_iff] at hxy hyx
  omega

/-- A timer that is scheduled is pending behind all those that are due no later. -/
theorem pending_schedule (hq : q.Sound) (t : Timer) (due : Nat) :
    let kept := q.pending.filter (·.key != (t.actor, t.effect))
    (q.schedule t due).pending = kept.filter (fun x => decide (x.due ≤ due)) ++
      q.scheduled t due :: kept.filter (fun x => !decide (x.due ≤ due)) := by
  intro kept
  have hkept : kept.Pairwise fun x y => x.before y = true :=
    (pairwise_pending hq).sublist List.filter_sublist
  have hlate : ∀ x ∈ kept.filter (fun x => !decide (x.due ≤ due)), due < x.due := by
    intro x hx
    simpa using List.of_mem_filter hx
  have hearly : ∀ x ∈ kept.filter (fun x => decide (x.due ≤ due)),
      x.due ≤ due ∧ x.seq < q.nextSeq := by
    intro x hx
    have hfresh := hq.fresh x (List.mem_of_mem_filter (List.mem_of_mem_filter
      (List.mem_of_mem_filter hx)))
    exact ⟨by simpa using List.of_mem_filter hx, hfresh⟩
  -- both sides are in firing order, so it is enough that they hold the same entries
  refine eq_of_perm_ordered (pairwise_pending (hq.schedule t due)) ?_ ?_
  · refine List.pairwise_append.2 ⟨hkept.sublist List.filter_sublist,
      List.pairwise_cons.2 ⟨fun y hy => ?_, hkept.sublist List.filter_sublist⟩, fun x hx y hy => ?_⟩
    · exact Entry.before_iff.2 (.inl (hlate y hy))
    · obtain ⟨hdue, hseq⟩ := hearly x hx
      rw [Entry.before_iff]
      rcases List.mem_cons.1 hy with rfl | hy
      · simp only [scheduled]
        omega
      · have hy := hlate y hy
        omega
  · have hsplit : (kept.filter (fun x => decide (x.due ≤ due)) ++
        kept.filter (fun x => !decide (x.due ≤ due))).Perm kept := List.filter_append_perm _ _
    exact (perm_pending_schedule hq t due).trans
      ((hsplit.symm.cons _).trans List.perm_middle.symm)

/-- A timer of another actor finds its place among the others by the moment it is due. -/
theorem besides_schedule (hq : q.Sound) (ht : t.actor ≠ a) (due : Nat) :
    let kept := (besides a q.pending).filter (·.2.key != t.key)
    besides a (q.schedule t due).pending = kept.filter (fun p => decide (p.1 ≤ due)) ++
      (due, t) :: kept.filter (fun p => !decide (p.1 ≤ due)) := by
  intro kept
  have hkept : besides a (q.pending.filter (·.key != (t.actor, t.effect))) = kept :=
    besides_filter (·.2.key != t.key) _
  have hearly := besides_filter (a := a) (fun p => decide (p.1 ≤ due))
    (q.pending.filter (·.key != (t.actor, t.effect)))
  have hlate := besides_filter (a := a) (fun p => !decide (p.1 ≤ due))
    (q.pending.filter (·.key != (t.actor, t.effect)))
  rw [hkept] at hearly hlate
  rw [pending_schedule hq, besides_append, besides_cons_of_ne ht]
  exact congrArg₂ _ hearly (congrArg _ hlate)

/-- A timer of the actor leaves the others in their order. -/
theorem besides_schedule_self (hq : q.Sound) (ht : t.actor = a) (due : Nat) :
    besides a (q.schedule t due).pending = besides a q.pending := by
  refine congrArg (List.map place) (eq_of_perm_ordered ?_ ?_ ?_)
  · exact (pairwise_pending (hq.schedule t due)).sublist List.filter_sublist
  · exact (pairwise_pending hq).sublist List.filter_sublist
  · have hperm := (perm_pending_schedule hq t due).filter (·.timer.actor != a)
    rw [List.filter_cons_of_neg (by simp [scheduled, ht]), List.filter_filter] at hperm
    refine hperm.trans (.of_eq (List.filter_congr fun x _ => ?_))
    by_cases hx : x.timer.actor = a
    · simp [hx]
    · have hkey : x.key ≠ (t.actor, t.effect) := fun h => hx ((congrArg Prod.fst h).trans ht)
      simp [hkey]

/-- The ends that are told strike out the timers of their effects. -/
theorem besides_cancelEnded (hq : q.Sound) (events : List Event) :
    besides a (cancelEnded q events).pending = (besides a q.pending).filter fun p =>
      events.all fun ev => !(ev.endReason.isSome && (ev.actor, ev.effect.id) == p.2.key) := by
  induction events generalizing q with
  | nil => simp [cancelEnded]
  | cons ev rest ih =>
    by_cases hend : ev.endReason.isSome = true
    · have hstep : cancelEnded q (ev :: rest) =
          cancelEnded (q.cancel (ev.actor, ev.effect.id)).1 rest := by
        simp [cancelEnded, hend]
      have hcancel : besides a (q.cancel (ev.actor, ev.effect.id)).1.pending =
          (besides a q.pending).filter (·.2.key != (ev.actor, ev.effect.id)) := by
        rw [pending_cancel hq]
        exact besides_filter (·.2.key != (ev.actor, ev.effect.id)) _
      rw [hstep, ih (hq.cancel _), hcancel, List.filter_filter]
      refine List.filter_congr fun p _ => ?_
      rw [List.all_cons, hend, Bool.true_and, Bool.and_comm, Bool.beq_comm]
      rfl
    · have hstep : cancelEnded q (ev :: rest) = cancelEnded q rest := by
        simp [cancelEnded, hend]
      rw [hstep, ih hq]
      refine List.filter_congr fun p _ => ?_
      rw [List.all_cons, Bool.eq_false_of_not_eq_true hend, Bool.false_and, Bool.not_false,
        Bool.true_and]

/-- An operation on the actor leaves the timers of the others alone. -/
theorem besides_settled_self (hq : q.Sound) (hevents : ∀ ev ∈ events, ev.actor = a)
    (hasked : ∀ t, asked = some t → t.actor = a) :
    besides a (settled q events asked moment).pending = besides a q.pending := by
  have hcancel : besides a (cancelEnded q events).pending = besides a q.pending := by
    rw [besides_cancelEnded hq]
    refine List.filter_eq_self.2 fun p hp => List.all_eq_true.2 fun ev hev => ?_
    have hne : (ev.actor, ev.effect.id) ≠ p.2.key := fun h =>
      (mem_besides.1 hp).1 ((congrArg Prod.fst h).symm.trans (hevents ev hev))
    simp [hne]
  cases hask : asked with
  | none => exact hcancel
  | some t =>
    have hs := sound_cancelEnded hq events
    exact (besides_schedule_self hs (hasked t hask) _).trans hcancel

/-- An operation leaves the timers of the others the same where they were the same. -/
theorem besides_settled (hq : q.Sound) (hq' : q'.Sound)
    (h : besides a q'.pending = besides a q.pending) :
    besides a (settled q' events asked moment).pending =
      besides a (settled q events asked moment).pending := by
  have hcancel : besides a (cancelEnded q' events).pending =
      besides a (cancelEnded q events).pending := by
    rw [besides_cancelEnded hq, besides_cancelEnded hq', h]
  have hs := sound_cancelEnded hq events
  have hs' := sound_cancelEnded hq' events
  cases asked with
  | none => exact hcancel
  | some t =>
    by_cases ht : t.actor = a
    · rw [settled, settled, besides_schedule_self hs ht, besides_schedule_self hs' ht, hcancel]
    · rw [settled, settled, besides_schedule hs ht, besides_schedule hs' ht, hcancel]

/-- A queue that gives out no timer of the actor gives out the first of the others, if it is due. -/
theorem besides_pop {found : Option Entry} (hq : q.Sound) (h : q.pop now = (q', found))
    (hfound : ∀ x, found = some x → x.timer.actor ≠ a) :
    found.map place = (besides a q.pending).head?.filter fun p => decide (p.1 ≤ now) := by
  cases found with
  | none =>
    cases hhead : (besides a q.pending).head? with
    | none => rfl
    | some p =>
      obtain ⟨-, x, hx, rfl⟩ := mem_besides.1 (List.mem_of_mem_head? hhead)
      have hlate : ¬ (place x).1 ≤ now := Nat.not_le_of_lt (hq.pop_none h hx)
      rw [Option.filter_some, decide_eq_false hlate]
      rfl
  | some x =>
    obtain ⟨-, hpending, hdue⟩ := hq.pop_some h
    have hdue : (place x).1 ≤ now := hdue
    rw [hpending, besides_cons_of_ne (hfound x rfl), List.head?_cons, Option.filter_some,
      decide_eq_true hdue]
    rfl

/-- The moment at which an effect of another actor ends. -/
theorem expiryOf_of_besides (hq : q.Sound) (hq' : q'.Sound)
    (h : besides a q'.pending = besides a q.pending) {k : ActorId × EffectId} (hk : k.1 ≠ a) :
    q'.expiryOf k = q.expiryOf k := by
  have hiff : ∀ {r : TimerQueue}, r.Sound → ∀ d, r.expiryOf k = some d ↔
      ∃ p ∈ besides a r.pending, p.2.key = k ∧ p.2.kind = .expire ∧ p.1 = d := by
    intro r hr d
    simp only [expiryOf, Option.bind_eq_some_iff, find?_eq_some_iff hr]
    constructor
    · rintro ⟨-, ⟨x, hx, rfl, rfl⟩, hd⟩
      split_ifs at hd with hkind
      exact ⟨place x, mem_besides.2 ⟨hk, x, hx, rfl⟩, rfl, hkind, Option.some.inj hd⟩
    · rintro ⟨p, hp, rfl, hkind, rfl⟩
      obtain ⟨-, x, hx, rfl⟩ := mem_besides.1 hp
      exact ⟨x.live, ⟨x, hx, rfl, rfl⟩, if_pos hkind⟩
  refine Option.ext fun d => ?_
  rw [hiff hq', hiff hq, h]

end TimerQueue

/-! ### Worlds -/

namespace World

variable {w w' : World} {a k : ActorId} {c : Actor} {b b' : Bearer} {t : Timer}

/-- Two worlds are the same but for what one actor bears. -/
structure SameBut (a : ActorId) (w w' : World) : Prop where
  profiles : w'.actors.map (·.profile) = w.actors.map (·.profile)
  ready : w'.spatialReady = w.spatialReady
  bearers : ∀ k, k ≠ a → w'.bearer? k = w.bearer? k

theorem profile?_eq (w : World) (k : ActorId) :
    w.profile? k = (w.actors.map (·.profile)).find? (·.id == k) := by
  unfold profile? get?
  rw [List.find?_map]
  rfl

namespace SameBut

theorem refl (a : ActorId) (w : World) : w.SameBut a w := ⟨rfl, rfl, fun _ _ => rfl⟩

theorem symm (h : w.SameBut a w') : w'.SameBut a w :=
  ⟨h.profiles.symm, h.ready.symm, fun k hk => (h.bearers k hk).symm⟩

theorem profile? (h : w.SameBut a w') (k : ActorId) : w'.profile? k = w.profile? k := by
  rw [profile?_eq, profile?_eq, h.profiles]

/-- Conditions see the same in both. -/
theorem surroundings (h : w.SameBut a w') : w'.surroundings = w.surroundings := by
  unfold World.surroundings near
  rw [h.profiles, h.ready]

theorem get?_eq_none (h : w.SameBut a w') (absent : w.get? k = none) : w'.get? k = none := by
  have hprofile := h.profile? k
  unfold World.profile? at hprofile
  rw [absent] at hprofile
  exact Option.map_eq_none_iff.1 hprofile

/-- An actor has the same profile in both, and bears the same unless it is the one. -/
theorem exists_get? (h : w.SameBut a w') (found : w.get? k = some c) :
    ∃ b, w'.get? k = some { c with bearer := b } ∧ (k ≠ a → b = c.bearer) := by
  have hprofile := h.profile? k
  unfold World.profile? at hprofile
  rw [found] at hprofile
  obtain ⟨c', found', hc'⟩ := Option.map_eq_some_iff.1 hprofile
  have hprofile : c'.profile = c.profile := hc'
  refine ⟨c'.bearer, ?_, fun hk => ?_⟩
  · rw [found', ← hprofile]
  · have hbearer := h.bearers k hk
    rw [bearer?_of_get? found, bearer?_of_get? found'] at hbearer
    exact Option.some.inj hbearer

theorem get?_of_ne (h : w.SameBut a w') (hk : k ≠ a) : w'.get? k = w.get? k := by
  cases found : w.get? k with
  | none => exact h.get?_eq_none found
  | some c =>
    obtain ⟨b, found', hb⟩ := h.exists_get? found
    rw [found', hb hk]

/-- Whatever the actor comes to bear, the others do not see it. -/
theorem setBearer_self (h : w.SameBut a w') (b : Bearer) : w.SameBut a (w'.setBearer a b) where
  profiles := map_profile_setBearer.trans h.profiles
  ready := h.ready
  bearers k hk := by
    have hbearer := h.bearers k hk
    unfold bearer? at hbearer ⊢
    rw [get?_setBearer_of_ne hk, hbearer]

theorem setBearer (h : w.SameBut a w') (found : w.get? k = some c) (hb : k ≠ a → b' = b) :
    (w.setBearer k b).SameBut a (w'.setBearer k b') := by
  by_cases hk : k = a
  · subst hk
    exact (h.symm.setBearer_self b).symm.setBearer_self b'
  · obtain ⟨d, found', -⟩ := h.exists_get? found
    refine ⟨?_, h.ready, fun j hj => ?_⟩
    · rw [map_profile_setBearer, map_profile_setBearer, h.profiles]
    · rw [bearer?_setBearer found', bearer?_setBearer found, hb hk, h.bearers j hj]

theorem modifyProfile (h : w.SameBut a w') {f : Profile → Profile}
    (hf : ∀ p, p.id = k → (f p).id = k) :
    (w.modifyProfile k f).SameBut a (w'.modifyProfile k f) where
  profiles := by
    have hmap : ∀ v : World, (v.modifyProfile k f).actors.map (·.profile) =
        updateFirst (·.id == k) f (v.actors.map (·.profile)) := by
      intro v
      refine map_updateFirst_comm (fun c => ?_) (fun c => ?_) _
      · rfl
      · rfl
    rw [hmap, hmap, h.profiles]
  ready := h.ready
  bearers j hj := by rw [bearer?_modifyProfile hf, bearer?_modifyProfile hf, h.bearers j hj]

theorem remove (h : w.SameBut a w') (k : ActorId) : (w.remove k).SameBut a (w'.remove k) where
  profiles := by
    have hmap : ∀ v : World, (v.remove k).actors.map (·.profile) =
        (v.actors.map (·.profile)).filter (·.id != k) := by
      intro v
      rw [List.filter_map]
      rfl
    rw [hmap, hmap, h.profiles]
  ready := h.ready
  bearers j hj := by rw [bearer?_remove, bearer?_remove, h.bearers j hj]

/-- A timer of the actor concerns nobody else. -/
theorem fire_self (h : w.SameBut a w') (settings : Settings) (ht : t.actor = a) :
    w.SameBut a (w'.fire settings t).1 := by
  cases found : w'.get? t.actor with
  | none =>
    rw [fire_of_get?_none found]
    exact h
  | some c =>
    rw [fire_of_get? found, ht]
    exact h.setBearer_self _

/-- A timer of another actor is answered in the same way. -/
theorem fire (h : w.SameBut a w') (settings : Settings) (ht : t.actor ≠ a) :
    (w'.fire settings t).2 = (w.fire settings t).2 ∧
      (w.fire settings t).1.SameBut a (w'.fire settings t).1 := by
  cases found : w.get? t.actor with
  | none =>
    rw [fire_of_get?_none found, fire_of_get?_none (h.get?_eq_none found)]
    exact ⟨rfl, h⟩
  | some c =>
    rw [fire_of_get? found, fire_of_get? ((h.get?_of_ne ht).trans found)]
    exact ⟨rfl, h.setBearer found fun _ => rfl⟩

end SameBut

end World

/-! ### Engines -/

namespace Engine

open Bearer TimerQueue

variable {g g' g₁ g₁' : Engine} {a k : ActorId} {c : Actor} {w w' : World} {t : Template}
  {r : Request} {events events' : List Event} {asked asked' : Option Timer} {moment : Nat}

/-- What has been published about an actor. -/
def told (g : Engine) (k : ActorId) : List Stamped :=
  g.feed.journal.toList.filter (·.event.actor == k)

/-- What has been published about all actors but one. -/
def heard (g : Engine) (a : ActorId) : List Stamped :=
  g.feed.journal.toList.filter (·.event.actor != a)

/-- Two engines are the same but for one actor. -/
structure SameBut (a : ActorId) (g g' : Engine) : Prop where
  settings : g'.settings = g.settings
  codex : g'.codex = g.codex
  world : g.world.SameBut a g'.world
  timers : besides a g'.queue.pending = besides a g.queue.pending
  heard : g'.heard a = g.heard a

theorem Upshot.heard_eq (hu : Upshot k w events asked moment g g') (a : ActorId) :
    g'.heard a = g.heard a ++
      ((events.map (.mk moment)).filter (fun s : Stamped => s.event.actor != a)) := by
  unfold heard
  rw [hu.feed, Feed.journal_publishAll, List.filter_append]

/-- What is told of the actor is not heard. -/
theorem Upshot.heard_self (hu : Upshot a w events asked moment g g') : g'.heard a = g.heard a := by
  rw [hu.heard_eq a, List.filter_eq_nil_iff.2, List.append_nil]
  intro s hs
  obtain ⟨ev, hev, rfl⟩ := List.mem_map.1 hs
  simp [hu.about ev hev]

namespace SameBut

theorem refl (a : ActorId) (g : Engine) : g.SameBut a g := ⟨rfl, rfl, .refl a g.world, rfl, rfl⟩

theorem symm (h : g.SameBut a g') : g'.SameBut a g :=
  ⟨h.settings.symm, h.codex.symm, h.world.symm, h.timers.symm, h.heard.symm⟩

/-- What is heard about another actor. -/
theorem told (h : g.SameBut a g') (hk : k ≠ a) : g'.told k = g.told k := by
  have hheard : ∀ g : Engine, g.told k = (g.heard a).filter (·.event.actor == k) := by
    intro g
    unfold Engine.told Engine.heard
    rw [List.filter_filter]
    refine List.filter_congr fun s _ => ?_
    by_cases hs : s.event.actor = k
    · simp [hs, hk]
    · simp [hs]
  rw [hheard, hheard, h.heard]

theorem status (h : g.SameBut a g') (hk : k ≠ a) : g'.status k = g.status k := by
  unfold Engine.status
  rw [h.world.get?_of_ne hk]

/-- An operation on the actor goes unnoticed. -/
theorem upshot_self (h : g.SameBut a g') (hq : g'.queue.Sound)
    (hu : Upshot a w events asked moment g' g₁') (hw : g.world.SameBut a w) : g.SameBut a g₁' where
  settings := hu.settings.trans h.settings
  codex := hu.codex.trans h.codex
  world := hu.world ▸ hw
  timers := by rw [hu.queue, besides_settled_self hq hu.about hu.asks, h.timers]
  heard := hu.heard_self.trans h.heard

/-- **Operations on one actor keep engines the same but for another**, where they come to the same,
and where they concern the actor itself. -/
theorem upshot (h : g.SameBut a g') (hq : g.queue.Sound) (hq' : g'.queue.Sound)
    (hu : Upshot k w events asked moment g g₁) (hu' : Upshot k w' events' asked' moment g' g₁')
    (hw : w.SameBut a w') (same : k ≠ a → events' = events ∧ asked' = asked) :
    g₁.SameBut a g₁' where
  settings := by rw [hu.settings, hu'.settings, h.settings]
  codex := by rw [hu.codex, hu'.codex, h.codex]
  world := by rwa [hu.world, hu'.world]
  timers := by
    rw [hu.queue, hu'.queue]
    by_cases hk : k = a
    · subst hk
      rw [besides_settled_self hq hu.about hu.asks, besides_settled_self hq' hu'.about hu'.asks,
        h.timers]
    · obtain ⟨rfl, rfl⟩ := same hk
      exact besides_settled hq hq' h.timers
  heard := by
    by_cases hk : k = a
    · subst hk
      rw [hu.heard_self, hu'.heard_self, h.heard]
    · obtain ⟨rfl, rfl⟩ := same hk
      rw [hu.heard_eq, hu'.heard_eq, h.heard]

/-- A request passes the gate of both or of none. -/
theorem gate (h : g.SameBut a g') (passed : g.gate t r = .ok c) :
    ∃ b, g'.gate t r = .ok { c with bearer := b } ∧ (r.target ≠ a → b = c.bearer) := by
  obtain ⟨found, halive, hcond⟩ := gate_eq_ok_iff.1 passed
  obtain ⟨b, found', hb⟩ := h.world.exists_get? found
  -- conditions look at profiles and positions, and not at what actors bear
  have hscene : g'.scene r = g.scene r := by
    unfold scene
    rw [h.world.surroundings, h.world.profile?, h.world.profile?]
  exact ⟨b, gate_eq_ok_iff.2 ⟨found', halive, hscene.symm ▸ hcond⟩, hb⟩

end SameBut

end Engine

end StatusEffects
