import StatusEffects.Proofs.Advance
import StatusEffects.Proofs.Chronicle
import StatusEffects.Proofs.Standing

/-!
# Draining an engine in batches

A worker takes a batch of due timers out of the queue before it fires any of them, so that what they
ask for comes after the whole batch, even if it is due before.  Advancing the engine to the present
moment takes one timer at a time instead.  Both are chains of due timers to the end and therefore
agree on everything but the order between different effects.

## Main definitions

* `Engine.Drained` : batches are drained until one is empty.
* `Engine.story` : what has been published about an effect.

## Main statements

* `Engine.fires_drainDue`, `Engine.fires_advanceTo` : batches and advances as chains of due timers.
* `Engine.exists_drained` : draining comes to an end, which is that of any such chain.
* `Engine.draining_run` : draining after a run against advancing.
-/

namespace StatusEffects

namespace Engine

open Standing

variable {g g' g₁ : Engine} {q : TimerQueue} {e : Entry} {taken es : List Entry} {now d m n : Nat}

/-! ### Taking timers out of the queue -/

/-- A timer that is taken out of the queue is still the timer of its effect. -/
theorem standing_take (ht : Timed g taken) (due : g.queue.pop now = (q, some e)) :
    ({ g with queue := q } : Engine).standing (taken ++ [e]) = g.standing taken := by
  obtain ⟨-, hpending, -⟩ := ht.queue.pop_some due
  have hperm : (q.pending ++ (taken ++ [e])).Perm (g.queue.pending ++ taken) := by
    rw [hpending, ← List.append_assoc]
    exact List.perm_append_singleton e _
  have hslot : (({ g with queue := q } : Engine).standing (taken ++ [e])).slot =
      (g.standing taken).slot := by
    funext k
    refine Option.ext fun p => ?_
    rw [slot_eq_some_iff (ht.take due), slot_eq_some_iff ht, (hperm.map place).mem_iff]
  simp only [standing, Standing.mk.injEq, true_and, and_true] at hslot ⊢
  exact ⟨hslot, rfl⟩

theorem standing_popDue (ht : Timed g taken) (now max : Nat) :
    let r := g.queue.popDue now max
    Timed { g with queue := r.1 } (taken ++ r.2) ∧
      ({ g with queue := r.1 } : Engine).standing (taken ++ r.2) = g.standing taken ∧
      ∀ x ∈ r.2, x.due ≤ now := by
  intro r
  induction max generalizing g taken with
  | zero =>
    simp only [r, TimerQueue.popDue, List.append_nil]
    exact ⟨ht, trivial, List.forall_mem_nil _⟩
  | succ max ih =>
    simp only [r, TimerQueue.popDue]
    cases h : g.queue.pop now with
    | mk q found =>
      cases found with
      | none =>
        obtain ⟨rfl, -⟩ := TimerQueue.pop_none_eq h
        have hpending := TimerQueue.pending_skipDead g.queue
        simp only [List.append_nil]
        refine ⟨ht.congr rfl ht.queue.skipDead hpending fun _ _ hb => .inl hb, ?_,
          List.forall_mem_nil _⟩
        simp only [standing, hpending]
        rfl
      | some e =>
        obtain ⟨-, -, hdue⟩ := ht.queue.pop_some h
        obtain ⟨htimed, hstanding, hrest⟩ := ih (ht.take h)
        rw [standing_take ht h] at hstanding
        simp only [List.append_assoc, List.singleton_append] at htimed hstanding
        refine ⟨htimed, hstanding, fun x hx => ?_⟩
        rcases List.mem_cons.1 hx with rfl | hx
        · exact hdue
        · exact hrest x hx

/-! ### Batches and advances as chains -/

/-- A timer that was taken out of the queue fires. -/
theorem step_fire {x : Entry} (ht : Timed g (x :: taken)) (hg : g.Sound) (hdue : x.due ≤ d) :
    (g.standing (x :: taken)).Step g.settings d ((g.fire x).standing taken) := by
  rw [standing_fire ht hg]
  have hmem : place x ∈ (g.queue.pending ++ x :: taken).map place :=
    List.mem_map_of_mem (List.mem_append_right _ List.mem_cons_self)
  exact .fire ((slot_eq_some_iff ht).2 ⟨hmem, rfl⟩) hdue

theorem settings_fire (g : Engine) (x : Entry) : (g.fire x).settings = g.settings :=
  settings_steps (steps_fire g x)

/-- The timers of a batch fire one after the other. -/
theorem fires_batch (ht : Timed g es) (hg : g.Sound) (hdue : ∀ x ∈ es, x.due ≤ d) :
    (g.standing es).Fires g.settings d es.length ((es.foldl fire g).standing []) := by
  induction es generalizing g with
  | nil => exact .nil _
  | cons x rest ih =>
    have hrest := ih (ht.fire hg) (hg.steps (steps_fire g x)) fun y hy => hdue y (.tail _ hy)
    rw [settings_fire] at hrest
    exact .cons (step_fire ht hg (hdue x List.mem_cons_self)) hrest

/-- **A batch is a chain of due timers.** -/
theorem fires_drainDue (ht : Timed g []) (hg : g.Sound) (m : Nat) :
    (g.standing []).Fires g.settings g.now (g.drainDue m).2 ((g.drainDue m).1.standing []) := by
  obtain ⟨htimed, hstanding, hdue⟩ := standing_popDue ht g.now m
  rw [List.nil_append] at htimed hstanding
  have hfires := fires_batch htimed hg hdue
  rwa [hstanding] at hfires

/-- **Advancing is a chain of due timers.** -/
theorem fires_advanceTo (ht : Timed g []) (hg : g.Sound) (hd : d < lastMoment) :
    (g.standing []).Fires g.settings d (g.advanceTo d).2 ((g.advanceTo d).1.standing []) := by
  refine advanceTo_induction hd ht.queue (fun g q _ h ht _ => ?_)
    (fun g q e hq h ih ht hg => ?_) ht hg
  · rw [advanceTo_of_none h]
    exact .nil _
  · obtain ⟨-, -, hdue⟩ := hq.pop_some h
    have hclock : Timed { g with queue := q, clock := g.clock.advanceTo e.due } [e] :=
      (ht.take h).congr rfl (ht.take h).queue rfl fun _ _ hb => .inl hb
    have hstanding : ({ g with queue := q, clock := g.clock.advanceTo e.due } : Engine).standing [e] =
        g.standing [] := standing_take ht h
    have hg₁ : ({ g with queue := q, clock := g.clock.advanceTo e.due } : Engine).Sound := hg
    have hfirst := step_fire hclock hg₁ hdue
    have hrest := ih (hclock.fire hg₁) (hg₁.steps (steps_fire _ e))
    rw [fireNext, settings_fire] at hrest
    rw [hstanding] at hfirst
    rw [advanceTo_of_some hq hd h]
    exact .cons hfirst hrest

/-- Where the queue holds nothing that is due the standing is settled. -/
theorem settled_of_late (ht : Timed g []) (late : ∀ x ∈ g.queue.pending, d < x.due) :
    (g.standing []).Settled d := by
  intro t due hslot
  obtain ⟨hp, -⟩ := (slot_eq_some_iff ht).1 hslot
  rw [List.append_nil] at hp
  obtain ⟨x, hx, hplace⟩ := List.mem_map.1 hp
  have hdue : x.due = due := congrArg Prod.fst hplace
  exact hdue ▸ late x hx

theorem timed_drainDue (ht : Timed g []) (hg : g.Sound) (m : Nat) : Timed (g.drainDue m).1 [] :=
  Timed.acts (s := (g, [])) ht hg (acts_drainDue g m)

theorem clock_drainDue (g : Engine) (m : Nat) : (g.drainDue m).1.clock = g.clock := by
  have hfires : ∀ (es : List Entry) (g : Engine), (es.foldl fire g).clock = g.clock := by
    intro es
    induction es with
    | nil => exact fun _ => rfl
    | cons x rest ih => exact fun g => (ih (g.fire x)).trans (clock_fire g x)
  exact hfires _ _

/-- A batch that is empty leaves nothing that is due. -/
theorem settled_of_drainDue (ht : Timed g []) (hm : 0 < m) (h : (g.drainDue m).2 = 0) :
    (g.standing []).Settled g.now := by
  refine settled_of_late ht fun x hx => ?_
  obtain ⟨k, rfl⟩ := Nat.exists_eq_add_one.2 hm
  simp only [drainDue, TimerQueue.popDue] at h
  cases hpop : g.queue.pop g.now with
  | mk q found =>
    cases found with
    | none => exact ht.queue.pop_none hpop hx
    | some e => simp [hpop] at h

/-! ### Draining -/

/-- Batches of up to `m` timers are drained until one is empty, `n` timers in all. -/
inductive Drained (m : Nat) : Engine → Nat → Engine → Prop
  | done {g g' : Engine} (empty : g.drainDue m = (g', 0)) : Drained m g 0 g'
  | more {g g₁ g' : Engine} {k n : Nat} (batch : g.drainDue m = (g₁, k + 1))
      (rest : Drained m g₁ n g') : Drained m g (k + 1 + n) g'

/-- **Draining comes to an end.**  It takes as many timers as any chain to the end, and its standing
is the one at the end of the chain. -/
theorem exists_drained (ht : Timed g []) (hg : g.Sound) (hm : 0 < m) {s : Standing}
    (h : (g.standing []).Fires g.settings g.now n s) (hs : s.Settled g.now) :
    ∃ g', Drained m g n g' ∧ g'.standing [] = s ∧ Timed g' [] ∧ Steps g g' ∧
      g'.clock = g.clock := by
  induction n using Nat.strong_induction_on generalizing g with
  | _ n ih =>
    have hbatch := fires_drainDue ht hg m
    have hsteps : Steps g (g.drainDue m).1 := steps_acts (s := (g, [])) hg (acts_drainDue g m)
    have htimed := timed_drainDue ht hg m
    have hclock := clock_drainDue g m
    cases hdrain : g.drainDue m with
    | mk g₁ k =>
      rw [hdrain] at hbatch hsteps htimed hclock
      cases k with
      | zero =>
        -- nothing is due, and so the chain is empty as well
        have hsettled := settled_of_drainDue ht hm (congrArg Prod.snd hdrain)
        obtain ⟨rfl, rfl⟩ := h.unique hs (.nil _) hsettled
        exact ⟨g₁, .done hdrain, hbatch.eq_of_zero.symm, htimed, hsteps, hclock⟩
      | succ k =>
        obtain ⟨j, rfl, hj⟩ := h.of_fires hs hbatch
        have hnow : g₁.now = g.now := congrArg Clock.now hclock
        have hsettings : g₁.settings = g.settings := settings_steps hsteps
        rw [← hnow, ← hsettings] at hj
        obtain ⟨g', hdrained, hend, htimed', hsteps', hclock'⟩ :=
          ih j (by omega) htimed (hg.steps hsteps) hj (hnow ▸ hs)
        exact ⟨g', .more hdrain hdrained, hend, htimed', hsteps.trans hsteps',
          hclock'.trans hclock⟩

/-- Draining takes one batch for each timer at most, and one that is empty. -/
theorem Drained.drainBatches_eq (h : Drained m g n g') {fuel : Nat} (hfuel : n < fuel) :
    g.drainBatches m fuel = g' := by
  induction h generalizing fuel with
  | done empty =>
    obtain ⟨fuel, rfl⟩ := Nat.exists_eq_add_one.2 hfuel
    simp only [drainBatches, empty]
  | @more _ _ _ k n batch _ ih =>
    obtain ⟨fuel, rfl⟩ := Nat.exists_eq_add_one.2 (Nat.lt_of_le_of_lt (Nat.zero_le _) hfuel)
    simp only [drainBatches, batch]
    exact ih (by omega)

theorem fireAll_le (g : Engine) (d n fuel : Nat) : (g.fireAll d n fuel).2 ≤ n + fuel := by
  induction fuel generalizing g n with
  | zero => exact Nat.le_refl _
  | succ fuel ih =>
    cases h : g.queue.pop d with
    | mk q found =>
      cases found with
      | none =>
        rw [fireAll_of_none h]
        exact Nat.le_add_right _ _
      | some e =>
        rw [fireAll_of_some h]
        have hle := ih (g.fireNext q e) (n + 1)
        omega

theorem advanceTo_le (g : Engine) (d : Nat) : (g.advanceTo d).2 ≤ g.timersUpTo d := by
  have hle := fireAll_le g d 0 (g.timersUpTo d)
  rw [Nat.zero_add] at hle
  exact hle

/-! ### What a standing tells of an engine -/

/-- What has been published about an effect. -/
def story (g : Engine) (k : EffectId) : List Stamped :=
  g.feed.journal.toList.filter (·.event.effect.id == k)

/-- Engines of one standing have the same pending timers. -/
theorem perm_of_standing (ht : Timed g []) (ht' : Timed g' [])
    (h : (g.standing []).slot = (g'.standing []).slot) :
    (g.queue.pending.map place).Perm (g'.queue.pending.map place) := by
  have hnodup : ∀ {g : Engine}, Timed g [] → (g.queue.pending.map place).Nodup := fun ht => by
    have hkeys := TimerQueue.nodup_keys_pending ht.queue
    refine List.Nodup.of_map (fun p : Nat × Timer => p.2.key) ?_
    rwa [List.map_map]
  have hmem : ∀ {g : Engine}, Timed g [] → ∀ p, p ∈ g.queue.pending.map place ↔
      (g.standing []).slot p.2.key = some p := fun ht p => by
    rw [slot_eq_some_iff ht, List.append_nil, and_iff_left rfl]
  refine (List.perm_ext_iff_of_nodup (hnodup ht) (hnodup ht')).2 fun p => ?_
  rw [hmem ht, hmem ht', h]

theorem news_eq (g : Engine) (id : ActorId) (k : EffectId) :
    g.news (id, k) = (g.story k).filter (·.event.actor == id) := by
  simp only [news, story, List.filter_filter]
  rfl

/-- An effect is told of for one actor only. -/
theorem exists_actor (hc : Chronicled g.nextEffect g.shown g.log) (k : EffectId) :
    ∃ id, ∀ s ∈ g.story k, s.event.actor = id := by
  obtain ⟨id, hall⟩ := (hc.recorded k).exists_actor
  refine ⟨id, fun s hs => hall s.event ?_⟩
  obtain ⟨hs, hk⟩ := List.mem_filter.1 hs
  exact List.mem_filter.2 ⟨List.mem_map_of_mem hs, hk⟩

/-- What is published about each effect of each actor settles what is published about each effect. -/
theorem story_of_news (hc : Chronicled g.nextEffect g.shown g.log)
    (hc' : Chronicled g'.nextEffect g'.shown g'.log)
    (h : g.news = g'.news) (k : EffectId) :
    g.story k = g'.story k := by
  obtain ⟨id, hid⟩ := exists_actor hc k
  obtain ⟨id', hid'⟩ := exists_actor hc' k
  have hall : ∀ {g : Engine} {id : ActorId}, (∀ s ∈ g.story k, s.event.actor = id) →
      g.news (id, k) = g.story k := fun hid => by
    rw [news_eq, List.filter_eq_self]
    exact fun s hs => beq_iff_eq.2 (hid s hs)
  have hnone : ∀ {g : Engine} {id id' : ActorId}, id' ≠ id →
      (∀ s ∈ g.story k, s.event.actor = id) → g.news (id', k) = [] :=
    fun hne hid => by
      rw [news_eq, List.filter_eq_nil_iff]
      exact fun s hs => by simpa [hid s hs] using hne.symm
  by_cases hsame : id = id'
  · rw [← hall hid, h, hsame, hall hid']
  · -- were they of different actors, neither engine would have published anything
    rw [← hall hid, h, hnone hsame hid', ← hall hid', ← h, hnone (Ne.symm hsame) hid]

/-- **Workers and advances agree.**  Whoever drains batches until one is empty comes to an end, after
as many timers as are fired in advancing to the present moment, and then the actors bear the same
effects and have the same status, the clock shows the same, the same timers are pending and due at
the same moments, the timers that have fired, were stale, led to another one or ended their effect
are as many, and the same has been published about each effect at the same moments in the same
order. -/
theorem draining_run (settings : Settings) (codex : Codex) (start : UInt64) (manual : Bool)
    (capacity : Nat) (ops : List Op) {batch : Nat} (hbatch : 0 < batch) :
    let g := (opened settings codex start manual capacity).run ops
    g.now < lastMoment →
    let r := g.advanceTo g.now
    let g' := g.drainAll batch
    Drained batch g r.2 g' ∧ g'.world = r.1.world ∧ g'.clock = r.1.clock ∧
      (g'.queue.pending.map fun x => (x.due, x.timer)).Perm
        (r.1.queue.pending.map fun x => (x.due, x.timer)) ∧
      { g'.metrics with peak := 0 } = { r.1.metrics with peak := 0 } ∧
      ∀ k, g'.story k = r.1.story k := by
  intro g hnow r g'
  have hopened := sound_opened settings codex start manual capacity
  have hrun := steps_run hopened ops
  have hg : g.Sound := hopened.steps hrun
  have ht : Timed g [] := timed_run settings codex start manual capacity ops
  have hchronicled : ∀ {g₁ : Engine}, Steps g g₁ →
      Chronicled g₁.nextEffect g₁.shown g₁.log := fun hsteps =>
    chronicled_steps hopened (chronicled_opened settings codex start manual capacity)
      (hrun.trans hsteps)
  -- advancing is a chain to the end, and so draining is another one
  have hacts := acts_advanceTo g g.now
  have hfires := fires_advanceTo ht hg hnow
  have htimed : Timed r.1 [] := Timed.acts (s := (g, [])) ht hg hacts
  have hsettled := settled_of_late htimed (late_advanceTo ht.queue hnow).2
  obtain ⟨g₁, hdrained, hstanding, htimed₁, hsteps, hclock⟩ :=
    exists_drained ht hg hbatch hfires hsettled
  have hend : g' = g₁ := hdrained.drainBatches_eq (Nat.lt_succ_of_le (advanceTo_le g g.now))
  have hmoved : r.1.clock = g.clock := by
    rw [clock_advanceTo ht.queue hnow]
    simp only [Clock.advanceTo, now]
    split_ifs <;> simp
  rw [hend]
  refine ⟨hdrained, congrArg Standing.world hstanding, hclock.trans hmoved.symm,
    perm_of_standing htimed₁ htimed (congrArg Standing.slot hstanding),
    congrArg Standing.counts hstanding, ?_⟩
  exact story_of_news (hchronicled hsteps) (hchronicled (steps_acts (s := (g, [])) hg hacts))
    (congrArg Standing.told hstanding)

/-- A haste and the four ticks of a hold are overdue.  In batches of two the haste ends before the
second tick, although it was due after the last; seen effect by effect there is no difference. -/
theorem draining_run_hold :
    let g := (opened {} trialCodex 0 true 1).run [.enter 1, .cast 1 1, .cast 1 3, .setClock 10000]
    0 < 2 ∧ g.now < lastMoment ∧ Drained 2 g 5 (g.drainAll 2) ∧
      (∀ k, (g.drainAll 2).story k = (g.advanceTo g.now).1.story k) ∧
      (g.drainAll 2).log ≠ (g.advanceTo g.now).1.log := by
  intro g
  have hnow : g.now < lastMoment := by decide +kernel
  obtain ⟨hdrained, -, -, -, -, hstory⟩ := draining_run {} trialCodex 0 true 1
    [.enter 1, .cast 1 1, .cast 1 3, .setClock 10000] (show 0 < 2 by decide) hnow
  have hfive : (g.advanceTo g.now).2 = 5 := by decide +kernel
  have horder : (g.drainAll 2).log ≠ (g.advanceTo g.now).1.log := by decide +kernel
  rw [hfive] at hdrained
  exact ⟨by decide, hnow, hdrained, hstory, horder⟩

end Engine

end StatusEffects
