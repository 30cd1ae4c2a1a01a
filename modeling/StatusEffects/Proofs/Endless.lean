import StatusEffects.Proofs.Course
import StatusEffects.Proofs.Waiting

/-!
# Whether advancing comes to an end

An engine that is advanced goes on until no timer is due.  A timer that asks for the next one gets
it later than it was due itself, until the end of time: there it gets it at the same moment again.
An effect that ticks and never ends therefore keeps an engine busy for ever at the end of time, and
nothing else does: before it time runs out, and other effects run out of ticks.

## Main definitions

* `Engine.Advanced` : the loop that advances an engine has come to its end.
* `Effect.isEndless` : an effect that asks for a timer after each of its ticks.
* `Engine.ticksLeft` : a number of timers that a pending one leads to, if no effect is endless.

## Main statements

* `Engine.exists_advanced` : a measure that every timer uses up has the loop come to its end.
* `Engine.Restless.not_advanced` : an endless effect keeps it from its end at the end of time.
* `Engine.advanced_run` : whether advancing comes to an end, after every run and in every replay.
-/

namespace StatusEffects

namespace Effect

variable {e : Effect} {unit : UInt64} {t : Timer}

/-- Whether the effect ticks, and no tick is the last. -/
def isEndless (e : Effect) : Bool :=
  e.isActive && e.template.isPeriodic && e.isPermanent && e.goesOn

theorem isEndless_countTick (e : Effect) : e.countTick.isEndless = e.isEndless := rfl

theorem isEndless_iterate (e : Effect) (n : Nat) :
    (countTick^[n] e).isEndless = e.isEndless := by
  induction n generalizing e with
  | zero => rfl
  | succ n ih => exact (ih e.countTick).trans (isEndless_countTick e)

/-- An endless effect answers a timer for a tick with the next one. -/
theorem Replies.again_of_endless {r : Reply} (h : e.Replies unit t r) (endless : e.isEndless = true)
    (heeded : e.heeds t = true) (tick : t.kind = .tick) : ∃ next, r = .again e.countTick next := by
  simp only [isEndless, Bool.and_eq_true] at endless
  obtain ⟨⟨-, hpermanent⟩, hgoes⟩ := endless
  cases h with
  | stale unheeded => exact absurd heeded (by simp [unheeded])
  | again => exact ⟨_, rfl⟩
  | last _ _ complete =>
    have hpermanent' : e.countTick.isPermanent = true := hpermanent
    simp [hgoes, isExhausted, hpermanent'] at complete
  | ends _ expire => exact absurd (tick.symm.trans expire) (by decide)

/-- An effect that is not endless and goes on after a tick has one tick less to come. -/
theorem remaining_countTick_lt (ending : e.isEndless = false) (heeded : e.heeds t = true)
    (tick : t.kind = .tick) (goes : e.goesOn = true)
    (unexhausted : e.countTick.isExhausted = false) :
    e.countTick.remaining.toNat < e.remaining.toNat := by
  obtain ⟨-, hactive, hperiodic⟩ := heeds_iff.1 heeded
  have htimed : e.isPermanent = false := by
    simpa [isEndless, hactive, hperiodic tick, goes] using ending
  have htimer : e.params.duration ≠ 0 := by simpa [isPermanent] using htimed
  have hcount := Cast.remaining_countTick fun hzero => absurd hzero htimer
  have hleft : e.countTick.remaining.toNat ≠ 0 := fun hzero => by
    have hexhausted := (Cast.isExhausted_iff (e := e.countTick)).2
      ⟨fun h => htimer (UInt32.toNat_inj.1 h), hzero⟩
    rw [unexhausted] at hexhausted
    cases hexhausted
  omega

end Effect

namespace Engine

open TimerQueue Bearer

variable {g g' g'' : Engine} {q : TimerQueue} {x : Entry} {id : ActorId} {e : Effect} {d m n : Nat}
  {taken : List Entry}

/-! ### The loop -/

/-- The loop that advances an engine to a moment fires `n` timers one after the other, and then none
is due. -/
inductive Advanced (d : Nat) : Engine → Nat → Engine → Prop
  | done {g : Engine} {q : TimerQueue} (idle : g.queue.pop d = (q, none)) : Advanced d g 0 g
  | more {g g' : Engine} {q : TimerQueue} {e : Entry} {n : Nat}
      (due : g.queue.pop d = (q, some e)) (rest : Advanced d (g.fireNext q e) n g') :
      Advanced d g (n + 1) g'

/-- Enough fuel brings the loop to its end. -/
theorem Advanced.fireAll_eq (h : Advanced d g n g') (fired : Nat) {fuel : Nat} (hfuel : n ≤ fuel) :
    g.fireAll d fired fuel = (g', fired + n) := by
  induction h generalizing fired fuel with
  | done idle => exact fireAll_of_none idle fired fuel
  | more due _ ih =>
    obtain ⟨fuel, rfl⟩ := Nat.exists_eq_add_one_of_ne_zero (Nat.ne_zero_of_lt hfuel)
    rw [fireAll_of_some due, ih (fired + 1) (by omega)]
    congr 1
    omega

theorem Advanced.unique (h : Advanced d g n g') (h' : Advanced d g m g'') : n = m ∧ g' = g'' := by
  have hfuel := h.fireAll_eq 0 (Nat.le_max_left n m)
  rw [h'.fireAll_eq 0 (Nat.le_max_right n m), Prod.mk.injEq] at hfuel
  exact ⟨by omega, hfuel.1.symm⟩

/-- **The loop comes to its end** where every timer uses up some of a measure. -/
theorem exists_advanced (P : Engine → Prop) (measure : Engine → Nat)
    (next : ∀ g q e, P g → g.queue.pop d = (q, some e) →
      P (g.fireNext q e) ∧ measure (g.fireNext q e) < measure g) (hg : P g) :
    ∃ n g', Advanced d g n g' ∧ n ≤ measure g := by
  induction hm : measure g using Nat.strong_induction_on generalizing g with
  | _ m ih =>
    cases hpop : g.queue.pop d with
    | mk q found =>
      cases found with
      | none => exact ⟨0, g, .done hpop, Nat.zero_le _⟩
      | some e =>
        obtain ⟨hnext, hlt⟩ := next g q e hg hpop
        obtain ⟨n, g', hadvanced, hle⟩ := ih _ (hm ▸ hlt) hnext rfl
        exact ⟨n + 1, g', .more hpop hadvanced, by omega⟩

/-- Before the end of time every timer uses up some of the time that is left. -/
theorem advanced_of_lt (hq : g.queue.Sound) (hd : d < lastMoment) :
    ∃ n g', Advanced d g n g' ∧ n ≤ g.timersUpTo d := by
  obtain ⟨n, g', h, hle⟩ := exists_advanced (fun g => g.queue.Sound) (·.queue.allowance d)
    (fun g q e hq h => ⟨sound_fireNext hq h, allowance_fireNext_lt hq h hd⟩) hq
  exact ⟨n, g', h, hle.trans (allowance_le hq d)⟩

/-! ### Endless effects -/

/-- The timer of an endless effect is for its next tick. -/
theorem exists_tick (hg : g.Sound) (ht : Timed g taken) (he : g.Bears id e)
    (endless : e.isEndless = true) :
    ∃ y ∈ g.queue.pending ++ taken, y.key = (id, e.id) ∧ y.timer.kind = .tick ∧
      e.heeds y.timer = true := by
  simp only [Effect.isEndless, Bool.and_eq_true] at endless
  obtain ⟨⟨⟨hactive, hperiodic⟩, -⟩, -⟩ := endless
  have hneeded : e.timer? g.settings.expiryUnit = some _ :=
    Effect.timer?_of_periodic hactive hperiodic
  obtain ⟨y, hy, hkey, hmeets⟩ := exists_timer hg ht he hneeded
  exact ⟨y, hy, hkey, hmeets.kind, Effect.heeds_of_meets hneeded hmeets⟩

/-- An endless effect is borne after every timer that fires. -/
theorem Prepared.exists_endless (h : g.Prepared) (due : g.queue.pop d = (q, some x))
    (he : g.Bears id e) (endless : e.isEndless = true) :
    ∃ e', (g.fireNext q x).Bears id e' ∧ e'.isEndless = true := by
  -- the moment before the timer fires
  generalize hg₁ : ({ g with queue := q, clock := g.clock.advanceTo x.due } : Engine) = g₁
  have he₁ : g₁.Bears id e := hg₁ ▸ he
  have hacts : Acts (g, []) (g₁, [x]) :=
    hg₁ ▸ .head (.take g [] due) (.single (.setClock { g with queue := q } [x] x.due))
  have hsound : g₁.Sound := h.sound.steps (steps_acts h.sound hacts)
  have htimed : Timed g₁ [x] := h.timed.acts h.sound hacts
  have hfire : g.fireNext q x = g₁.fire x := by rw [← hg₁]; rfl
  rw [hfire]
  by_cases hkey : x.key = (id, e.id)
  · obtain ⟨y, hy, hykey, htick, hheeds⟩ := exists_tick hsound htimed he₁ endless
    obtain rfl : y = x :=
      htimed.unique hy (List.mem_append_right _ List.mem_cons_self) (hykey.trans hkey.symm)
    obtain ⟨a, found, hget, hworld⟩ := world_fire_of_bears hsound he₁ hkey
    obtain ⟨next, hreply⟩ := (e.replies g₁.settings.expiryUnit y.timer).again_of_endless endless
      hheeds htick
    rw [hreply] at hworld
    have hset := (fire_eq g₁ y).1.trans (congrArg Prod.fst hworld)
    exact ⟨e.countTick, (bears_setBearer found hset).1 e.countTick (get?_update_self hget rfl),
      endless⟩
  · exact ⟨e, by rwa [bears_iff, effect?_fire_of_ne g₁ (Ne.symm hkey), ← bears_iff], endless⟩

/-- **An endless effect keeps the engine busy for ever at the end of time.** -/
theorem Prepared.not_advanced (h : g.Prepared) (he : g.Bears id e) (endless : e.isEndless = true) :
    ¬ Advanced lastMoment g n g' := by
  intro hadvanced
  induction hadvanced generalizing e with
  | done idle =>
    obtain ⟨y, hy, -⟩ := exists_tick h.sound h.timed he endless
    rw [List.append_nil] at hy
    exact absurd (h.due y hy) (Nat.not_le.2 (h.timed.queue.pop_none idle hy))
  | more due _ ih =>
    obtain ⟨e', he', hendless'⟩ := h.exists_endless due he endless
    exact ih (h.acts (acts_fireNext due)) he' hendless'

/-! ### Effects that run out of ticks -/

/-- No actor bears an endless effect. -/
def Mortal (g : Engine) : Prop := ∀ id e, g.Bears id e → e.isEndless = false

theorem mortal_of_forall
    (h : ∀ a ∈ g.world.actors, ∀ e ∈ a.bearer.list.effects, e.isEndless = false) : g.Mortal := by
  rintro id e ⟨b, hb, hget⟩
  obtain ⟨a, found, rfl⟩ := Option.map_eq_some_iff.1 hb
  exact h a (List.mem_of_find?_eq_some found) e (EffectList.mem_of_get? hget)

/-- A number of timers that a pending one leads to, if no effect is endless. -/
def ticksLeft (g : Engine) (x : Entry) : Nat :=
  (g.effect? x.key).elim 1 fun e => e.remaining.toNat + 1

theorem ticksLeft_pos (g : Engine) (x : Entry) : 0 < g.ticksLeft x := by
  simp only [ticksLeft]
  cases g.effect? x.key <;> simp

theorem ticksLeft_le (g : Engine) (x : Entry) : g.ticksLeft x ≤ UInt32.size := by
  simp only [ticksLeft]
  cases g.effect? x.key with
  | none => decide
  | some e => exact e.remaining.toNat_lt_size

theorem Mortal.fire (h : g.Mortal) (hg : g.Sound) (x : Entry) : (g.fire x).Mortal := by
  intro id e he
  obtain ⟨hworld, -, -, -⟩ := fire_eq g x
  cases found : g.world.get? x.timer.actor with
  | none =>
    rw [World.fire_of_get?_none found] at hworld
    exact h id e (bears_congr (by rw [hworld]) he)
  | some a =>
    rw [World.fire_of_get? found] at hworld
    by_cases hactor : id = x.timer.actor
    · subst hactor
      obtain ⟨b, hb, hget⟩ := he
      rw [hworld, World.bearer?_setBearer found, if_pos rfl, Option.some.injEq] at hb
      subst hb
      -- it was there before, with some ticks less
      obtain ⟨y, hy, n, rfl⟩ := (turns_fire a.bearer g.settings x.timer).exists_iterate
        (EffectList.mem_of_get? hget)
      rw [Effect.isEndless_iterate]
      exact h _ y (bears_of_mem hg found hy)
    · refine h id e (bears_congr ?_ he)
      rw [hworld, World.bearer?_setBearer found, if_neg hactor]

/-- A timer that is asked for leads to fewer than the one that has fired. -/
theorem ticksLeft_asked (hg : g.Sound) (mortal : g.Mortal) {y : Entry}
    (asked : nextTimer (g.world.fire g.settings x.timer).2.2 = some y.timer) :
    (g.fire x).ticksLeft y < g.ticksLeft x := by
  have hkey : y.key = x.key := (about_fire hg x).2 y.timer asked
  cases found : g.world.get? x.timer.actor with
  | none =>
    rw [World.fire_of_get?_none found] at asked
    cases asked
  | some a =>
    cases hget : a.bearer.list.get? x.timer.effect with
    | none =>
      rw [World.fire_of_get? found, fire_of_get?_none hget] at asked
      cases asked
    | some e =>
      have hid := EffectList.id_of_get? hget
      have he : g.Bears x.timer.actor e :=
        ⟨a.bearer, World.bearer?_of_get? found, hid.symm ▸ hget⟩
      have hxkey : x.key = (x.timer.actor, e.id) := by rw [hid]; rfl
      have hbefore : g.effect? x.key = some e := hxkey ▸ bears_iff.1 he
      obtain ⟨c, hc, hcget, hfire⟩ := world_fire_of_bears hg he hxkey
      have hreplies := e.replies g.settings.expiryUnit x.timer
      generalize e.reply g.settings.expiryUnit x.timer = r at hfire hreplies
      rw [hfire] at asked
      cases hreplies with
      | stale | last | ends => cases asked
      | again heeded tick goes unexhausted _ =>
        have hset := (fire_eq g x).1.trans (congrArg Prod.fst hfire)
        have hticked := (bears_setBearer hc hset).1 e.countTick (get?_update_self hcget rfl)
        have hafter : (g.fire x).effect? x.key = some e.countTick := hxkey ▸ bears_iff.1 hticked
        have hlt := Effect.remaining_countTick_lt (mortal _ e he) heeded tick goes unexhausted
        simp only [ticksLeft, hkey, hbefore, hafter, Option.elim_some]
        omega

/-- **Without endless effects every timer uses up some of the ticks that are left.** -/
theorem weight_fireNext_lt (hg : g.Sound) (hq : g.queue.Sound) (mortal : g.Mortal)
    (due : g.queue.pop d = (q, some x)) :
    (g.fireNext q x).queue.weight (g.fireNext q x).ticksLeft < g.queue.weight g.ticksLeft := by
  obtain ⟨hq', hpending, -⟩ := hq.pop_some due
  have hkeys := nodup_keys_pending hq
  rw [hpending, List.map_cons, List.nodup_cons] at hkeys
  -- the moment before the timer fires
  generalize hg₁ : ({ g with queue := q, clock := g.clock.advanceTo x.due } : Engine) = g₁
  have hsound : g₁.Sound := hg₁ ▸ hg
  have hmortal : g₁.Mortal := hg₁ ▸ mortal
  have hqueue : g₁.queue = q := by rw [← hg₁]
  have hticks : g₁.ticksLeft = g.ticksLeft := by rw [← hg₁]; rfl
  have hfire : g.fireNext q x = g₁.fire x := by rw [← hg₁]; rfl
  have hsettled := (fire_eq g₁ x).2.2.1
  rw [hqueue] at hsettled
  have hothers : q.weight (g₁.fire x).ticksLeft = q.weight g.ticksLeft := by
    refine congrArg List.sum (List.map_congr_left fun y hy => ?_)
    have hne : y.key ≠ x.key := fun h => hkeys.1 (h ▸ List.mem_map_of_mem hy)
    rw [← hticks, ticksLeft, ticksLeft, effect?_fire_of_ne g₁ hne]
  rw [hfire, hsettled, weight_of_pop _ hq due, ← hothers, ← hticks]
  have hpos := g₁.ticksLeft_pos x
  have hle : (settled q (g₁.world.fire g₁.settings x.timer).2.1
      (nextTimer (g₁.world.fire g₁.settings x.timer).2.2) x.due).weight (g₁.fire x).ticksLeft ≤
        (g₁.ticksLeft x - 1) + q.weight (g₁.fire x).ticksLeft :=
    weight_settled_le _ hq' fun y hasked _ _ =>
      Nat.le_pred_of_lt (ticksLeft_asked hsound hmortal hasked)
  omega

/-- Without endless effects the loop comes to its end, be it the end of time. -/
theorem advanced_of_mortal (hg : g.Sound) (hq : g.queue.Sound) (mortal : g.Mortal) (d : Nat) :
    ∃ n g', Advanced d g n g' ∧ n ≤ UInt32.size * g.queue.size := by
  have hnext : ∀ (g : Engine) (q : TimerQueue) (x : Entry),
      g.Sound ∧ g.queue.Sound ∧ g.Mortal → g.queue.pop d = (q, some x) →
      ((g.fireNext q x).Sound ∧ (g.fireNext q x).queue.Sound ∧ (g.fireNext q x).Mortal) ∧
        (g.fireNext q x).queue.weight (g.fireNext q x).ticksLeft < g.queue.weight g.ticksLeft := by
    rintro g q x ⟨hg, hq, mortal⟩ due
    have hmortal : (g.fireNext q x).Mortal :=
      Mortal.fire (g := { g with queue := q, clock := g.clock.advanceTo x.due }) mortal hg x
    exact ⟨⟨hg.steps (steps_acts hg (acts_fireNext due)), sound_fireNext hq due, hmortal⟩,
      weight_fireNext_lt hg hq mortal due⟩
  obtain ⟨n, g', h, hle⟩ := exists_advanced (fun g => g.Sound ∧ g.queue.Sound ∧ g.Mortal)
    (fun g => g.queue.weight g.ticksLeft) hnext ⟨hg, hq, mortal⟩
  exact ⟨n, g', h, hle.trans (weight_le _ hq fun x _ => g.ticksLeft_le x)⟩

/-! ### Runs and replays -/

/-- Advancing comes to an end before the end of time, and there if nothing is endless. -/
theorem Prepared.advanced_iff (h : g.Prepared) (hd : d ≤ lastMoment) :
    (∃ n g', Advanced d g n g') ↔ d < lastMoment ∨ g.Mortal := by
  constructor
  · rintro ⟨n, g', hadvanced⟩
    rcases Nat.lt_or_eq_of_le hd with hlt | rfl
    · exact .inl hlt
    · refine .inr fun id e he => ?_
      by_contra hendless
      exact h.not_advanced he (by simpa using hendless) hadvanced
  · rintro (hlt | mortal)
    · obtain ⟨n, g', hadvanced, -⟩ := advanced_of_lt h.timed.queue hlt
      exact ⟨n, g', hadvanced⟩
    · obtain ⟨n, g', hadvanced, -⟩ := advanced_of_mortal h.sound h.timed.queue mortal d
      exact ⟨n, g', hadvanced⟩

/-- Where the loop comes to its end the fuel of an advance lasts until then. -/
theorem Prepared.advanceTo_eq (h : g.Prepared) (hd : d ≤ lastMoment)
    (hadvanced : Advanced d g n g') :
    g.advanceTo d = ({ g' with clock := g'.clock.advanceTo d }, n) := by
  have hfuel : n ≤ g.timersUpTo d := by
    rcases Nat.lt_or_eq_of_le hd with hlt | hlast
    · obtain ⟨m, g'', hadvanced', hle⟩ := advanced_of_lt h.timed.queue hlt
      exact (hadvanced.unique hadvanced').1 ▸ hle
    · have mortal := ((h.advanced_iff hd).1 ⟨n, g', hadvanced⟩).resolve_left (by omega)
      obtain ⟨m, g'', hadvanced', hle⟩ := advanced_of_mortal h.sound h.timed.queue mortal d
      refine (hadvanced.unique hadvanced').1 ▸ hle.trans (Nat.mul_le_mul_right _ ?_)
      rw [hlast]
      decide
  simp only [advanceTo, hadvanced.fireAll_eq 0 hfuel, Nat.zero_add]

/-- **Whether advancing comes to an end.**  After every run an advance to a moment before the last
one fires finitely many timers, as many as it answers; and one to the last moment does so exactly if
no actor bears an endless effect.  Every wait of a replay without workers is such an advance. -/
theorem advanced_run (codex : Codex) (start : UInt64) :
    (∀ (settings : Settings) (manual : Bool) (capacity : Nat) (ops : List Op) (d : UInt64),
      let g := (opened settings codex start manual capacity).run ops
      ((∃ n g', Advanced d.toNat g n g') ↔ d.toNat < lastMoment ∨ g.Mortal) ∧
        ∀ n g', Advanced d.toNat g n g' →
          g.advanceTo d.toNat = ({ g' with clock := g'.clock.advanceTo d.toNat }, n)) ∧
    ∀ (c : Service.Config) (roster : List Profile) (s : Service) (actors : List CastMember)
      (before : List StatusEffects.Step) (ms : UInt64),
      Service.build c (some codex) ⟨start.toNat, true⟩ roster = .ok s → c.workers = 0 →
      let s' := ((s.cast actors).steps before).1
      let d := later s'.engine.now ms.toNat
      ((∃ n g', Advanced d s'.engine n g') ↔ d < lastMoment ∨ s'.engine.Mortal) ∧
        ∀ n g', Advanced d s'.engine n g' →
          s'.step (.wait ms) =
            ({ s' with engine := { g' with clock := g'.clock.advanceTo d } },
              [.advanced ms n]) := by
  constructor
  · intro settings manual capacity ops d g
    have hg := prepared_run settings codex start manual capacity ops
    have hd : d.toNat ≤ lastMoment := Nat.le_pred_of_lt d.toNat_lt_size
    exact ⟨hg.advanced_iff hd, fun n g' => hg.advanceTo_eq hd⟩
  · intro c roster s actors before ms hbuild hworkers s' d
    obtain ⟨hengine, hidle⟩ := Service.engine_build hbuild
    have hcast : (s.cast actors).workers = [] := hidle hworkers
    obtain ⟨ops, hrun, -⟩ := Service.exists_run_steps hcast before
    rw [Service.engine_cast, hengine, ← run_append, ← run_append] at hrun
    have hs' : s'.engine.Prepared := hrun ▸ prepared_run c.settings codex start true _ _
    have hd : d ≤ lastMoment := later_le_lastMoment _ _
    refine ⟨hs'.advanced_iff hd, fun n g' hadvanced => ?_⟩
    rw [Service.step_wait (Service.idle_steps hcast before), hs'.advanceTo_eq hd hadvanced]

/-- A hold runs out of ticks, however far the engine is advanced and however long a replay waits. -/
theorem advanced_run_hold :
    let g := (opened {} trialCodex 0 true 1).run [.enter 1, .cast 1 3]
    let c : Service.Config := { workers := 0 }
    (∃ n g', Advanced lastMoment g n g') ∧ (g.advanceTo lastMoment).2 = 4 ∧
      ∃ s, Service.build c (some trialCodex) {} [{ id := ⟨1⟩ }] = .ok s ∧
        let s' := ((s.cast []).steps [.cast ⟨1⟩ ⟨1⟩ ⟨2⟩ 1 0]).1
        ∃ n g', Advanced lastMoment s'.engine n g' := by
  intro g c
  obtain ⟨hrun, hreplay⟩ := advanced_run trialCodex 0
  obtain ⟨hends, -⟩ := hrun {} true 1 [.enter 1, .cast 1 3] 18446744073709551615
  refine ⟨hends.2 (.inr (mortal_of_forall (by decide +kernel))), by decide +kernel, _, rfl, ?_⟩
  have hlast : ∀ now, later now (18446744073709551615 : UInt64).toNat = lastMoment := fun now =>
    Nat.min_eq_right (Nat.le_add_left _ now)
  obtain ⟨hends', -⟩ := hreplay c [{ id := ⟨1⟩ }] _ [] [.cast ⟨1⟩ ⟨1⟩ ⟨2⟩ 1 0]
    18446744073709551615 rfl rfl
  rw [hlast] at hends'
  exact hends'.2 (.inr (mortal_of_forall (by decide +kernel)))

/-- A blessing that heals every second and never ends. -/
def evergreen : Template where
  id := ⟨1⟩
  name := "Evergreen"
  skill := ⟨1⟩
  kind := .periodic
  abnormalType := .buff
  tickInterval := 1000

/-- **Advancing need not come to an end.**  The blessing ticks on at the end of time. -/
theorem advanced_run_evergreen :
    let codex : Codex :=
      { templates := [evergreen], ids_nodup := by decide, routes_pos := by decide }
    let g := (opened {} codex 0 true 1).run [.enter 1, .cast 1 1]
    ¬ ∃ n g', Advanced lastMoment g n g' := by
  rintro codex g ⟨n, g', h⟩
  have hbears : g.Bears ⟨1⟩ { Effect.ofCast ⟨1⟩ evergreen ⟨1⟩ ⟨1⟩ none with phase := .active } :=
    ⟨_, rfl, rfl⟩
  exact (prepared_run {} codex 0 true 1 _).not_advanced hbears rfl h

end Engine

end StatusEffects
