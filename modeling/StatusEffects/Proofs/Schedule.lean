import StatusEffects.Proofs.Course
import StatusEffects.Proofs.Prepared

/-!
# The schedule of a running effect

An effect that ticks or expires has a timer at any time, and the moment this timer is due lays down
all that is to come: ticks at whole multiples of the interval from there, and the end with the last
of them, or right then if the effect does not tick.  Whatever else happens in the meantime, the
effect keeps to this schedule until it is removed or renewed.

## Main definitions

* `Effect.tickAt`, `Effect.ticksTold` : the moments of the ticks to come, and what is told of them.
* `Effect.ticksToCome` : the number of ticks to come.
* `Engine.Scheduled` : an effect has kept to its schedule since a moment.

## Main statements

* `Engine.Scheduled.act` : acts keep an effect to its schedule.
* `Engine.scheduled_run` : every effect that ticks or expires keeps to its schedule.
-/

namespace StatusEffects

namespace Effect

variable {e : Effect} {due n : Nat} {unit : UInt64} {t : Timer}

/-! ### Ticks to come -/

/-- The moment of the tick with a number, the first one being number zero and due at `due`. -/
def tickAt (e : Effect) (due j : Nat) : Nat := later due (j * e.template.tickInterval.toNat)

/-- What is told of the first `n` ticks to come. -/
def ticksTold (e : Effect) (id : ActorId) (due n : Nat) : List Stamped :=
  (List.range n).map fun j =>
    ⟨e.tickAt due j, .ticked id (countTick^[j + 1] e).summary e.params.power⟩

/-- The number of ticks to come of an effect that ticks, zero if there is no last one. -/
def ticksToCome (e : Effect) : Nat :=
  if e.goesOn then if e.isPermanent then 0 else max e.remaining.toNat 1 else 1

theorem tickAt_zero (h : due ≤ lastMoment) : e.tickAt due 0 = due := by
  simp only [tickAt, later]
  omega

theorem later_tickAt (e : Effect) (due j : Nat) :
    later (e.tickAt due j) e.template.tickInterval.toNat = e.tickAt due (j + 1) := by
  simp only [later, tickAt, Nat.add_mul]
  omega

theorem ticksTold_succ (e : Effect) (id : ActorId) (due n : Nat) :
    e.ticksTold id due (n + 1) = e.ticksTold id due n ++
      [⟨e.tickAt due n, .ticked id (countTick^[n + 1] e).summary e.params.power⟩] := by
  simp [ticksTold, List.range_succ]

/-- Ticks count, and leave the rest of the effect as it is. -/
structure Counted (e e' : Effect) : Prop where
  same : e.Same e'
  params : e'.params = e.params
  generation : e'.generation = e.generation

theorem counted_iterate (e : Effect) (n : Nat) : e.Counted (countTick^[n] e) := by
  induction n with
  | zero => exact ⟨⟨rfl, rfl, rfl, rfl, rfl, rfl⟩, rfl, rfl⟩
  | succ n ih =>
    rw [Function.iterate_succ_apply']
    exact ⟨⟨ih.same.id, ih.same.template, ih.same.caster, ih.same.target, ih.same.order,
      ih.same.phase⟩, ih.params, ih.generation⟩

/-- An effect that needs a timer needs one after every tick. -/
theorem exists_timer?_iterate (needed : e.timer? unit = some t) (n : Nat) :
    ∃ t', (countTick^[n] e).timer? unit = some t' := by
  have hcounted := counted_iterate e n
  have hactive := (of_timer? needed).2.2.2.1
  have hactive' : (countTick^[n] e).isActive = true := by rwa [isActive, ← hcounted.same.phase]
  refine Option.ne_none_iff_exists'.1 fun hnone => ?_
  rw [timer?_eq_none_iff hactive', ← hcounted.same.template, isPermanent, hcounted.params] at hnone
  rw [(timer?_eq_none_iff hactive).2 hnone] at needed
  cases needed

theorem remaining_iterate (timed : e.isPermanent = false) (n : Nat) :
    (countTick^[n] e).remaining.toNat = e.remaining.toNat - n := by
  induction n with
  | zero => rfl
  | succ n ih =>
    have hduration : (countTick^[n] e).params.duration ≠ 0 := by
      rw [(counted_iterate e n).params]
      simpa [isPermanent] using timed
    rw [Function.iterate_succ_apply', Cast.remaining_countTick fun h => absurd h hduration, ih]
    omega

theorem isExhausted_iterate (e : Effect) (n : Nat) :
    (countTick^[n] e).isExhausted = true ↔
      e.isPermanent = false ∧ e.remaining.toNat ≤ n := by
  have hpermanent : (countTick^[n] e).isPermanent = e.isPermanent := by
    simp only [isPermanent, (counted_iterate e n).params]
  cases h : e.isPermanent with
  | true => simp [isExhausted, hpermanent, h]
  | false =>
    have hremaining := remaining_iterate h n
    have hzero : (countTick^[n] e).remaining = 0 ↔ (countTick^[n] e).remaining.toNat = 0 :=
      ⟨fun h => by rw [h]; rfl, fun h => UInt32.toNat_inj.1 h⟩
    simp only [isExhausted, hpermanent, h, Bool.not_false, Bool.true_and, beq_iff_eq, hzero,
      true_and]
    omega

/-- A tick that leads to another one is not the last. -/
theorem lt_ticksToCome (goes : e.goesOn = true)
    (unexhausted : (countTick^[n + 1] e).isExhausted = false) :
    e.ticksToCome = 0 ∨ n + 1 < e.ticksToCome := by
  have hleft : ¬ (e.isPermanent = false ∧ e.remaining.toNat ≤ n + 1) := by
    rw [← isExhausted_iterate, unexhausted]
    exact Bool.false_ne_true
  simp only [ticksToCome, goes, if_true]
  split_ifs with hpermanent
  · exact .inl rfl
  · have hlt : n + 1 < e.remaining.toNat :=
      Nat.lt_of_not_le fun h => hleft ⟨by simpa using hpermanent, h⟩
    omega

/-- The tick that completes the effect is the last. -/
theorem eq_ticksToCome (unfinished : e.ticksToCome = 0 ∨ n < e.ticksToCome)
    (complete : e.goesOn = false ∨ (countTick^[n + 1] e).isExhausted = true) :
    n + 1 = e.ticksToCome := by
  cases goes : e.goesOn with
  | false =>
    simp only [ticksToCome, goes, Bool.false_eq_true, if_false] at unfinished ⊢
    omega
  | true =>
    obtain ⟨timed, hleft⟩ := (isExhausted_iterate e (n + 1)).1
      (complete.resolve_left (by simp [goes]))
    simp only [ticksToCome, goes, if_true, timed, Bool.false_eq_true, if_false] at unfinished ⊢
    omega

end Effect

namespace Engine

open Bearer

variable {g g' : Engine} {taken taken' : List Entry} {id : ActorId} {e : Effect} {due n : Nat}
  {base : List Stamped} {x : Entry}

/-! ### Keeping to a schedule -/

/-- How an effect ends whose next timer was due at `due` and that has ticked `n` times since. -/
inductive Closing (id : ActorId) (e : Effect) (due n : Nat) : Stamped → Prop
  /-- It is removed. -/
  | early (moment : Nat) {reason : EndReason} (unexpired : reason ≠ .expired)
      (unfinished : e.ticksToCome = 0 ∨ n < e.ticksToCome) :
      Closing id e due n ⟨moment, .ended id (Effect.countTick^[n] e).summary reason⟩
  /-- It ends with its last tick. -/
  | last {m : Nat} (periodic : e.template.isPeriodic = true) (tick : n = m + 1)
      (done : n = e.ticksToCome) :
      Closing id e due n
        ⟨e.tickAt due m, .ended id (Effect.countTick^[n] e).summary .expired⟩
  /-- Its duration is over. -/
  | expiry (silent : e.template.isPeriodic = false) (tickless : n = 0) :
      Closing id e due n ⟨due, .ended id e.summary .expired⟩

/-- An effect of an actor, whose next timer was due at `due` when `base` had been published about
it, has kept to its schedule. -/
inductive Scheduled (id : ActorId) (e : Effect) (due : Nat) (base : List Stamped) (g : Engine)
    (taken : List Entry) : Prop
  /-- It has ticked `n` times and waits for its next timer. -/
  | runs {n : Nat} (bears : g.Bears id (Effect.countTick^[n] e))
      (news : g.news (id, e.id) = base ++ e.ticksTold id due n)
      (waits : ∃ x ∈ g.queue.pending ++ taken, x.key = (id, e.id) ∧ x.due = e.tickAt due n)
      (unfinished : e.ticksToCome = 0 ∨ n < e.ticksToCome)
      (silent : e.template.isPeriodic = false → n = 0)
  /-- It has ticked `n` times and ended. -/
  | ended {n : Nat} {s : Stamped} (news : g.news (id, e.id) = base ++ (e.ticksTold id due n ++ [s]))
      (closing : Closing id e due n s) (silent : e.template.isPeriodic = false → n = 0)
  /-- It has been renewed. -/
  | renewed {h : List Stamped} {s : Stamped} (news : g.news (id, e.id) = base ++ h) (mem : s ∈ h)
      (refresh : s.event.isRefresh = true)

namespace Scheduled

theorem of_needed {t : Timer} (hg : g.Prepared) (he : g.Bears id e)
    (needed : e.timer? g.settings.expiryUnit = some t) :
    ∃ x ∈ g.queue.pending, x.key = (id, e.id) ∧
      Scheduled id e x.due (g.news (id, e.id)) g [] := by
  obtain ⟨x, hx, hkey, -⟩ := exists_timer hg.sound hg.timed he needed
  rw [List.append_nil] at hx
  refine ⟨x, hx, hkey, .runs (n := 0) he (List.append_nil _).symm ?_ (by omega) fun _ => rfl⟩
  exact ⟨x, List.mem_append_left _ hx, hkey, (Effect.tickAt_zero (hg.due x hx)).symm⟩

/-- What comes of the timer of an effect that has kept to its schedule. -/
theorem fired {r : Reply} {t : Timer} (hg' : g'.Sound) (ht' : Timed g' taken')
    (hsettings : g'.settings = g.settings)
    (needed : (Effect.countTick^[n] e).timer? g.settings.expiryUnit = some t)
    (meets : x.timer.Meets t) (hdue : x.due = e.tickAt due n) (bound : due ≤ lastMoment)
    (hnews : g.news (id, e.id) = base ++ e.ticksTold id due n)
    (unfinished : e.ticksToCome = 0 ∨ n < e.ticksToCome)
    (silent : e.template.isPeriodic = false → n = 0)
    (replies : (Effect.countTick^[n] e).Replies g.settings.expiryUnit x.timer r)
    (bears : ∀ e', r.left (Effect.countTick^[n] e) = some e' → g'.Bears id e')
    (news : g'.news (id, e.id) =
      g.news (id, e.id) ++ (r.events id (Effect.countTick^[n] e)).map (.mk x.due))
    (timers : ∀ y ∈ g'.queue.pending ++ taken', y.key = (id, e.id) →
      ∃ next, nextTimer r.answer = some next ∧ y.timer = next ∧ y.due = later x.due next.delay) :
    Scheduled id e due base g' taken' := by
  have hcounted := Effect.counted_iterate e n
  have hcounted' := Effect.counted_iterate e (n + 1)
  have heeded := Effect.heeds_of_meets needed meets
  have hsucc : (Effect.countTick^[n] e).countTick = Effect.countTick^[n + 1] e :=
    (Function.iterate_succ_apply' Effect.countTick n e).symm
  have hperiodic : x.timer.kind = .tick → e.template.isPeriodic = true := fun tick =>
    hcounted.same.template ▸ (Effect.heeds_iff.1 heeded).2.2 tick
  have hticking : ∀ {p : Prop}, x.timer.kind = .tick → e.template.isPeriodic = false → p :=
    fun tick hsilent => absurd (hperiodic tick) (by simp [hsilent])
  -- one more tick is told
  have hsnoc : e.ticksTold id due n ++ [⟨x.due, .ticked id (Effect.countTick^[n + 1] e).summary
      (Effect.countTick^[n + 1] e).params.power⟩] = e.ticksTold id due (n + 1) := by
    rw [Effect.ticksTold_succ, hdue, hcounted'.params]
  rw [hnews, List.append_assoc] at news
  cases replies with
  | stale unheeded =>
    rw [heeded] at unheeded
    cases unheeded
  | @again next _ tick goes unexhausted asked =>
    rw [hsucc] at unexhausted asked
    have hbears : g'.Bears id (Effect.countTick^[n + 1] e) := bears _ (congrArg some hsucc)
    have hgoes : e.goesOn = true := by
      rw [Effect.goesOn, hcounted.same.template]
      exact goes
    have hdelay : next.delay = e.template.tickInterval.toNat := by
      have hactive := (Effect.of_timer? asked).2.2.2.1
      rw [Effect.timer?_of_periodic hactive (hcounted'.same.template ▸ hperiodic tick)] at asked
      rw [← Option.some.inj asked, ← hcounted'.same.template]
    obtain ⟨y, hy, hykey, -⟩ := exists_timer hg' ht' hbears (hsettings ▸ asked)
    rw [← hcounted'.same.id] at hykey
    obtain ⟨next', hnext, -, hydue⟩ := timers y hy hykey
    obtain rfl := Option.some.inj hnext
    refine .runs hbears ?_ ⟨y, hy, hykey, ?_⟩ (Effect.lt_ticksToCome hgoes unexhausted)
      (hticking tick)
    · rw [news, ← hsnoc, ← hsucc]
      rfl
    · rw [hydue, hdelay, hdue, Effect.later_tickAt]
  | last _ tick complete =>
    rw [hsucc] at complete
    have hcomplete : e.goesOn = false ∨ (Effect.countTick^[n + 1] e).isExhausted = true := by
      rw [Effect.goesOn, hcounted.same.template]
      exact complete
    refine .ended ?_ (.last (hperiodic tick) rfl (Effect.eq_ticksToCome unfinished hcomplete))
      (hticking tick)
    rw [news, ← hsnoc, ← hsucc, ← hdue, List.append_assoc]
    rfl
  | ends _ expire =>
    have hkind : t.kind = .expire := meets.kind ▸ expire
    have hsilent : e.template.isPeriodic = false := by
      by_contra hne
      have hactive := (Effect.of_timer? needed).2.2.2.1
      rw [Effect.timer?_of_periodic hactive
        (hcounted.same.template ▸ Bool.eq_true_of_not_eq_false hne)] at needed
      rw [← Option.some.inj needed] at hkind
      cases hkind
    have hzero := silent hsilent
    subst hzero
    refine .ended (n := 0) ?_ (.expiry hsilent rfl) silent
    rw [news, hdue, Effect.tickAt_zero bound]
    rfl

/-- **Acts keep an effect to its schedule.** -/
theorem act {t : Timer} (ho : Orderly g taken) (bound : due ≤ lastMoment)
    (needed : e.timer? g.settings.expiryUnit = some t)
    (hs : Scheduled id e due base g taken) (hact : Act (g, taken) (g', taken')) :
    Scheduled id e due base g' taken' := by
  have hsteps := steps_act ho.sound hact
  have ho' := ho.act hact
  have hsettings := settings_steps hsteps
  cases hs with
  | @runs n bears hnews waits unfinished silent =>
    have hid : e.id = (Effect.countTick^[n] e).id := (Effect.counted_iterate e n).same.id
    obtain ⟨t, needed⟩ := Effect.exists_timer?_iterate needed n
    obtain ⟨x, hx, hkey, hdue⟩ := waits
    cases (deed_act ho.sound ho.timed hact).fate ho.sound ho.timed bears with
    | kept bears' news timers =>
      rw [← hid] at news timers
      obtain ⟨y, hy, hykey, -⟩ := exists_timer ho'.sound ho'.timed bears' (hsettings ▸ needed)
      rw [← hid] at hykey
      obtain rfl := ho.timed.unique (timers y hy hykey) hx (hykey.trans hkey.symm)
      exact .runs bears' (news.trans hnews) ⟨y, hy, hykey, hdue⟩ unfinished silent
    | @parted moment reason unexpired news _ =>
      rw [← hid, hnews, List.append_assoc] at news
      exact .ended news (.early moment unexpired unfinished) silent
    | @renewed moment params adopt _ feed _ =>
      have hsnoc := news_of_feed feed (id, e.id)
      rw [hnews, List.append_assoc] at hsnoc
      let renewal := ((Effect.countTick^[n] e).refresh params adopt).summary
      refine .renewed hsnoc (s := ⟨moment, .refreshed id renewal⟩) (List.mem_append_right _ ?_) rfl
      simp [Event.actor, Event.effect, renewal, Effect.summary, Effect.refresh, hid]
    | @fired y r ykey first replies bears' news _ timers =>
      rw [← hid] at ykey news timers
      have hy : y ∈ g.queue.pending ++ taken := first ▸ List.mem_append_right _ List.mem_cons_self
      obtain rfl := ho.timed.unique hy hx (ykey.trans hkey.symm)
      -- the timer that the effect needs is the only one it has
      obtain ⟨z, hz, hzkey, meets⟩ := exists_timer ho.sound ho.timed bears needed
      obtain rfl := ho.timed.unique hz hx (by rw [hzkey, hkey, hid])
      exact fired ho'.sound ho'.timed hsettings needed meets hdue bound hnews unfinished silent
        replies bears' news timers
  | @ended n s news closing silent =>
    have hmem : s ∈ g.news (id, e.id) := by
      rw [news]
      exact List.mem_append_right _ (List.mem_append_right _ List.mem_cons_self)
    have hend : s.event.endReason ≠ none := by
      cases closing <;> exact Option.some_ne_none _
    exact .ended ((news_of_ended hsteps ho'.chronicled hmem hend).trans news) closing silent
  | @renewed h s news mem refresh =>
    obtain ⟨more, hmore, -⟩ := journal_steps hsteps
    have hnews := news_of_journal hmore (id, e.id)
    rw [news, List.append_assoc] at hnews
    exact .renewed hnews (List.mem_append_left _ mem) refresh

theorem acts {t : Timer} {s s' : Engine × List Entry} (ho : Orderly s.1 s.2)
    (bound : due ≤ lastMoment) (needed : e.timer? s.1.settings.expiryUnit = some t)
    (hs : Scheduled id e due base s.1 s.2) (h : Acts s s') :
    Scheduled id e due base s'.1 s'.2 := by
  induction h with
  | refl => exact hs
  | @tail s₁ s₂ hacts hact ih =>
    have hsettings : s₁.1.settings = s.1.settings := settings_steps (steps_acts ho.sound hacts)
    exact ih.act (ho.acts hacts) bound (hsettings ▸ needed) hact

end Scheduled

/-- **Every effect that ticks or expires keeps to its schedule**, which the timer it has at a moment
lays down, in whatever comes later. -/
theorem scheduled_run {t : Timer} (ho : Orderly g []) (hg : g.Prepared) (he : g.Bears id e)
    (needed : e.timer? g.settings.expiryUnit = some t) :
    ∃ x ∈ g.queue.pending, x.key = (id, e.id) ∧
      ∀ later, Scheduled id e x.due (g.news (id, e.id)) (g.run later) [] := by
  obtain ⟨x, hx, hkey, hs⟩ := Scheduled.of_needed hg he needed
  refine ⟨x, hx, hkey, fun later => ?_⟩
  have hacts : Acts (g, []) (g.run later, []) := acts_run g later
  exact hs.acts ho (hg.due x hx) needed hacts

end Engine

end StatusEffects
