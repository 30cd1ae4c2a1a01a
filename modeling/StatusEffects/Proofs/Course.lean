import StatusEffects.Proofs.Cast
import StatusEffects.Proofs.Draining

/-!
# The course of an effect

From its last cast on an effect keeps to a course that the cast has laid down.  It ticks at fixed
moments, counted from the cast and not from the moments its timers happen to be fired at, and it ends
by itself with its last tick, or when its duration is over if it does not tick.  Timers may be fired
late and in batches, and whatever becomes of other effects has no part in it.

## Main definitions

* `Cast.tickAt`, `Cast.endAt` : the moments of the ticks and of the end.
* `Cast.Punctual` : what is published about an effect since a cast keeps to these moments.
* `Engine.Course` : how far the effect of a cast has got.

## Main statements

* `Cast.Runs.again`, `Cast.Runs.last` : a tick that leads to another one, and the last.
* `Engine.Course.act` : acts keep an effect on its course.
* `Engine.course_apply` : a request that publishes a cast sets its effect on its course.
* `Engine.course_run` : every effect keeps to the course of its last cast.
-/

namespace StatusEffects

/-- The strength of a tick. -/
def Event.magnitude? : Event → Option Int32
  | .ticked _ _ magnitude => some magnitude
  | .started _ _ | .refreshed _ _ | .ended _ _ _ => none

/-- What there is to a tick. -/
def Stamped.beat (s : Stamped) : Nat × Option Int32 := (s.moment, s.event.magnitude?)

namespace Cast

variable {c : Cast} {m : Nat} {e : Effect} {h : List Stamped} {s : Stamped} {t x : Timer}

/-! ### The course -/

/-- The moment of the tick with a number, the first one being one interval after the cast. -/
def tickAt (c : Cast) (j : Nat) : Nat := min (c.moment + j * c.interval) lastMoment

/-- The moment the duration is over. -/
def endAt (c : Cast) : Nat := min (c.moment + c.duration * c.unit.toNat) lastMoment

/-- The first ticks. -/
def beats (c : Cast) (m : Nat) : List (Nat × Option Int32) :=
  (List.range m).map fun j => (c.tickAt (j + 1), some c.params.power)

/-- What has been published about an effect since the cast keeps to the course. -/
structure Punctual (c : Cast) (h : List Stamped) : Prop where
  /-- Each tick comes at its moment and with the strength of the cast. -/
  tick : ∀ j s, (h.filter (·.event.isTick))[j]? = some s →
    s.moment = c.tickAt (j + 1) ∧ s.event.magnitude? = some c.params.power
  /-- No tick follows the last one. -/
  bound : 0 < c.total → (h.filter (·.event.isTick)).length ≤ c.total
  /-- An effect that ticks has expired if it has had its last tick, and only then. -/
  expired : c.template.isPeriodic = true → ((∃ s ∈ h, s.event.endReason = some .expired) ↔
    0 < c.total ∧ (h.filter (·.event.isTick)).length = c.total)
  /-- It expires with that tick and at its moment. -/
  together : c.template.isPeriodic = true → ∀ s ∈ h, s.event.endReason = some .expired →
    ∃ earlier tick, h = earlier ++ [tick, s] ∧ tick.event.isTick = true ∧ tick.moment = s.moment
  /-- An effect without an interval has no ticks. -/
  silent : c.template.isPeriodic = false → h.filter (·.event.isTick) = []
  /-- It expires when its duration is over, and never without one. -/
  expiry : c.template.isPeriodic = false → ∀ s ∈ h, s.event.endReason = some .expired →
    0 < c.duration ∧ s.moment = c.endAt

theorem beats_succ (c : Cast) (m : Nat) :
    c.beats (m + 1) = c.beats m ++ [(c.tickAt (m + 1), some c.params.power)] := by
  simp [beats, List.range_succ]

theorem length_of_beats (hb : h.map Stamped.beat = c.beats m) : h.length = m := by
  simpa [beats] using congrArg List.length hb

theorem tick_of_beats (hb : h.map Stamped.beat = c.beats m) {j : Nat} (hj : h[j]? = some s) :
    s.moment = c.tickAt (j + 1) ∧ s.event.magnitude? = some c.params.power := by
  have hbeat : (c.beats m)[j]? = some s.beat := by rw [← hb, List.getElem?_map, hj]; rfl
  simp only [beats, List.getElem?_map, Option.map_eq_some_iff] at hbeat
  obtain ⟨i, hi, hbeat⟩ := hbeat
  obtain ⟨hlt, rfl⟩ := List.getElem?_eq_some_iff.1 hi
  rw [List.getElem_range] at hbeat
  exact ⟨(congrArg Prod.fst hbeat).symm, (congrArg Prod.snd hbeat).symm⟩

/-- What has a strength is a tick, and ends nothing. -/
theorem isTick_of_beats (hb : h.map Stamped.beat = c.beats m) (hs : s ∈ h) :
    s.event.isTick = true ∧ s.event.endReason = none := by
  obtain ⟨j, hj⟩ := List.getElem?_of_mem hs
  obtain ⟨-, hmagnitude⟩ := tick_of_beats hb hj
  cases hev : s.event with
  | ticked => exact ⟨rfl, rfl⟩
  | started | refreshed | ended =>
    rw [hev] at hmagnitude
    cases hmagnitude

theorem filter_of_beats (hb : h.map Stamped.beat = c.beats m) :
    h.filter (·.event.isTick) = h :=
  List.filter_eq_self.2 fun _ hs => (isTick_of_beats hb hs).1

/-- An effect that has not expired, and need not have, is on its course. -/
theorem punctual_of_unexpired (hb : (h.filter (·.event.isTick)).map Stamped.beat = c.beats m)
    (unexpired : ∀ s ∈ h, s.event.endReason ≠ some .expired)
    (unfinished : c.total = 0 ∨ m < c.total) (silent : c.template.isPeriodic = false → m = 0) :
    c.Punctual h := by
  have hlength := length_of_beats hb
  refine ⟨fun j s hj => tick_of_beats hb hj, fun hpos => ?_, fun _ => ?_,
    fun _ s hs hend => absurd hend (unexpired s hs), fun hsilent => ?_,
    fun _ s hs hend => absurd hend (unexpired s hs)⟩
  · omega
  · exact ⟨fun ⟨s, hs, hend⟩ => absurd hend (unexpired s hs), fun h => by omega⟩
  · exact List.length_eq_zero_iff.1 (hlength.trans (silent hsilent))

theorem punctual_of_beats (hb : h.map Stamped.beat = c.beats m)
    (unfinished : c.total = 0 ∨ m < c.total) (silent : c.template.isPeriodic = false → m = 0) :
    c.Punctual h := by
  refine punctual_of_unexpired ((filter_of_beats hb).symm ▸ hb) (fun s hs => ?_) unfinished silent
  rw [(isTick_of_beats hb hs).2]
  exact fun h => nomatch h

/-- How an effect that has ticked `m` times ends. -/
inductive Ends (c : Cast) (m : Nat) (s : Stamped) : Prop
  /-- It is removed. -/
  | early {id : ActorId} {e : Summary} {reason : EndReason} (event : s.event = .ended id e reason)
      (unexpired : reason ≠ .expired) (unfinished : c.total = 0 ∨ m < c.total)
      (silent : c.template.isPeriodic = false → m = 0)
  /-- It ends with its last tick. -/
  | last {id : ActorId} {e : Summary} (event : s.event = .ended id e .expired)
      (periodic : c.template.isPeriodic = true) (pos : 0 < m) (done : m = c.total)
      (moment : s.moment = c.tickAt m)
  /-- Its duration is over. -/
  | expiry {id : ActorId} {e : Summary} (event : s.event = .ended id e .expired)
      (silent : c.template.isPeriodic = false) (tickless : m = 0) (pos : 0 < c.duration)
      (moment : s.moment = c.endAt)

theorem Ends.isTick_eq_false (hs : c.Ends m s) : s.event.isTick = false := by
  cases hs with
  | early event | last event | expiry event =>
    rw [event]
    rfl

theorem Ends.endReason_ne_none (hs : c.Ends m s) : s.event.endReason ≠ none := by
  cases hs with
  | early event | last event | expiry event =>
    rw [event]
    exact Option.some_ne_none _

/-- An effect that has ended was on its course. -/
theorem punctual_of_ends (hb : h.map Stamped.beat = c.beats m) (hs : c.Ends m s) :
    c.Punctual (h ++ [s]) := by
  have hlength := length_of_beats hb
  have hticks : (h ++ [s]).filter (·.event.isTick) = h := by
    rw [List.filter_append, filter_of_beats hb, List.filter_singleton, hs.isTick_eq_false]
    exact List.append_nil h
  have hb' : ((h ++ [s]).filter (·.event.isTick)).map Stamped.beat = c.beats m := hticks.symm ▸ hb
  have honly : ∀ y ∈ h ++ [s], y.event.endReason = some .expired → y = s := fun y hy hexpired => by
    rcases List.mem_append.1 hy with hy | hy
    · rw [(isTick_of_beats hb hy).2] at hexpired
      cases hexpired
    · exact List.mem_singleton.1 hy
  cases hs with
  | early event unexpired unfinished silent =>
    refine punctual_of_unexpired hb' (fun y hy hexpired => ?_) unfinished silent
    rw [honly y hy hexpired, event] at hexpired
    exact unexpired (Option.some.inj hexpired)
  | last event periodic pos done moment =>
    have hsilent : ∀ {p : Prop}, c.template.isPeriodic = false → p := fun h => by
      rw [periodic] at h
      cases h
    refine ⟨fun j y hj => tick_of_beats hb' hj, fun _ => ?_, fun _ => ?_,
      fun _ y hy hexpired => ?_, hsilent, hsilent⟩
    · rw [hticks]
      omega
    · rw [hticks, hlength]
      refine ⟨fun _ => ⟨by omega, done⟩, fun _ => ?_⟩
      exact ⟨s, List.mem_append_right _ List.mem_cons_self, by rw [event]; rfl⟩
    · obtain rfl := honly y hy hexpired
      rcases h.eq_nil_or_concat' with rfl | ⟨earlier, tick, rfl⟩
      · rw [List.length_nil] at hlength
        omega
      · rw [List.length_append, List.length_singleton] at hlength
        obtain ⟨hmoment, -⟩ := tick_of_beats hb (j := earlier.length) (s := tick) (by simp)
        have htick := (isTick_of_beats hb (List.mem_append_right _ List.mem_cons_self)).1
        refine ⟨earlier, tick, List.append_assoc _ _ _, htick, ?_⟩
        rw [hmoment, moment, hlength]
  | expiry event silent tickless pos moment =>
    have hperiodic : ∀ {p : Prop}, c.template.isPeriodic = true → p := fun h => by
      rw [silent] at h
      cases h
    refine ⟨fun j y hj => tick_of_beats hb' hj, fun _ => ?_, hperiodic, hperiodic, fun _ => ?_,
      fun _ y hy hexpired => ?_⟩
    · rw [hticks]
      omega
    · rw [hticks]
      exact List.length_eq_zero_iff.1 (hlength.trans tickless)
    · rw [honly y hy hexpired]
      exact ⟨pos, moment⟩

/-! ### Counting ticks -/

/-- A tick counts down what is left, unless there is nothing to count down. -/
theorem remaining_countTick (h : e.params.duration = 0 → e.remaining = 0) :
    e.countTick.remaining.toNat = e.remaining.toNat - 1 := by
  simp only [Effect.countTick, Effect.isPermanent, beq_iff_eq]
  split_ifs with hpermanent hzero
  · rw [h hpermanent]
    rfl
  · rw [hzero]
    rfl
  · have hone : (1 : UInt32) ≤ e.remaining := by
      have hpos : e.remaining.toNat ≠ 0 := fun hz => hzero (UInt32.toNat_inj.1 hz)
      exact UInt32.le_iff_toNat_le.2 (Nat.one_le_iff_ne_zero.2 hpos)
    rw [UInt32.toNat_sub_of_le _ _ hone]
    rfl

theorem isExhausted_iff :
    e.isExhausted = true ↔ e.params.duration.toNat ≠ 0 ∧ e.remaining.toNat = 0 := by
  have hzero : ∀ n : UInt32, n.toNat = 0 ↔ n = 0 := fun n =>
    ⟨fun h => UInt32.toNat_inj.1 h, fun h => h ▸ rfl⟩
  simp [Effect.isExhausted, Effect.isPermanent, hzero]

namespace Runs

theorem toNat_duration (hr : c.Runs m e) : e.params.duration.toNat = c.duration :=
  congrArg UInt32.toNat hr.duration

theorem remaining_tick (hr : c.Runs m e) :
    e.countTick.remaining.toNat = c.duration - (m + 1) := by
  have hremaining := hr.remaining
  rw [remaining_countTick, hremaining]
  · omega
  · intro hzero
    have hduration : c.duration = 0 := by rw [← hr.toNat_duration, hzero]; rfl
    refine UInt32.toNat_inj.1 ?_
    rw [hremaining, hduration, Nat.zero_sub]
    rfl

/-- **A tick that leads to another one.** -/
theorem again (hr : c.Runs m e) (goesOn : e.goesOn = true)
    (unexhausted : e.countTick.isExhausted = false) (periodic : e.template.isPeriodic = true) :
    c.Runs (m + 1) e.countTick where
  active := hr.active
  template := hr.template
  duration := hr.duration
  power := hr.power
  remaining := hr.remaining_tick
  unfinished := by
    have hkind : c.template.kind ≠ .recovery := by
      rw [← hr.template]
      simpa [Effect.goesOn] using goesOn
    have hleft : ¬ (e.countTick.params.duration.toNat ≠ 0 ∧ e.countTick.remaining.toNat = 0) := by
      rw [← isExhausted_iff, unexhausted]
      exact Bool.false_ne_true
    rw [hr.remaining_tick] at hleft
    have hduration : e.countTick.params.duration.toNat = c.duration := hr.toNat_duration
    simp only [total, if_neg hkind]
    omega
  silent hsilent := by
    rw [← hr.template, periodic] at hsilent
    cases hsilent

/-- **The last tick.** -/
theorem last (hr : c.Runs m e)
    (complete : e.goesOn = false ∨ e.countTick.isExhausted = true) : m + 1 = c.total := by
  have hunfinished := hr.unfinished
  by_cases hkind : c.template.kind = .recovery
  · -- recovery is complete with its first tick
    simp only [total, if_pos hkind] at hunfinished ⊢
    omega
  · have hgoes : e.goesOn = true := by
      rw [← hr.template] at hkind
      simpa [Effect.goesOn] using hkind
    have hleft := isExhausted_iff.1 (complete.resolve_left (by simp [hgoes]))
    have hduration : e.countTick.params.duration.toNat = c.duration := hr.toNat_duration
    rw [hr.remaining_tick] at hleft
    simp only [total, if_neg hkind] at hunfinished ⊢
    omega

end Runs

/-! ### Timers on the course -/

/-- The moment the next timer is due. -/
def dueAt (c : Cast) (m : Nat) : Nat :=
  if c.template.isPeriodic then c.tickAt (m + 1) else c.endAt

theorem later_tickAt (c : Cast) (m : Nat) :
    later (c.tickAt (m + 1)) c.interval = c.tickAt (m + 2) := by
  simp only [later, tickAt, Nat.add_mul]
  omega

namespace Runs

/-- The timer that an effect needs is one for its next tick, or one for its end. -/
theorem of_timer? (hr : c.Runs m e) (needed : e.timer? c.unit = some t) :
    (c.template.isPeriodic = true ∧ t.kind = .tick ∧ t.delay = c.interval) ∨
      (c.template.isPeriodic = false ∧ t.kind = .expire ∧ 0 < c.duration ∧
        t.delay = min ((c.duration - m) * c.unit.toNat) lastMoment) := by
  simp only [Effect.timer?, hr.active, Bool.not_true, Bool.false_eq_true, if_false, hr.template]
    at needed
  split_ifs at needed with hperiodic hpermanent
  · cases needed
    exact .inl ⟨hperiodic, rfl, rfl⟩
  · cases needed
    have hpos : e.params.duration.toNat ≠ 0 := fun hzero =>
      hpermanent (by simpa [Effect.isPermanent] using UInt32.toNat_inj.1 hzero)
    rw [hr.toNat_duration] at hpos
    rw [← hr.remaining]
    exact .inr ⟨by simpa using hperiodic, rfl, Nat.pos_of_ne_zero hpos, rfl⟩

/-- An effect that has a duration needs a timer. -/
theorem isSome_timer? (hr : c.Runs m e) (pos : 0 < c.duration) :
    (e.timer? c.unit).isSome = true := by
  have hpermanent : e.isPermanent = false := by
    rw [← hr.toNat_duration] at pos
    refine beq_eq_false_iff_ne.2 fun hzero => ?_
    rw [hzero] at pos
    exact Nat.lt_irrefl _ pos
  simp only [Effect.timer?, hr.active, hpermanent, Bool.not_true, Bool.false_eq_true, if_false]
  split_ifs <;> rfl

/-- The timer that a cast asks for is due as the course has it. -/
theorem later_delay (hr : c.Runs 0 e) (needed : e.timer? c.unit = some t) :
    later c.moment t.delay = c.dueAt 0 := by
  rcases hr.of_timer? needed with ⟨hperiodic, -, hdelay⟩ | ⟨hsilent, -, -, hdelay⟩
  · simp only [dueAt, hperiodic, if_true, tickAt, later, hdelay, Nat.zero_add, Nat.one_mul]
  · simp only [dueAt, hsilent, Bool.false_eq_true, if_false, endAt, later, hdelay, Nat.sub_zero]
    omega

end Runs

end Cast

/-! ### Effects that have ended -/

namespace Engine

open Bearer

variable {g g' : Engine} {taken taken' : List Entry} {id : ActorId} {k : EffectId} {c : Cast}
  {base : List Stamped} {e e' : Effect} {x : Entry} {s : Stamped}

theorem news_of_journal {more : List Stamped}
    (h : g'.feed.journal.toList = g.feed.journal.toList ++ more) (key : ActorId × EffectId) :
    g'.news key = g.news key ++
      more.filter fun s => (s.event.actor, s.event.effect.id) == key := by
  simp only [news, h, List.filter_append]

/-- The news about an effect are part of its history. -/
theorem mem_history_of_news (hs : s ∈ g.news (id, k)) : s.event ∈ history k g.log := by
  obtain ⟨hs, hkey⟩ := List.mem_filter.1 hs
  rw [beq_iff_eq, Prod.mk.injEq] at hkey
  exact List.mem_filter.2 ⟨List.mem_map_of_mem hs, beq_iff_eq.2 hkey.2⟩

theorem news_of_ended (hsteps : Steps g g') (hc : Chronicled g'.nextEffect g'.shown g'.log)
    (hs : s ∈ g.news (id, k)) (hend : s.event.endReason ≠ none) :
    g'.news (id, k) = g.news (id, k) := by
  obtain ⟨more, hmore, -⟩ := journal_steps hsteps
  have hlog : g'.log = g.log ++ more.map (·.event) := by rw [log, hmore, List.map_append]; rfl
  have hrecorded := hc.recorded k
  rw [hlog, history, List.filter_append] at hrecorded
  have hnil := hrecorded.eq_nil_of_ended (mem_history_of_news hs) hend
  rw [news_of_journal hmore, List.filter_eq_nil_iff.2, List.append_nil]
  intro y hy hykey
  rw [beq_iff_eq, Prod.mk.injEq] at hykey
  refine List.filter_eq_nil_iff.1 hnil y.event (List.mem_map_of_mem hy) ?_
  exact beq_iff_eq.2 hykey.2

/-! ### How far an effect has got -/

theorem Bears.unique (h : g.Bears id e) (h' : g.Bears id e') (hid : e'.id = e.id) : e' = e := by
  obtain ⟨b, hb, hget⟩ := h
  obtain ⟨b', hb', hget'⟩ := h'
  obtain rfl := Option.some.inj (hb.symm.trans hb')
  rw [hid] at hget'
  exact Option.some.inj (hget'.symm.trans hget)

/-- How far the effect of a cast has got, where `base` was published about it up to the cast. -/
inductive Course (c : Cast) (id : ActorId) (k : EffectId) (base : List Stamped) (g : Engine)
    (taken : List Entry) : Prop
  /-- It has ticked `m` times, and whatever timer it heeds is due as the course has it. -/
  | runs {m : Nat} {e : Effect} {h : List Stamped} (bears : g.Bears id e) (key : e.id = k)
      (runs : c.Runs m e) (news : g.news (id, k) = base ++ h)
      (beats : h.map Stamped.beat = c.beats m)
      (timers : ∀ x ∈ g.queue.pending ++ taken, x.key = (id, k) → e.heeds x.timer = true →
        (∃ t, e.timer? c.unit = some t ∧ x.timer.Meets t) ∧ x.due = c.dueAt m)
  /-- It has ended after `m` ticks. -/
  | ended {m : Nat} {h : List Stamped} {s : Stamped} (news : g.news (id, k) = base ++ (h ++ [s]))
      (beats : h.map Stamped.beat = c.beats m) (ends : c.Ends m s)
  /-- It has been renewed by another cast. -/
  | renewed {h : List Stamped} {s : Stamped} (news : g.news (id, k) = base ++ h) (mem : s ∈ h)
      (refresh : s.event.isRefresh = true)

namespace Course

/-- What comes of a timer that the effect of a cast heeds. -/
theorem fired {m : Nat} {h : List Stamped} {r : Reply} {t : Timer} (hr : c.Runs m e)
    (hnews : g.news (id, e.id) = base ++ h) (hbeats : h.map Stamped.beat = c.beats m)
    (heeded : e.heeds x.timer = true) (needed : e.timer? c.unit = some t)
    (meets : x.timer.Meets t) (hdue : x.due = c.dueAt m) (replies : e.Replies c.unit x.timer r)
    (bears : ∀ e', r.left e = some e' → g'.Bears id e')
    (news : g'.news (id, e.id) = g.news (id, e.id) ++ (r.events id e).map (.mk x.due))
    (timers : ∀ y ∈ g'.queue.pending ++ taken', y.key = (id, e.id) →
      ∃ next, nextTimer r.answer = some next ∧ y.timer = next ∧ y.due = later x.due next.delay) :
    Course c id e.id base g' taken' := by
  rw [hnews, List.append_assoc] at news
  have hbeat : (Stamped.mk x.due (.ticked id e.countTick.summary e.countTick.params.power)).beat =
      (x.due, some c.params.power) := by
    rw [← hr.power]
    rfl
  -- a tick on time adds a beat
  have hsnoc : c.template.isPeriodic = true →
      (h ++ [Stamped.mk x.due (.ticked id e.countTick.summary e.countTick.params.power)]).map
        Stamped.beat = c.beats (m + 1) := fun hperiodic => by
    rw [List.map_append, List.map_singleton, hbeats, hbeat, hdue, Cast.dueAt, if_pos hperiodic,
      Cast.beats_succ]
  cases replies with
  | stale unheeded =>
    rw [heeded] at unheeded
    cases unheeded
  | @again next _ tick goesOn unexhausted asked =>
    obtain ⟨-, -, hticks⟩ := Effect.heeds_iff.1 heeded
    have hruns := hr.again goesOn unexhausted (hticks tick)
    have hperiodic : c.template.isPeriodic = true := hr.template ▸ hticks tick
    refine .runs (bears _ rfl) rfl hruns news (hsnoc hperiodic) fun y hy hkey _ => ?_
    obtain ⟨next', hnext, htimer, hydue⟩ := timers y hy hkey
    obtain rfl := Option.some.inj hnext
    refine ⟨⟨_, asked, htimer ▸ ⟨rfl, rfl, rfl, rfl⟩⟩, ?_⟩
    rcases hruns.of_timer? asked with ⟨-, -, hdelay⟩ | ⟨hsilent, -⟩
    · rw [hydue, hdelay, hdue, Cast.dueAt, Cast.dueAt, if_pos hperiodic, if_pos hperiodic,
        Cast.later_tickAt]
    · rw [hperiodic] at hsilent
      cases hsilent
  | last _ tick complete =>
    obtain ⟨-, -, hticks⟩ := Effect.heeds_iff.1 heeded
    have hperiodic : c.template.isPeriodic = true := hr.template ▸ hticks tick
    have hmoment : x.due = c.tickAt (m + 1) := by rw [hdue, Cast.dueAt, if_pos hperiodic]
    refine .ended ?_ (hsnoc hperiodic)
      (.last (s := ⟨x.due, .ended id e.countTick.summary .expired⟩) rfl hperiodic
        (Nat.succ_pos m) (hr.last complete) hmoment)
    rw [news, List.append_assoc]
    rfl
  | ends _ expire =>
    rcases hr.of_timer? needed with ⟨-, hkind, -⟩ | ⟨hsilent, -, hpos, -⟩
    · rw [← meets.kind, expire] at hkind
      cases hkind
    · have hmoment : x.due = c.endAt := by
        rw [hdue, Cast.dueAt, hsilent]
        rfl
      exact .ended news hbeats
        (.expiry (s := ⟨x.due, .ended id e.summary .expired⟩) rfl hsilent (hr.silent hsilent) hpos
          hmoment)

/-- **Acts keep an effect on its course.** -/
theorem act (ho : Orderly g taken) (hunit : g.settings.expiryUnit = c.unit)
    (hc : Course c id k base g taken) (hact : Act (g, taken) (g', taken')) :
    Course c id k base g' taken' := by
  have hsteps := steps_act ho.sound hact
  cases hc with
  | @runs m e h bears key hr hnews hbeats htimers =>
    subst key
    cases (deed_act ho.sound ho.timed hact).fate ho.sound ho.timed bears with
    | kept bears' news' timers' =>
      exact .runs bears' rfl hr (news'.trans hnews) hbeats fun x hx hkey =>
        htimers x (timers' x hx hkey) hkey
    | @parted moment reason unexpired news' _ =>
      refine .ended (s := ⟨moment, .ended id e.summary reason⟩) ?_ hbeats
        (.early rfl unexpired hr.unfinished hr.silent)
      rw [news', hnews, List.append_assoc]
    | @renewed moment params adopt _ feed _ =>
      have hsnoc := news_of_feed feed (id, e.id)
      rw [hnews, List.append_assoc] at hsnoc
      refine .renewed (s := ⟨moment, .refreshed id (e.refresh params adopt).summary⟩) hsnoc
        (List.mem_append_right _ ?_) rfl
      simp [Event.actor, Event.effect, Effect.summary, Effect.refresh]
    | @fired x r key first replies bears' news' _ timers' =>
      rw [hunit] at replies
      by_cases heeded : e.heeds x.timer = true
      · have hx : x ∈ g.queue.pending ++ taken := first ▸ List.mem_append_right _ List.mem_cons_self
        obtain ⟨⟨t, needed, meets⟩, hdue⟩ := htimers x hx key heeded
        exact fired hr hnews hbeats heeded needed meets hdue replies bears' news' timers'
      · -- a timer that is stale changes nothing
        cases replies with
        | stale =>
          refine .runs (bears' e rfl) rfl hr ?_ hbeats fun y hy hkey => ?_
          · rw [news', hnews]
            exact List.append_nil _
          · obtain ⟨_, hnext, -⟩ := timers' y hy hkey
            cases hnext
        | again heeds | last heeds | ends heeds => exact absurd heeds heeded
  | @ended m h s hnews hbeats ends =>
    have hmem : s ∈ g.news (id, k) := by
      rw [hnews]
      exact List.mem_append_right _ (List.mem_append_right _ List.mem_cons_self)
    have hchronicled := chronicled_steps ho.sound ho.chronicled hsteps
    have hend := ends.endReason_ne_none
    exact .ended ((news_of_ended hsteps hchronicled hmem hend).trans hnews) hbeats ends
  | @renewed h s hnews mem refresh =>
    obtain ⟨more, hmore, -⟩ := journal_steps hsteps
    have hnews' := news_of_journal hmore (id, k)
    rw [hnews, List.append_assoc] at hnews'
    exact .renewed hnews' (List.mem_append_left _ mem) refresh

theorem acts {s s' : Engine × List Entry} (ho : Orderly s.1 s.2)
    (hunit : s.1.settings.expiryUnit = c.unit) (hc : Course c id k base s.1 s.2)
    (h : Acts s s') : Course c id k base s'.1 s'.2 := by
  induction h with
  | refl => exact hc
  | @tail s₁ s₂ hacts hact ih =>
    have hsettings : s₁.1.settings = s.1.settings := settings_steps (steps_acts ho.sound hacts)
    exact ih.act (ho.acts hacts) (hsettings ▸ hunit) hact

end Course

/-! ### From a cast on -/

/-- Where an effect needs a timer, or has been renewed fewer times than there are generations, it
does not heed the timers that renewals have left behind. -/
theorem current_of_heeds {codex : Codex} {log : List Event} {unit : UInt64} {t : Timer}
    (hserves : e.Serves unit codex log t)
    (few : e.timer? unit ≠ none ∨ renewals e.id log < UInt32.size)
    (heeded : e.heeds t = true) : ∃ t', e.timer? unit = some t' ∧ t.Meets t' := by
  cases hserves with
  | current needed meets => exact ⟨_, needed, meets⟩
  | @left d needless _ _ pos bound behind =>
    have few := few.resolve_left (absurd needless)
    obtain ⟨hgeneration, -⟩ := Effect.heeds_iff.1 heeded
    have hmod := congrArg UInt32.toNat (hgeneration.symm.trans behind)
    have hlt := t.generation.toNat_lt
    rw [UInt32.toNat_add, UInt32.toNat_ofNat_of_lt' (Nat.lt_of_le_of_lt bound few)] at hmod
    have hsize : UInt32.size = 2 ^ 32 := rfl
    omega

/-- **A cast sets its effect on its course.** -/
theorem course_cast {t : Template} {r : Request} {a : Actor} {ev : Event} (ho : Orderly g [])
    (ho' : Orderly (g.applyTemplate t r).1 []) (passed : g.gate t r = .ok a)
    (hcasts : Casts ⟨t, t.resolve r.skill, g.now, g.settings.expiryUnit⟩ a.bearer
      (a.bearer.apply a.profile g.settings (g.incoming t r))
      (timerAsked (a.bearer.apply a.profile g.settings (g.incoming t r)).answer) ev)
    (few : 0 < (t.resolve r.skill).duration.toNat ∨
      renewals ev.effect.id (g.applyTemplate t r).1.log < UInt32.size) :
    Course ⟨t, t.resolve r.skill, g.now, g.settings.expiryUnit⟩ ev.actor ev.effect.id
      ((g.applyTemplate t r).1.news (ev.actor, ev.effect.id)) (g.applyTemplate t r).1 [] := by
  obtain ⟨e, hget, hruns, howner, hid, hasked⟩ := hcasts.left
  have found := get?_of_gate passed
  obtain ⟨hworld, -, hsettings⟩ := applyTemplate_of_gate passed
  obtain ⟨hself, -⟩ := bears_setBearer found hworld
  have hbears := hself e hget
  rw [hid] at few
  rw [howner, hid, (ho.sound.bearer found).owner]
  refine .runs hbears rfl hruns (List.append_nil _).symm rfl fun x hx hkey heeded => ?_
  obtain ⟨id, f, hf, hfkey, hserves⟩ := ho'.owned x hx
  obtain rfl : id = r.target := congrArg Prod.fst (hfkey.symm.trans hkey)
  obtain rfl : f = e := hbears.unique hf (congrArg Prod.snd (hfkey.symm.trans hkey))
  rw [hsettings] at hserves
  have few := few.imp_left fun pos => Option.isSome_iff_ne_none.1 (hruns.isSome_timer? pos)
  obtain ⟨t', needed, meets⟩ := current_of_heeds hserves few heeded
  refine ⟨⟨t', needed, meets⟩, ?_⟩
  rw [List.append_nil, queue_applyTemplate passed] at hx
  rcases of_mem_settled ho.timed.queue hx with ⟨-, -, hplace⟩ | ⟨t'', hasked', -, hdue⟩
  · -- the timer that the effect needs has taken the place of any other
    refine absurd ?_ (hplace t' (hasked.trans needed))
    obtain ⟨hactor, heffect, -⟩ := Effect.of_timer? needed
    obtain ⟨htarget, -⟩ := ho'.seated hbears
    rw [hkey, hactor, heffect, htarget]
  · obtain rfl := Option.some.inj (hasked'.symm.trans (hasked.trans needed))
    rw [hdue]
    exact hruns.later_delay needed

/-- What the course of an effect leaves is punctual, unless it has been renewed. -/
theorem Course.punctual {h : List Stamped} (hc : Course c id k base g taken)
    (news : g.news (id, k) = base ++ h) (latest : ∀ s ∈ h, s.event.isRefresh = false) :
    c.Punctual h := by
  cases hc with
  | runs _ _ hr news' beats _ =>
    obtain rfl := List.append_cancel_left (news.symm.trans news')
    exact Cast.punctual_of_beats beats hr.unfinished hr.silent
  | ended news' beats ends =>
    obtain rfl := List.append_cancel_left (news.symm.trans news')
    exact Cast.punctual_of_ends beats ends
  | @renewed h' s news' mem refresh =>
    obtain rfl := List.append_cancel_left (news.symm.trans news')
    rw [latest s mem] at refresh
    cases refresh

/-- All that is told of an effect is told of the actor it was cast on. -/
theorem filter_news (hc : Chronicled g.nextEffect g.shown g.log)
    {earlier rest : List Stamped} (hjournal : g.feed.journal.toList = earlier ++ rest)
    (hs : s ∈ earlier) :
    (rest.filter fun y => (y.event.actor, y.event.effect.id) == (s.event.actor, s.event.effect.id)) =
      rest.filter (·.event.effect.id == s.event.effect.id) := by
  obtain ⟨id, hid⟩ := exists_actor hc s.event.effect.id
  have hstory : ∀ y ∈ earlier ++ rest, y.event.effect.id = s.event.effect.id →
      y.event.actor = id := fun y hy hyid =>
    hid y (List.mem_filter.2 ⟨hjournal ▸ hy, beq_iff_eq.2 hyid⟩)
  have hactor := hstory s (List.mem_append_left _ hs) rfl
  refine List.filter_congr fun y hy => ?_
  rw [Bool.eq_iff_iff, beq_iff_eq, beq_iff_eq, Prod.mk.injEq]
  refine and_iff_right_of_imp fun hyid => ?_
  rw [hstory y (List.mem_append_right _ hy) hyid, hactor]

/-- **A request that publishes a cast sets its effect on its course.** -/
theorem course_apply {r : Request} {more : List Stamped} (ho : Orderly g [])
    (hmore : (g.apply r).1.feed.journal.toList = g.feed.journal.toList ++ more) (hs : s ∈ more)
    (cast : s.event.isCast = true) :
    ∃ t, g.codex.get? r.template = some t ∧ g.now = s.moment ∧
      (0 < (t.resolve r.skill).duration.toNat ∨
          renewals s.event.effect.id (g.apply r).1.log < UInt32.size →
        Course ⟨t, t.resolve r.skill, s.moment, g.settings.expiryUnit⟩ s.event.actor
          s.event.effect.id ((g.apply r).1.news (s.event.actor, s.event.effect.id))
          (g.apply r).1 []) := by
  obtain ⟨t, a, known, passed, happly, hmoment, hcasts, -⟩ := published_apply ho.sound hmore hs cast
  have ho₁ : Orderly (g.apply r).1 [] := Orderly.acts (s := (g, [])) ho (acts_apply g r)
  refine ⟨t, known, hmoment.symm, fun few => ?_⟩
  rw [happly] at ho₁ few ⊢
  rw [hmoment]
  exact course_cast ho ho₁ passed hcasts few

/-- What follows a request that publishes a cast keeps to its course. -/
theorem punctual_apply {r : Request} {after : List Op} {more rest : List Stamped}
    (ho : Orderly g [])
    (hmore : (g.apply r).1.feed.journal.toList = g.feed.journal.toList ++ more) (hs : s ∈ more)
    (cast : s.event.isCast = true)
    (hrest : ((g.apply r).1.run after).feed.journal.toList =
      (g.apply r).1.feed.journal.toList ++ rest)
    (latest : ∀ y ∈ rest, y.event.effect.id = s.event.effect.id → y.event.isRefresh = false)
    (few : renewals s.event.effect.id ((g.apply r).1.run after).log < UInt32.size) :
    ∃ t, g.codex.get? r.template = some t ∧ g.now = s.moment ∧
      Cast.Punctual ⟨t, t.resolve r.skill, s.moment, g.settings.expiryUnit⟩
        (rest.filter (·.event.effect.id == s.event.effect.id)) := by
  obtain ⟨t, known, hmoment, hcourse⟩ := course_apply ho hmore hs cast
  have ho₁ : Orderly (g.apply r).1 [] := Orderly.acts (s := (g, [])) ho (acts_apply g r)
  have hsteps := steps_run ho₁.sound after
  have few₁ : renewals s.event.effect.id (g.apply r).1.log < UInt32.size := by
    obtain ⟨later, hlater⟩ := log_steps hsteps
    rw [hlater] at few
    exact Nat.lt_of_le_of_lt (renewals_le_append _ _ later) few
  have hjournal : s ∈ (g.apply r).1.feed.journal.toList := by
    rw [hmore]
    exact List.mem_append_right _ hs
  have hnews := news_of_journal hrest (s.event.actor, s.event.effect.id)
  rw [filter_news (chronicled_steps ho₁.sound ho₁.chronicled hsteps) hrest hjournal] at hnews
  have hunit : (g.apply r).1.settings.expiryUnit = g.settings.expiryUnit := by
    rw [settings_steps (steps_acts (s := (g, [])) ho.sound (acts_apply g r))]
  -- the cast sets the effect on its course, and the rest of the run keeps it there
  have hkept := (hcourse (.inr few₁)).acts (s := ((g.apply r).1, [])) ho₁ hunit (acts_run _ after)
  refine ⟨t, known, hmoment, hkept.punctual hnews fun y hy => ?_⟩
  obtain ⟨hy, hid⟩ := List.mem_filter.1 hy
  exact latest y hy (beq_iff_eq.1 hid)

/-- **Timers do not drift.**  After every run over an empty world each start or renewal of an effect
in the journal goes back to a request for one template, made at the moment of its stamp.  If it is
the latest of its effect, and the effect has been renewed fewer times than there are generations,
then what follows in the journal about the effect keeps to the course of that cast: ticks at whole
multiples of the interval from it, with the resolved strength, and the end together with the last
tick, or when the resolved duration is over. -/
theorem course_run (settings : Settings) (codex : Codex) (start : UInt64) (manual : Bool)
    (capacity : Nat) (ops : List Op) {earlier rest : List Stamped} {moment : Nat} {ev : Event}
    (published : ((opened settings codex start manual capacity).run ops).feed.journal.toList =
      earlier ++ ⟨moment, ev⟩ :: rest)
    (cast : ev.isCast = true)
    (latest : ∀ s ∈ rest, s.event.effect.id = ev.effect.id → s.event.isRefresh = false)
    (few : renewals ev.effect.id ((opened settings codex start manual capacity).run ops).log <
      UInt32.size) :
    ∃ before r after t, ops.flatMap (Op.casts codex) = before ++ .apply r :: after ∧
      codex.get? r.template = some t ∧
      let g := (opened settings codex start manual capacity).run before
      g.now = moment ∧ (g.apply r).1.feed.journal.toList = earlier ++ [⟨moment, ev⟩] ∧
      Cast.Punctual ⟨t, t.resolve r.skill, moment, settings.expiryUnit⟩
        (rest.filter (·.event.effect.id == ev.effect.id)) := by
  have hopened := sound_opened settings codex start manual capacity
  have hruns : (opened settings codex start manual capacity).run (ops.flatMap (Op.casts codex)) =
      (opened settings codex start manual capacity).run ops := run_casts hopened ops
  rw [← hruns] at published few
  obtain ⟨before, r, after, more, hsplit, hmore, hx, hjournal⟩ :=
    exists_cast hopened (fun _ h => nomatch h) (fun _ hop => ne_applySkill_of_mem_casts hop)
      published cast
  have ho := orderly_run settings codex start manual capacity before
  have hcodex : ((opened settings codex start manual capacity).run before).codex = codex :=
    codex_steps (steps_run hopened before)
  have hsettings : ((opened settings codex start manual capacity).run before).settings = settings :=
    settings_steps (steps_run hopened before)
  have hafter : (opened settings codex start manual capacity).run (before ++ .apply r :: after) =
      (((opened settings codex start manual capacity).run before).apply r).1.run after :=
    run_append _ _ _
  rw [hsplit, hafter] at published few
  have hrest : ((((opened settings codex start manual capacity).run before).apply r).1.run
      after).feed.journal.toList =
        (((opened settings codex start manual capacity).run before).apply r).1.feed.journal.toList ++
          rest := by
    rw [published, hjournal, List.append_assoc]
    rfl
  obtain ⟨t, known, hnow, hpunctual⟩ :=
    punctual_apply ho (hjournal.trans hmore) hx cast hrest latest few
  rw [hcodex] at known
  rw [hsettings] at hpunctual
  exact ⟨before, r, after, t, hsplit, known, hnow, hjournal, hpunctual⟩

/-- A hold that was renewed after its first tick.  Its timers are fired in batches long after they
were due, and its four ticks and its end come at their moments all the same. -/
theorem course_run_hold :
    let g := (opened {} trialCodex 0 true 1).run [.enter 1, .cast 1 3, .advanceTo 700, .cast 1 3,
      .setClock 5000, .drainDue 2, .drainDue 2, .drainDue 2, .drainDue 2]
    ∃ earlier ev rest, g.feed.journal.toList = earlier ++ ⟨700, ev⟩ :: rest ∧
      ev.isRefresh = true ∧ renewals ev.effect.id g.log = 1 ∧
      rest.map (·.moment) = [1200, 1700, 2200, 2700, 2700] ∧
      ∃ (r : Request) (t : Template), trialCodex.get? r.template = some t ∧
        Cast.Punctual ⟨t, t.resolve r.skill, 700, 1000⟩
          (rest.filter (·.event.effect.id == ev.effect.id)) := by
  intro g
  let ev : Event := .refreshed ⟨1⟩ ⟨⟨1⟩, ⟨3⟩, ⟨1⟩, none, .paralyze, 4, 1, 0, 0⟩
  have published : g.feed.journal.toList =
      g.feed.journal.toList.take 2 ++ ⟨700, ev⟩ :: g.feed.journal.toList.drop 3 := by
    decide +kernel
  have latest : ∀ s ∈ g.feed.journal.toList.drop 3, s.event.effect.id = ev.effect.id →
      s.event.isRefresh = false := by
    decide +kernel
  have hrenewals : renewals ev.effect.id g.log = 1 := by decide +kernel
  have hmoments : (g.feed.journal.toList.drop 3).map (·.moment) =
      [1200, 1700, 2200, 2700, 2700] := by
    decide +kernel
  obtain ⟨-, r, -, t, -, known, -, -, hpunctual⟩ :=
    course_run {} trialCodex 0 true 1 _ published rfl latest (hrenewals ▸ by decide)
  exact ⟨_, ev, _, published, rfl, hrenewals, hmoments, r, t, known, hpunctual⟩

end Engine

end StatusEffects
