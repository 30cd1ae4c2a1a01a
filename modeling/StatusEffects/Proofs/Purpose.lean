import StatusEffects.Engine.View
import StatusEffects.Proofs.Fate

/-!
# What timers are for

Every pending timer is for an effect that its actor bears, and as a rule it is the one that the
effect needs now.  There is one way for a timer to outlive its purpose.  An effect that does not tick
is renewed without a duration: it needs no timer any more, and since the renewal asks for none the
timer for its end is neither replaced nor cancelled.  Such an effect has lapsed.  The timer stays
pending, and when it fires it is stale.  Where no effect has lapsed there are as many timers as
effects that need one, and none is ever stale.

## Main definitions

* `renewals` : how often an effect has been renewed.
* `Lapsed` : an effect that does not tick has lost its duration in a renewal.
* `Effect.Serves` : a timer is for an effect.
* `Engine.Orderly` : the invariant of engines on the way.
* `Engine.awaiting` : the number of effects that need a timer.

## Main statements

* `Engine.Orderly.act`, `Engine.orderly_run` : acts and runs keep an engine orderly.
* `Engine.size_eq_awaiting` : timers and the effects that need one are equally many.
* `Engine.purpose_run` : what pending timers are for, after every run.
-/

namespace StatusEffects

namespace Event

/-- Whether the event tells of a renewal. -/
def isRefresh : Event → Bool
  | .refreshed _ _ => true
  | .started _ _ | .ticked _ _ _ | .ended _ _ _ => false

/-- Whether the event tells of an effect that has just been cast. -/
def isCast : Event → Bool
  | .started _ _ | .refreshed _ _ => true
  | .ticked _ _ _ | .ended _ _ _ => false

end Event

/-! ### Renewals in a log -/

section Log

variable {codex : Codex} {log more : List Event} {k : EffectId} {id : ActorId} {s : Summary}

/-- How often an effect has been renewed. -/
def renewals (k : EffectId) (log : List Event) : Nat := (history k log).countP Event.isRefresh

/-- An effect that does not tick had a duration and has been renewed without one. -/
def Lapsed (codex : Codex) (log : List Event) (k : EffectId) : Prop :=
  ∃ earlier id s later, log = earlier ++ .refreshed id s :: later ∧ s.id = k ∧ s.remaining = 0 ∧
    (∃ s₀ ∈ mirror id earlier, s₀.id = k ∧ s₀.remaining ≠ 0) ∧
    ∃ t ∈ codex.templates, t.id = s.template ∧ t.isPeriodic = false

theorem renewals_le_append (k : EffectId) (log more : List Event) :
    renewals k log ≤ renewals k (log ++ more) := by
  simp only [renewals, history, List.filter_append, List.countP_append]
  exact Nat.le_add_right _ _

theorem renewals_refreshed (log : List Event) (id : ActorId) (h : s.id = k) :
    renewals k (log ++ [.refreshed id s]) = renewals k log + 1 := by
  simp only [renewals, history_snoc, Event.effect, h, if_true, List.countP_append]
  rfl

theorem Lapsed.append (h : Lapsed codex log k) (more : List Event) :
    Lapsed codex (log ++ more) k := by
  obtain ⟨earlier, id, s, later, rfl, rest⟩ := h
  exact ⟨earlier, id, s, later ++ more, by simp, rest⟩

end Log

/-! ### Timers and their effects -/

namespace Effect

variable {unit : UInt64} {codex : Codex} {log more : List Event} {id : ActorId} {e : Effect}
  {t x : Timer} {params : Params} {adopt : Bool}

/-- A timer is for an effect. -/
inductive Serves (unit : UInt64) (codex : Codex) (log : List Event) (x : Timer) (e : Effect) : Prop
  /-- It is the one the effect needs. -/
  | current {t : Timer} (needed : e.timer? unit = some t) (meets : x.Meets t)
  /-- The effect has lapsed and has been renewed `d` times since it asked for the timer. -/
  | left {d : Nat} (needless : e.timer? unit = none) (kind : x.kind = .expire)
      (lapsed : Lapsed codex log e.id) (pos : 0 < d) (bound : d ≤ renewals e.id log)
      (behind : e.generation = x.generation + UInt32.ofNat d)

/-- A running effect needs no timer if it neither ticks nor ends. -/
theorem timer?_eq_none_iff (hactive : e.isActive = true) :
    e.timer? unit = none ↔ e.template.isPeriodic = false ∧ e.isPermanent = true := by
  simp only [timer?, hactive, Bool.not_true, Bool.false_eq_true, if_false]
  split_ifs with hperiodic hpermanent <;> simp [*]

theorem heeds_of_meets (needed : e.timer? unit = some t) (meets : x.Meets t) :
    e.heeds x = true := by
  obtain ⟨-, -, hgeneration, hactive, hkind⟩ := of_timer? needed
  refine heeds_iff.2 ⟨(meets.generation.trans hgeneration).symm, hactive, fun hk => hkind ?_⟩
  exact meets.kind.symm.trans hk

namespace Serves

theorem append (h : e.Serves unit codex log x) (more : List Event) :
    e.Serves unit codex (log ++ more) x := by
  cases h with
  | current needed meets => exact .current needed meets
  | left needless kind lapsed pos bound behind =>
    exact .left needless kind (lapsed.append more) pos
      (Nat.le_trans bound (renewals_le_append _ _ more)) behind

/-- **A renewal that asks for no timer leaves the one there is behind.** -/
theorem renew (h : e.Serves unit codex log x) (hactive : e.isActive = true)
    (hknown : e.template ∈ codex.templates)
    (hwhole : e.template.isPeriodic = false → e.remaining = e.params.duration)
    (hshown : e.summary ∈ mirror id log)
    (hnone : (e.refresh params adopt).timer? unit = none) :
    (e.refresh params adopt).Serves unit codex
      (log ++ [.refreshed id (e.refresh params adopt).summary]) x := by
  have hrenewals : renewals e.id (log ++ [.refreshed id (e.refresh params adopt).summary]) =
      renewals e.id log + 1 := renewals_refreshed log id rfl
  obtain ⟨hsilent, hpermanent⟩ :=
    (timer?_eq_none_iff (e := e.refresh params adopt) hactive).1 hnone
  have hperiodic : e.template.isPeriodic = false := hsilent
  cases h with
  | @current t needed meets =>
    obtain ⟨-, -, hgeneration, -, hkind⟩ := of_timer? needed
    -- the effect had a duration, as it needed a timer without ticking
    have hduration : e.remaining ≠ 0 := by
      rw [hwhole hperiodic]
      intro hzero
      have hunneeded : e.timer? unit = none :=
        (timer?_eq_none_iff hactive).2 ⟨hperiodic, by simp [isPermanent, hzero]⟩
      rw [hunneeded] at needed
      cases needed
    have hlapsed : Lapsed codex (log ++ [.refreshed id (e.refresh params adopt).summary]) e.id :=
      ⟨log, id, _, [], rfl, rfl, beq_iff_eq.1 hpermanent, ⟨_, hshown, rfl, hduration⟩,
        _, hknown, rfl, hperiodic⟩
    refine .left (d := 1) hnone ?_ hlapsed Nat.one_pos (hrenewals ▸ Nat.le_add_left 1 _) ?_
    · rw [meets.kind]
      cases hk : t.kind with
      | tick => simp [hkind hk] at hperiodic
      | expire => rfl
    · rw [meets.generation, hgeneration]
      rfl
  | left _ kind lapsed pos bound behind =>
    refine .left hnone kind (lapsed.append _) (Nat.succ_pos _)
      (le_of_le_of_eq (Nat.succ_le_succ bound) hrenewals.symm) ?_
    have hnext : (e.refresh params adopt).generation = e.generation + 1 := rfl
    rw [hnext, behind, UInt32.add_assoc, ← UInt32.ofNat_one, ← UInt32.ofNat_add]

end Serves

end Effect

/-! ### Durations -/

namespace Bearer

variable {codex : Codex} {next : Nat} {id : ActorId} {b b' : Bearer} {ev : Event} {p : Profile}
  {settings : Settings} {incoming : Effect}

/-- Of an effect that does not tick all of the duration is left, as long as it runs. -/
def Whole (b : Bearer) : Prop :=
  ∀ e ∈ b.list.effects, e.template.isPeriodic = false → e.remaining = e.params.duration

theorem Sound.whole_turn (hb : b.Sound codex next id) (hw : b.Whole) (h : b.Turn ev b') :
    b'.Whole := by
  intro x hx hsilent
  cases h with
  | @tick e found periodic =>
    have hid : e.countTick.id = e.id := rfl
    rcases EffectList.mem_update hb.keys found hid hx with rfl | ⟨hx, -⟩
    · exact absurd (hsilent.symm.trans periodic) Bool.false_ne_true
    · exact hw x hx hsilent
  | finish _ _ => exact hw x (List.eraseP_sublist.subset hx) hsilent

theorem Sound.whole_arrival (hb : b.Sound codex next id) (hw : b.Whole)
    (hin : incoming.Incoming codex next id) (h : b.Arrival p settings incoming ev b') :
    b'.Whole := by
  intro x hx hsilent
  cases h with
  | @renew e found =>
    have hget := hb.get?_of_mem (List.mem_of_find?_eq_some found)
    have hid : (e.refresh incoming.params settings.refreshAdoptsEnchant).id = e.id := rfl
    rcases EffectList.mem_update hb.keys hget hid hx with rfl | ⟨hx, -⟩
    · rfl
    · exact hw x hx hsilent
  | start _ _ _ _ =>
    rcases List.mem_append.1 hx with hx | hx
    · exact hw x hx hsilent
    · obtain rfl := List.mem_singleton.1 hx
      exact hin.whole
  | veto _ => exact hw x hx hsilent
  | fail _ => exact hw x hx hsilent

end Bearer

/-! ### The invariant -/

namespace Engine

open Bearer

variable {g g' : Engine} {taken taken' : List Entry} {id : ActorId} {e : Effect} {x : Entry}

theorem keeps_whole (codex : Codex) (settings : Settings) :
    Keeps codex settings Bearer.Whole where
  fresh _ := fun _ h => nomatch h
  turn hb hw h := hb.whole_turn hw h
  arrival hb hin hw h := hb.whole_arrival hw hin h

/-- A step publishes at most one event, and only one that uses up a key starts or renews an
effect. -/
theorem journal_step (h : Step g g') :
    ∃ more, g'.feed.journal.toList = g.feed.journal.toList ++ more ∧
      ∀ s ∈ more, s.event.isCast = true → g.nextEffect < g'.nextEffect := by
  cases h with
  | turn moment _ change =>
    refine ⟨_, Feed.journal_publishAll _ _ _, fun s hs hcast => ?_⟩
    obtain rfl := List.mem_singleton.1 hs
    cases change <;> cases hcast
  | arrival => exact ⟨_, Feed.journal_publishAll _ _ _, fun _ _ _ => Nat.lt_succ_self _⟩
  | skip | enter | profile | leave => exact ⟨[], (List.append_nil _).symm, fun _ h => nomatch h⟩
  | quiet same =>
    rw [same]
    exact ⟨[], (List.append_nil _).symm, fun _ h => nomatch h⟩

theorem nextEffect_steps (h : Steps g g') : g.nextEffect ≤ g'.nextEffect := by
  induction h with
  | refl => exact Nat.le_refl _
  | tail _ hstep ih => exact Nat.le_trans ih (nextEffect_step hstep)

/-- What has been published stays so. -/
theorem journal_steps (h : Steps g g') :
    ∃ more, g'.feed.journal.toList = g.feed.journal.toList ++ more ∧
      ∀ s ∈ more, s.event.isCast = true → g.nextEffect < g'.nextEffect := by
  induction h with
  | refl => exact ⟨[], (List.append_nil _).symm, fun _ h => nomatch h⟩
  | tail hsteps hstep ih =>
    obtain ⟨more, hmore, hcasts⟩ := ih
    obtain ⟨last, hlast, hcast⟩ := journal_step hstep
    refine ⟨more ++ last, by rw [hlast, hmore, List.append_assoc], fun s hs hc => ?_⟩
    rcases List.mem_append.1 hs with hs | hs
    · exact Nat.lt_of_lt_of_le (hcasts s hs hc) (nextEffect_step hstep)
    · exact Nat.lt_of_le_of_lt (nextEffect_steps hsteps) (hcast s hs hc)

theorem log_steps (h : Steps g g') : ∃ more, g'.log = g.log ++ more := by
  obtain ⟨more, hmore, -⟩ := journal_steps h
  exact ⟨more.map (·.event), by rw [log, hmore, List.map_append]; rfl⟩

/-- What an engine is like at any time, also between taking timers out of its queue and firing
them: each timer is for an effect that is borne, and none has been stale unless an effect has
lapsed. -/
structure Orderly (g : Engine) (taken : List Entry) : Prop where
  sound : g.Sound
  timed : Timed g taken
  chronicled : Chronicled g.nextEffect g.shown g.log
  whole : ∀ id b, g.world.bearer? id = some b → b.Whole
  owned : ∀ x ∈ g.queue.pending ++ taken, ∃ id e, g.Bears id e ∧ x.key = (id, e.id) ∧
    e.Serves g.settings.expiryUnit g.codex g.log x.timer
  unspoilt : g.metrics.stale = 0 ∨ ∃ k, Lapsed g.codex g.log k

namespace Orderly

/-- What is known of an effect that is borne. -/
theorem seated (ho : Orderly g taken) (he : g.Bears id e) :
    e.target = id ∧ e.isActive = true ∧ e.template ∈ g.codex.templates ∧
      (e.template.isPeriodic = false → e.remaining = e.params.duration) ∧
      e.summary ∈ mirror id g.log := by
  obtain ⟨b, hb, hget⟩ := he
  have hmem := EffectList.mem_of_get? hget
  have hseated := (ho.sound id b hb).seated e hmem
  refine ⟨hseated.target, ?_, hseated.known, ho.whole id b hb e hmem, ?_⟩
  · simp [Effect.isActive, hseated.active]
  · rw [ho.chronicled.mirrored, shown_eq, hb]
    exact List.mem_map_of_mem hmem

/-- A timer stays with its effect, or passes to the effect that asks for it. -/
theorem owned_deed (ho : Orderly g taken) (hd : Deed g taken g' taken')
    (hsettings : g'.settings = g.settings) (hcodex : g'.codex = g.codex)
    (hlog : ∃ more, g'.log = g.log ++ more) (hx : x ∈ g'.queue.pending ++ taken') :
    ∃ id e, g'.Bears id e ∧ x.key = (id, e.id) ∧
      e.Serves g'.settings.expiryUnit g'.codex g'.log x.timer := by
  rw [hsettings, hcodex]
  rcases hd.fresh ho.sound ho.timed hx with hold | ⟨e, hbears, hneeded⟩
  · obtain ⟨id, e, he, hkey, hserves⟩ := ho.owned x hold
    obtain ⟨htarget, hactive, hknown, hwhole, hshown⟩ := ho.seated he
    cases hd.fate ho.sound ho.timed he with
    | kept bears _ _ =>
      obtain ⟨more, hmore⟩ := hlog
      exact ⟨id, e, bears, hkey, hmore ▸ hserves.append more⟩
    | parted _ _ timers => exact absurd hkey (timers x hx)
    | renewed bears feed timers =>
      refine ⟨id, _, bears, hkey, ?_⟩
      rcases timers x hx hkey with hneeded | ⟨hnone, -⟩
      · exact .current hneeded ⟨rfl, rfl, rfl, rfl⟩
      · rw [log, feed, log_publishAll]
        exact hserves.renew hactive hknown hwhole hshown hnone
    | fired key _ replies bears _ _ timers =>
      obtain ⟨next, hnext, htimer, -⟩ := timers x hx hkey
      cases replies with
      | stale | last | ends => cases hnext
      | again _ _ _ _ asked =>
        obtain rfl := Option.some.inj hnext
        exact ⟨id, e.countTick, bears _ rfl, hkey, .current asked (htimer ▸ ⟨rfl, rfl, rfl, rfl⟩)⟩
  · refine ⟨_, e, hbears, ?_, .current hneeded ⟨rfl, rfl, rfl, rfl⟩⟩
    exact Prod.ext rfl (Effect.of_timer? hneeded).2.1

/-- Only the timer of an effect that has lapsed is stale. -/
theorem unspoilt_deed (ho : Orderly g taken) (hd : Deed g taken g' taken')
    (hcodex : g'.codex = g.codex) (hlog : ∃ more, g'.log = g.log ++ more) :
    g'.metrics.stale = 0 ∨ ∃ k, Lapsed g'.codex g'.log k := by
  have hlapsed : ∀ {k}, Lapsed g.codex g.log k → ∃ k, Lapsed g'.codex g'.log k := fun {k} h => by
    obtain ⟨more, hmore⟩ := hlog
    rw [hcodex, hmore]
    exact ⟨k, h.append more⟩
  have hsame : g'.metrics.stale = g.metrics.stale →
      g'.metrics.stale = 0 ∨ ∃ k, Lapsed g'.codex g'.log k := fun h => by
    rcases ho.unspoilt with hzero | ⟨k, hk⟩
    · exact .inl (h.trans hzero)
    · exact .inr (hlapsed hk)
  cases hd with
  | idle _ _ metrics _ => exact hsame (congrArg Metrics.stale metrics)
  | request _ _ _ _ _ _ _ stale _ _ _ => exact hsame stale
  | @fire x first fired =>
    subst first fired
    obtain ⟨id, e, he, hkey, hserves⟩ :=
      ho.owned x (List.mem_append_right _ List.mem_cons_self)
    obtain ⟨a, -, -, hfire⟩ := world_fire_of_bears ho.sound he hkey
    rcases stale_fire g x with hstale | hstale
    · -- an effect heeds the timer that it needs
      rw [hfire] at hstale
      have hreplies := e.replies g.settings.expiryUnit x.timer
      generalize e.reply g.settings.expiryUnit x.timer = r at hstale hreplies
      cases hreplies with
      | stale unheeded =>
        cases hserves with
        | current needed meets =>
          rw [Effect.heeds_of_meets needed meets] at unheeded
          cases unheeded
        | left _ _ lapsed _ _ _ => exact .inr (hlapsed lapsed)
      | again | last | ends => cases hstale
    · exact hsame hstale

/-- **Acts keep an engine orderly.** -/
theorem act (ho : Orderly g taken) (h : Act (g, taken) (g', taken')) : Orderly g' taken' := by
  have hsteps := steps_act ho.sound h
  have hdeed := deed_act ho.sound ho.timed h
  have hlog := log_steps hsteps
  exact {
    sound := ho.sound.steps hsteps
    timed := ho.timed.act ho.sound h
    chronicled := chronicled_steps ho.sound ho.chronicled hsteps
    whole := (keeps_whole g.codex g.settings).steps ho.sound ho.whole hsteps
    owned := fun x hx =>
      ho.owned_deed hdeed (settings_steps hsteps) (codex_steps hsteps) hlog hx
    unspoilt := ho.unspoilt_deed hdeed (codex_steps hsteps) hlog }

theorem acts {s s' : Engine × List Entry} (ho : Orderly s.1 s.2) (h : Acts s s') :
    Orderly s'.1 s'.2 := by
  induction h with
  | refl => exact ho
  | tail _ hact ih => exact ih.act hact

end Orderly

theorem orderly_opened (settings : Settings) (codex : Codex) (start : UInt64) (manual : Bool)
    (capacity : Nat) : Orderly (opened settings codex start manual capacity) [] where
  sound := sound_opened settings codex start manual capacity
  timed := timed_opened settings codex start manual capacity
  chronicled := chronicled_opened settings codex start manual capacity
  whole := fun _ _ h => nomatch h
  owned := fun _ h => nomatch h
  unspoilt := .inl rfl

/-- **Runs keep an engine orderly.** -/
theorem orderly_run (settings : Settings) (codex : Codex) (start : UInt64) (manual : Bool)
    (capacity : Nat) (ops : List Op) :
    Orderly ((opened settings codex start manual capacity).run ops) [] :=
  Orderly.acts (s := (_, [])) (orderly_opened settings codex start manual capacity) (acts_run _ ops)

/-! ### Counting timers -/

/-- The number of effects that need a timer. -/
def awaiting (g : Engine) : Nat :=
  (g.world.actors.flatMap (·.bearer.list.effects)).countP fun e =>
    (e.timer? g.settings.expiryUnit).isSome

/-- No two actors have one key. -/
theorem nodup_ids_step (hids : (g.world.actors.map (·.profile.id)).Nodup) (h : Step g g') :
    (g'.world.actors.map (·.profile.id)).Nodup := by
  have htold : ∀ id b, ((g.world.setBearer id b).actors.map (·.profile.id)).Nodup := fun id b => by
    have hprofiles : (g.world.setBearer id b).actors.map (·.profile) =
        g.world.actors.map (·.profile) := World.map_profile_setBearer
    have hmap := congrArg (List.map Profile.id) hprofiles
    rw [List.map_map, List.map_map] at hmap
    exact hmap ▸ hids
  cases h with
  | turn => exact htold _ _
  | arrival => exact htold _ _
  | skip => exact hids
  | @enter p absent =>
    have hspawn : (g.spawn p).world.actors = g.world.actors ++ [⟨p, .fresh p.id⟩] := by
      simp [spawn, World.spawn, World.contains, absent]
    rw [hspawn, List.map_append, List.nodup_append]
    refine ⟨hids, List.nodup_singleton _, ?_⟩
    rintro k hk k' hk' rfl
    obtain ⟨a, ha, hak⟩ := List.mem_map.1 hk
    have hne := List.find?_eq_none.1 absent a ha
    rw [List.mem_singleton.1 hk'] at hak
    exact hne (beq_iff_eq.2 hak)
  | @profile id f keeps =>
    have hsame : (g.world.modifyProfile id f).actors.map (·.profile.id) =
        g.world.actors.map (·.profile.id) :=
      map_updateFirst fun a ha => by
        have hid : a.profile.id = id := by simpa using List.find?_some ha
        exact (keeps a.profile hid).trans hid.symm
    exact hsame ▸ hids
  | leave => exact hids.sublist (List.filter_sublist.map _)
  | quiet same =>
    rw [same]
    exact hids

theorem nodup_ids_steps (hids : (g.world.actors.map (·.profile.id)).Nodup) (h : Steps g g') :
    (g'.world.actors.map (·.profile.id)).Nodup := by
  induction h with
  | refl => exact hids
  | tail _ hstep ih => exact nodup_ids_step ih hstep

/-- The effects of all actors are those that are borne. -/
theorem mem_effects_iff (hids : (g.world.actors.map (·.profile.id)).Nodup) (hg : g.Sound) :
    e ∈ g.world.actors.flatMap (·.bearer.list.effects) ↔ g.Bears e.target e := by
  rw [List.mem_flatMap]
  constructor
  · rintro ⟨a, ha, he⟩
    have found : g.world.get? a.profile.id = some a := (find?_key_eq_some_iff hids).2 ⟨ha, rfl⟩
    have hb := hg.bearer found
    rw [(hb.seated e he).target]
    exact ⟨a.bearer, World.bearer?_of_get? found, hb.get?_of_mem he⟩
  · rintro ⟨b, hb, hget⟩
    obtain ⟨a, found, rfl⟩ := Option.map_eq_some_iff.1 hb
    exact ⟨a, List.mem_of_find?_eq_some found, EffectList.mem_of_get? hget⟩

/-- No two effects have one key. -/
theorem nodup_effects (hids : (g.world.actors.map (·.profile.id)).Nodup) (hg : g.Sound) :
    ((g.world.actors.flatMap (·.bearer.list.effects)).map fun e => (e.target, e.id)).Nodup := by
  have hbearer : ∀ a ∈ g.world.actors, a.bearer.Sound g.codex g.nextEffect a.profile.id :=
    fun a ha => hg.bearer ((find?_key_eq_some_iff hids).2 ⟨ha, rfl⟩)
  rw [List.map_flatMap, List.nodup_flatMap]
  constructor
  · intro a ha
    refine List.Nodup.of_map Prod.snd ?_
    rw [List.map_map]
    exact (hbearer a ha).keys
  · have hpair := List.pairwise_map.1 hids
    refine hpair.imp_of_mem fun {a c} ha hc hne => ?_
    intro k hk hk'
    obtain ⟨x, hx, rfl⟩ := List.mem_map.1 hk
    obtain ⟨y, hy, hxy⟩ := List.mem_map.1 hk'
    have htargets : y.target = x.target := congrArg Prod.fst hxy
    rw [((hbearer a ha).seated x hx).target, ((hbearer c hc).seated y hy).target] at htargets
    exact hne htargets.symm

/-- **Where no effect has lapsed, timers and effects that need one are equally many.** -/
theorem size_eq_awaiting (ho : Orderly g []) (hids : (g.world.actors.map (·.profile.id)).Nodup)
    (hlapsed : ∀ k, ¬ Lapsed g.codex g.log k) : g.queue.size = g.awaiting := by
  have hneeding : g.awaiting = ((g.world.actors.flatMap (·.bearer.list.effects)).filter fun e =>
      (e.timer? g.settings.expiryUnit).isSome).length := List.countP_eq_length_filter
  have hq := ho.timed.queue
  have hsub := (List.filter_sublist (l := g.world.actors.flatMap (·.bearer.list.effects))
    (p := fun e => (e.timer? g.settings.expiryUnit).isSome)).map fun e => (e.target, e.id)
  have hperm : (g.queue.pending.map Entry.key).Perm
      (((g.world.actors.flatMap (·.bearer.list.effects)).filter fun e =>
        (e.timer? g.settings.expiryUnit).isSome).map fun e => (e.target, e.id)) := by
    refine (List.perm_ext_iff_of_nodup (TimerQueue.nodup_keys_pending hq)
      ((nodup_effects hids ho.sound).sublist hsub)).2 fun k => ?_
    simp only [List.mem_map, List.mem_filter, mem_effects_iff hids ho.sound]
    constructor
    · rintro ⟨x, hx, rfl⟩
      obtain ⟨id, e, he, hkey, hserves⟩ := ho.owned x (List.mem_append_left _ hx)
      obtain ⟨rfl, -⟩ := ho.seated he
      cases hserves with
      | current needed _ => exact ⟨e, ⟨he, needed ▸ rfl⟩, hkey.symm⟩
      | left _ _ lapsed _ _ _ => exact absurd lapsed (hlapsed _)
    · rintro ⟨e, ⟨⟨b, hb, hget⟩, hneeds⟩, rfl⟩
      obtain ⟨t, needed⟩ := Option.isSome_iff_exists.1 hneeds
      obtain ⟨x, hx, hmeets⟩ := ho.timed.served _ b hb e (EffectList.mem_of_get? hget) t needed
      obtain ⟨hactor, heffect, -⟩ := Effect.of_timer? needed
      rw [List.append_nil] at hx
      exact ⟨x, hx, by rw [Timed.key_eq hmeets, hactor, heffect]⟩
  have hlength := hperm.length_eq
  rw [List.length_map, List.length_map, ← hneeding, TimerQueue.length_pending hq] at hlength
  exact hlength

/-- **What pending timers are for.**  After every run over an empty world each pending timer is for
an effect that its actor bears.  It is the one that the effect needs, of its kind and of its present
generation, unless the effect has lapsed and needs none.  As long as no effect has lapsed none has
ever been stale, and there are as many timers as effects that need one. -/
theorem purpose_run (settings : Settings) (codex : Codex) (start : UInt64) (manual : Bool)
    (capacity : Nat) (ops : List Op) :
    let g := (opened settings codex start manual capacity).run ops
    (∀ x ∈ g.queue.pending, ∃ e, g.Bears x.timer.actor e ∧ e.id = x.timer.effect ∧
      ((∃ t, e.timer? settings.expiryUnit = some t ∧ x.timer.Meets t) ∨
        e.timer? settings.expiryUnit = none ∧ Lapsed codex g.log e.id)) ∧
    ((∀ k, ¬ Lapsed codex g.log k) → g.metrics.stale = 0 ∧ g.pendingTimers = g.awaiting) := by
  intro g
  have ho : Orderly g [] := orderly_run settings codex start manual capacity ops
  have hsteps := steps_run (sound_opened settings codex start manual capacity) ops
  have hcodex : g.codex = codex := codex_steps hsteps
  have hsettings : g.settings = settings := settings_steps hsteps
  have hids : (g.world.actors.map (·.profile.id)).Nodup := by
    have hempty : (opened settings codex start manual capacity).world.actors = [] := rfl
    exact nodup_ids_steps (by simp [hempty]) hsteps
  refine ⟨fun x hx => ?_, fun hlapsed => ⟨?_, ?_⟩⟩
  · obtain ⟨id, e, he, hkey, hserves⟩ := ho.owned x (List.mem_append_left _ hx)
    obtain rfl : x.timer.actor = id := congrArg Prod.fst hkey
    refine ⟨e, he, (congrArg Prod.snd hkey).symm, ?_⟩
    rw [hcodex, hsettings] at hserves
    cases hserves with
    | current needed meets => exact .inl ⟨_, needed, meets⟩
    | left needless _ lapsed _ _ _ => exact .inr ⟨needless, lapsed⟩
  · rw [← hcodex] at hlapsed
    exact ho.unspoilt.resolve_right fun ⟨k, hk⟩ => hlapsed k hk
  · rw [← hcodex] at hlapsed
    exact size_eq_awaiting ho hids hlapsed

/-- A hold that ticks and a haste that has been renewed need one timer each. -/
theorem purpose_run_renewed :
    let g := (opened {} trialCodex 0 true 1).run
      [.enter 1, .cast 1 3, .cast 1 1, .advanceTo 600, .cast 1 1]
    (∀ k, ¬ Lapsed trialCodex g.log k) ∧ g.metrics.stale = 0 ∧ g.pendingTimers = g.awaiting ∧
      g.awaiting = 2 := by
  intro g
  have hrenewed : ∀ ev ∈ g.log, ev.isRefresh = true → ev.effect.remaining ≠ 0 := by
    decide +kernel
  have hlapsed : ∀ k, ¬ Lapsed trialCodex g.log k := by
    rintro k ⟨earlier, id, s, later, hlog, -, hzero, -⟩
    refine hrenewed (.refreshed id s) ?_ rfl hzero
    rw [hlog]
    exact List.mem_append_right _ List.mem_cons_self
  have hcount : g.awaiting = 2 := by decide +kernel
  obtain ⟨-, htimers⟩ := purpose_run {} trialCodex 0 true 1
    [.enter 1, .cast 1 3, .cast 1 1, .advanceTo 600, .cast 1 1]
  obtain ⟨hstale, hpending⟩ := htimers hlapsed
  exact ⟨hlapsed, hstale, hpending, hcount⟩

/-- A template that ends after two units, unless its skill is enchanted. -/
def mightCodex : Codex where
  templates := [
    { id := ⟨1⟩, name := "Might", skill := ⟨1068⟩, kind := .buff, abnormalType := .buff,
      duration := 2, variants := [{ route := 1, minLevel := 1, duration := some 0 }] }]
  ids_nodup := by decide
  routes_pos := by decide

/-- Might that is renewed by the enchanted skill needs no timer, and the one for its end stays
behind until it is found to be stale. -/
theorem purpose_run_might :
    let enchanted : Request :=
      { template := ⟨1⟩, caster := ⟨1⟩, target := ⟨1⟩, skill := some (.ofCombined ⟨1068⟩ 1 1001) }
    let g := (opened {} mightCodex 0 true 1).run [.enter 1, .cast 1 1, .apply enchanted]
    g.pendingTimers = 1 ∧ g.awaiting = 0 ∧
      (∀ a ∈ g.world.actors, ∀ e ∈ a.bearer.list.effects, e.isActive = true ∧
        e.timer? g.settings.expiryUnit = none) ∧
      (g.perform (.advanceTo 5000)).metrics.stale = 1 := by
  decide +kernel

end Engine

end StatusEffects
