import StatusEffects.Proofs.Step

/-!
# The log of an engine

Clients follow an engine by its events alone.  The events about one effect have one of three
shapes, according to whether the effect is running, has ended or was never started, and whoever
enters the events one after the other has the effects of every actor as they are.

## Main definitions

* `Engine.log`, `history` : the events so far, and those about one effect.
* `History.Running`, `History.Finished`, `History.Refused` : the three shapes.
* `mirror` : what a client makes of a log.
* `Tells` : an event that tells how the summaries of an actor change.
* `Chronicled` : the invariant that ties a log to the summaries.

## Main statements

* `Engine.step_told` : a step changes no summary, or is told by the one event it publishes.
* `Chronicled.tell` : an event that tells a change keeps the invariant.
* `Engine.chronicle_run` : the shapes of all histories, and the mirror, after every run.
-/

namespace StatusEffects

namespace Event

/-- Whether the event tells of an effect that goes on. -/
def isUpdate : Event → Bool
  | .refreshed _ _ | .ticked _ _ _ => true
  | .started _ _ | .ended _ _ _ => false

/-- The key of the effect that starts with the event. -/
def startedKey? : Event → Option Nat
  | .started _ s => some s.id.val
  | .refreshed _ _ | .ticked _ _ _ | .ended _ _ _ => none

end Event

/-- The events of a log about one effect. -/
def history (k : EffectId) (log : List Event) : List Event := log.filter (·.effect.id == k)

namespace History

/-- The effect has started on the actor and has only been renewed or ticked since. -/
def Running (id : ActorId) (h : List Event) : Prop :=
  ∃ s later, h = .started id s :: later ∧ ∀ ev ∈ later, ev.isUpdate = true ∧ ev.actor = id

/-- The effect was running on the actor and has ended. -/
def Finished (id : ActorId) (h : List Event) : Prop :=
  ∃ earlier s reason, Running id earlier ∧ reason.isParting = true ∧
    h = earlier ++ [.ended id s reason]

/-- The effect was refused by the actor, or failed to start on it. -/
def Refused (id : ActorId) (h : List Event) : Prop :=
  ∃ s reason, (reason = .vetoed ∨ reason = .faulted) ∧ h = [.ended id s reason]

variable {id id' : ActorId} {h : List Event} {ev : Event}

theorem Running.update (hr : Running id h) (hev : ev.isUpdate = true) (ha : ev.actor = id) :
    Running id (h ++ [ev]) := by
  obtain ⟨s, later, rfl, hall⟩ := hr
  refine ⟨s, later ++ [ev], rfl, fun x hx => ?_⟩
  rcases List.mem_append.1 hx with hx | hx
  · exact hall x hx
  · rw [List.mem_singleton.1 hx]
    exact ⟨hev, ha⟩

theorem Running.actor_eq (hr : Running id h) (hr' : Running id' h) : id = id' := by
  obtain ⟨s, later, rfl, -⟩ := hr
  obtain ⟨s', later', heq, -⟩ := hr'
  cases heq
  rfl

theorem Running.actor_of_mem (hr : Running id h) (hx : ev ∈ h) : ev.actor = id := by
  obtain ⟨s, later, rfl, hall⟩ := hr
  rcases List.mem_cons.1 hx with rfl | hx
  · rfl
  · exact (hall ev hx).2

/-- While it is running no event about an effect is its end. -/
theorem Running.endReason_eq_none (hr : Running id h) (hx : ev ∈ h) : ev.endReason = none := by
  obtain ⟨s, later, rfl, hall⟩ := hr
  rcases List.mem_cons.1 hx with rfl | hx
  · rfl
  · have hup := (hall ev hx).1
    cases ev with
    | ended => cases hup
    | _ => rfl

theorem Finished.not_running (hf : Finished id h) : ¬ Running id' h := by
  obtain ⟨earlier, s, reason, -, -, rfl⟩ := hf
  intro hr
  have hnone := hr.endReason_eq_none (List.mem_append_right earlier (List.mem_singleton.2 rfl))
  cases hnone

theorem Refused.not_running (hf : Refused id h) : ¬ Running id' h := by
  obtain ⟨s, reason, -, rfl⟩ := hf
  intro hr
  have hnone := hr.endReason_eq_none (List.mem_singleton.2 rfl)
  cases hnone

theorem not_running_nil : ¬ Running id [] := by
  rintro ⟨s, later, h, -⟩
  cases h

end History

theorem history_snoc (k : EffectId) (log : List Event) (ev : Event) :
    history k (log ++ [ev]) = history k log ++ if ev.effect.id = k then [ev] else [] := by
  by_cases hk : ev.effect.id = k <;> simp [history, hk]

/-! ### The mirror -/

/-- How a client that follows one actor enters an event. -/
def enter (id : ActorId) (seen : List Summary) (ev : Event) : List Summary :=
  if ev.actor = id then
    match ev with
    | .started _ s => seen ++ [s]
    | .refreshed _ s | .ticked _ s _ => updateFirst (·.id == s.id) (fun _ => s) seen
    | .ended _ s _ => seen.filter (·.id != s.id)
  else seen

/-- What a client that follows one actor makes of a log. -/
def mirror (id : ActorId) (log : List Event) : List Summary := log.foldl (enter id) []

theorem mirror_snoc (id : ActorId) (log : List Event) (ev : Event) :
    mirror id (log ++ [ev]) = enter id (mirror id log) ev := by
  simp [mirror]

/-! ### Events that tell a change -/

/-- An event that tells how the summaries of an actor change.  Starts and refusals are about an
effect under the next key, the other events about one that is there. -/
inductive Tells (next : Nat) (id : ActorId) (seen : List Summary) : Event → List Summary → Prop
  | start {s : Summary} (key : s.id = ⟨next⟩) : Tells next id seen (.started id s) (seen ++ [s])
  | update {ev : Event} (update : ev.isUpdate = true) (actor : ev.actor = id)
      (present : ev.effect.id ∈ seen.map (·.id)) :
      Tells next id seen ev (updateFirst (·.id == ev.effect.id) (fun _ => ev.effect) seen)
  | finish {s : Summary} {reason : EndReason} (parting : reason.isParting = true)
      (present : s ∈ seen) :
      Tells next id seen (.ended id s reason) (seen.filter (·.id != s.id))
  | refuse {s : Summary} {reason : EndReason} (refused : reason = .vetoed ∨ reason = .faulted)
      (key : s.id = ⟨next⟩) : Tells next id seen (.ended id s reason) seen

theorem enter_of_ne {id : ActorId} {seen : List Summary} {ev : Event} (h : ev.actor ≠ id) :
    enter id seen ev = seen := by
  simp [enter, h]

namespace Tells

variable {next : Nat} {id : ActorId} {seen seen' : List Summary} {ev : Event} {k : EffectId}

theorem actor_eq (h : Tells next id seen ev seen') : ev.actor = id := by
  cases h with
  | update _ actor _ => exact actor
  | _ => rfl

/-- Whoever enters the event gets the summaries after the change. -/
theorem enter_eq (h : Tells next id seen ev seen') (fresh : ∀ s ∈ seen, s.id ≠ ⟨next⟩) :
    enter id seen ev = seen' := by
  cases h with
  | start _ => simp [enter, Event.actor]
  | update update actor _ =>
    cases ev with
    | refreshed | ticked => simp_all [enter, Event.actor, Event.effect]
    | started | ended => cases update
  | finish _ _ => simp [enter, Event.actor]
  | refuse _ key =>
    simp only [enter, Event.actor, if_true, key]
    exact List.filter_eq_self.2 fun s hs => by simpa using fresh s hs

theorem keys_update (ev : Event) (seen : List Summary) :
    (updateFirst (·.id == ev.effect.id) (fun _ => ev.effect) seen).map (·.id) =
      seen.map (·.id) := by
  refine map_updateFirst fun s hs => ?_
  have hkey := List.find?_some hs
  rw [beq_iff_eq] at hkey
  exact hkey.symm

/-- The other effects of the actor stay. -/
theorem mem_keys_iff (h : Tells next id seen ev seen') (hk : k ≠ ev.effect.id) :
    k ∈ seen'.map (·.id) ↔ k ∈ seen.map (·.id) := by
  cases h with
  | start _ => simp_all [Event.effect]
  | update _ _ _ => rw [keys_update]
  | finish _ _ =>
    simp only [List.mem_map, List.mem_filter]
    constructor
    · rintro ⟨s, ⟨hs, -⟩, rfl⟩
      exact ⟨s, hs, rfl⟩
    · rintro ⟨s, hs, rfl⟩
      exact ⟨s, ⟨hs, by simpa [Event.effect] using hk⟩, rfl⟩
  | refuse _ _ => rfl

end Tells

/-! ### The invariant -/

section Invariant

open History

/-- The history of an effect agrees with the actors whose summaries show it. -/
inductive Recorded (shown : ActorId → List Summary) (k : EffectId) : List Event → Prop
  | unborn (absent : ∀ id, k ∉ (shown id).map (·.id)) : Recorded shown k []
  | running {id : ActorId} {h : List Event} (running : Running id h)
      (present : ∀ id', k ∈ (shown id').map (·.id) ↔ id' = id) : Recorded shown k h
  | gone {id : ActorId} {h : List Event} (gone : Finished id h ∨ Refused id h)
      (absent : ∀ id', k ∉ (shown id').map (·.id)) : Recorded shown k h

/-- A log agrees with the summaries of all actors, where `next` is the next key. -/
structure Chronicled (next : Nat) (shown : ActorId → List Summary) (log : List Event) : Prop where
  mirrored : ∀ id, mirror id log = shown id
  unborn : ∀ k : EffectId, next ≤ k.val → history k log = []
  recorded : ∀ k, Recorded shown k (history k log)
  increasing : (log.filterMap Event.startedKey?).Pairwise (· < ·)

variable {next next' : Nat} {id : ActorId} {shown shown' : ActorId → List Summary}
  {log : List Event} {ev : Event} {k : EffectId} {h : List Event}

theorem Recorded.congr (hr : Recorded shown k h)
    (same : ∀ id, k ∈ (shown' id).map (·.id) ↔ k ∈ (shown id).map (·.id)) :
    Recorded shown' k h := by
  cases hr with
  | unborn absent => exact .unborn fun id hk => absent id ((same id).1 hk)
  | running hrun present => exact .running hrun fun id => (same id).trans (present id)
  | gone hgone absent => exact .gone hgone fun id hk => absent id ((same id).1 hk)

/-- An effect that is shown has a history of a running effect. -/
theorem Recorded.running_of_mem (hr : Recorded shown k h) (hk : k ∈ (shown id).map (·.id)) :
    Running id h ∧ ∀ id', k ∈ (shown id').map (·.id) ↔ id' = id := by
  cases hr with
  | unborn absent => exact absurd hk (absent id)
  | running hrun present =>
    obtain rfl := (present id).1 hk
    exact ⟨hrun, present⟩
  | gone _ absent => exact absurd hk (absent id)

theorem Recorded.shape (hr : Recorded shown k h) :
    h = [] ∨ ∃ id, Running id h ∨ Finished id h ∨ Refused id h := by
  cases hr with
  | unborn _ => exact .inl rfl
  | running hrun _ => exact .inr ⟨_, .inl hrun⟩
  | gone hgone _ => exact .inr ⟨_, .inr hgone⟩

/-- All that is told of an effect is told of one actor. -/
theorem Recorded.exists_actor (hr : Recorded shown k h) : ∃ id, ∀ ev ∈ h, ev.actor = id := by
  rcases hr.shape with rfl | ⟨id, hrun | ⟨earlier, s, reason, hrun, -, rfl⟩ | ⟨s, reason, -, rfl⟩⟩
  · exact ⟨⟨0⟩, fun _ hev => nomatch hev⟩
  · exact ⟨id, fun ev hev => hrun.actor_of_mem hev⟩
  · refine ⟨id, fun ev hev => ?_⟩
    rcases List.mem_append.1 hev with hev | hev
    · exact hrun.actor_of_mem hev
    · rw [List.mem_singleton.1 hev]
      rfl
  · refine ⟨id, fun ev hev => ?_⟩
    rw [List.mem_singleton.1 hev]
    rfl

theorem Recorded.running_iff (hr : Recorded shown k h) :
    Running id h ↔ k ∈ (shown id).map (·.id) := by
  refine ⟨fun hrun => ?_, fun hk => (hr.running_of_mem hk).1⟩
  cases hr with
  | unborn _ => exact absurd hrun not_running_nil
  | running hrun' present => exact (present id).2 (hrun.actor_eq hrun')
  | gone hgone _ =>
    rcases hgone with hfin | href
    · exact absurd hrun hfin.not_running
    · exact absurd hrun href.not_running

theorem Recorded.absent (hr : Recorded shown k []) (id : ActorId) : k ∉ (shown id).map (·.id) :=
  fun hk => not_running_nil (hr.running_iff.2 hk)

/-- Nothing is told of an effect after its end. -/
theorem Recorded.eq_nil_of_ended {h₁ h₂ : List Event} (hr : Recorded shown k (h₁ ++ h₂))
    (hev : ev ∈ h₁) (hend : ev.endReason ≠ none) : h₂ = [] := by
  have hmem : ev ∈ h₁ ++ h₂ := List.mem_append_left _ hev
  rcases h₂.eq_nil_or_concat' with rfl | ⟨init, last, rfl⟩
  · rfl
  · rw [← List.append_assoc] at hr hmem
    rcases hr.shape with hnil | ⟨id, hrun | ⟨earlier, s, reason, hrun, -, hfin⟩ | ⟨s, reason, -, href⟩⟩
    · rw [hnil] at hmem
      cases hmem
    · exact absurd (hrun.endReason_eq_none hmem) hend
    · obtain ⟨rfl, -⟩ := List.append_inj' hfin rfl
      exact absurd (hrun.endReason_eq_none (List.mem_append_left _ hev)) hend
    · have hsingle : (h₁ ++ init) ++ [last] = [] ++ [.ended id s reason] := href
      obtain ⟨hnil, -⟩ := List.append_inj' hsingle rfl
      rw [(List.append_eq_nil_iff.1 hnil).1] at hev
      cases hev

namespace Chronicled

theorem absent (hc : Chronicled next shown log) (hk : next ≤ k.val) (id : ActorId) :
    k ∉ (shown id).map (·.id) := by
  have hr := hc.recorded k
  rw [hc.unborn k hk] at hr
  exact hr.absent id

/-- The history of the effect that an event is about goes on as the summaries do. -/
theorem recorded_tell (hc : Chronicled next shown log)
    (told : Tells next id (shown id) ev (shown' id)) (frame : ∀ i, i ≠ id → shown' i = shown i) :
    Recorded shown' ev.effect.id (history ev.effect.id log ++ [ev]) := by
  -- of the other actors none shows the effect, neither before nor after
  have hothers : ∀ {k : EffectId}, (∀ i, k ∈ (shown i).map (·.id) → i = id) →
      ∀ i, k ∈ (shown' i).map (·.id) → i = id := fun hall i hi => by
    by_contra hne
    rw [frame i hne] at hi
    exact hne (hall i hi)
  generalize hnew : shown' id = seen' at told
  cases told with
  | @start s key =>
    have habsent := hc.absent (k := s.id) (by simp [key])
    have hunborn : history s.id log = [] := hc.unborn s.id (by simp [key])
    have hrun : Running id (history s.id log ++ [.started id s]) :=
      ⟨s, [], by simp [hunborn], by simp⟩
    refine .running hrun fun i => ?_
    constructor
    · exact hothers (fun j hj => absurd hj (habsent j)) i
    · rintro rfl
      simp [hnew, Event.effect]
  | update update actor present =>
    obtain ⟨hrun, honly⟩ := (hc.recorded _).running_of_mem present
    refine .running (hrun.update update actor) fun i => ?_
    constructor
    · exact hothers (fun j hj => (honly j).1 hj) i
    · rintro rfl
      rw [hnew, Tells.keys_update]
      exact present
  | @finish s reason parting present =>
    have hmem : s.id ∈ (shown id).map (·.id) := List.mem_map_of_mem present
    obtain ⟨hrun, honly⟩ := (hc.recorded _).running_of_mem hmem
    refine .gone (.inl ⟨_, s, reason, hrun, parting, rfl⟩) fun i hi => ?_
    obtain rfl := hothers (fun j hj => (honly j).1 hj) i hi
    obtain ⟨x, hx, hxk⟩ := List.mem_map.1 hi
    rw [hnew, List.mem_filter] at hx
    simp [hxk, Event.effect] at hx
  | @refuse s reason refused key =>
    have habsent := hc.absent (k := s.id) (by simp [key])
    have hunborn : history s.id log = [] := hc.unborn s.id (by simp [key])
    have hrefused : Refused id (history s.id log ++ [.ended id s reason]) :=
      ⟨s, reason, refused, by simp [hunborn]⟩
    refine .gone (.inr hrefused) fun i hi => ?_
    obtain rfl := hothers (fun j hj => absurd hj (habsent j)) i hi
    rw [hnew] at hi
    exact habsent i hi

/-- **An event that tells a change keeps log and summaries in agreement.** -/
theorem tell (hc : Chronicled next shown log) (told : Tells next id (shown id) ev (shown' id))
    (frame : ∀ i, i ≠ id → shown' i = shown i) (hnext : next ≤ next')
    (hkey : ev.effect.id.val < next') : Chronicled next' shown' (log ++ [ev]) where
  mirrored i := by
    rw [mirror_snoc, hc.mirrored]
    by_cases hi : i = id
    · subst hi
      refine told.enter_eq fun s hs hsk => hc.absent (k := ⟨next⟩) (Nat.le_refl _) i ?_
      exact hsk ▸ List.mem_map_of_mem hs
    · rw [frame i hi]
      exact enter_of_ne fun ha => hi (ha.symm.trans told.actor_eq)
  unborn k hk := by
    have hne : ev.effect.id ≠ k := by
      rintro rfl
      omega
    rw [history_snoc, hc.unborn k (Nat.le_trans hnext hk), if_neg hne, List.append_nil]
  recorded k := by
    rw [history_snoc]
    split_ifs with hk
    · subst hk
      exact hc.recorded_tell told frame
    · rw [List.append_nil]
      refine (hc.recorded k).congr fun i => ?_
      by_cases hi : i = id
      · subst hi
        exact told.mem_keys_iff (Ne.symm hk)
      · rw [frame i hi]
  increasing := by
    rw [List.filterMap_append, List.pairwise_append]
    refine ⟨hc.increasing, ?_, ?_⟩
    · cases ev <;> simp [List.filterMap_cons, Event.startedKey?]
    · -- only a start adds a key, and it is the next one
      intro n hn m hm
      obtain ⟨x, hx, hxn⟩ := List.mem_filterMap.1 hn
      have hxkey : x.effect.id.val = n := by
        cases x with
        | started => exact Option.some.inj hxn
        | _ => cases hxn
      have hlt : n < next := by
        by_contra hge
        have hnil := hc.unborn x.effect.id (by omega)
        have hmem : x ∈ history x.effect.id log := by simp [history, hx]
        rw [hnil] at hmem
        cases hmem
      generalize shown' id = seen' at told
      cases told with
      | start key =>
        simp only [List.filterMap_cons, Event.startedKey?, List.filterMap_nil,
          List.mem_singleton] at hm
        rw [hm, key]
        exact hlt
      | update update _ _ => cases ev <;> simp_all [Event.startedKey?, Event.isUpdate]
      | finish | refuse => simp [Event.startedKey?] at hm

theorem quiet (hc : Chronicled next shown log) (same : ∀ id, shown' id = shown id)
    (hnext : next ≤ next') : Chronicled next' shown' log := by
  obtain rfl : shown' = shown := funext same
  exact { hc with unborn := fun k hk => hc.unborn k (Nat.le_trans hnext hk) }

end Chronicled

end Invariant

/-! ### Changes of a bearer -/

namespace EffectList

theorem summaries_update (l : EffectList) (k : EffectId) (e : Effect) :
    (l.update k e).summaries = updateFirst (·.id == k) (fun _ => e.summary) l.summaries := by
  refine map_updateFirst_comm ?_ ?_ l.effects
  · exact fun _ => rfl
  · exact fun _ => rfl

theorem summaries_snoc (l : EffectList) (e : Effect) (n : Nat) :
    (⟨l.owner, l.effects ++ [e], n⟩ : EffectList).summaries = l.summaries ++ [e.summary] :=
  List.map_append

theorem summaries_erase {l : EffectList} (h : (l.effects.map (·.id)).Nodup) (k : EffectId) :
    (l.erase k).summaries = l.summaries.filter (·.id != k) := by
  simp only [summaries, erase, eraseP_eq_filter h, List.filter_map]
  rfl

theorem summary_mem {l : EffectList} {k : EffectId} {e : Effect} (h : l.get? k = some e) :
    e.summary ∈ l.summaries :=
  List.mem_map_of_mem (mem_of_get? h)

end EffectList

namespace Bearer

variable {codex : Codex} {next : Nat} {id : ActorId} {b b' : Bearer} {ev : Event} {p : Profile}
  {settings : Settings} {incoming : Effect}

/-- The event of a turn tells it. -/
theorem Sound.told_turn (hb : b.Sound codex next id) (h : b.Turn ev b') :
    Tells next id b.list.summaries ev b'.list.summaries := by
  obtain rfl := hb.owner
  cases h with
  | @tick e found _ =>
    have hmem : e.id ∈ b.list.summaries.map (·.id) :=
      List.mem_map_of_mem (EffectList.summary_mem found)
    rw [EffectList.summaries_update]
    exact .update rfl rfl hmem
  | @finish e _ found parting =>
    rw [EffectList.summaries_erase hb.keys]
    exact .finish parting (EffectList.summary_mem found)

/-- The event of an incoming effect tells what becomes of it. -/
theorem Sound.told_arrival (hb : b.Sound codex next id) (hin : incoming.Incoming codex next id)
    (h : b.Arrival p settings incoming ev b') :
    Tells next id b.list.summaries ev b'.list.summaries := by
  obtain rfl := hb.owner
  cases h with
  | @renew e found =>
    have hget := hb.get?_of_mem (List.mem_of_find?_eq_some found)
    have hmem : e.id ∈ b.list.summaries.map (·.id) :=
      List.mem_map_of_mem (EffectList.summary_mem hget)
    rw [EffectList.summaries_update]
    exact .update rfl rfl hmem
  | start _ _ _ _ =>
    have hsnoc := b.list.summaries_snoc (b.begun incoming) (b.list.nextOrder + 1)
    exact hsnoc.symm ▸ Tells.start hin.key
  | veto _ => exact .refuse (.inl rfl) hin.key
  | fail _ => exact .refuse (.inr rfl) hin.key

end Bearer

/-! ### Runs -/

namespace Engine

variable {g g' : Engine}

/-- The events published so far, in order. -/
def log (g : Engine) : List Event := g.feed.journal.toList.map (·.event)

/-- The summaries of an actor's effects in the order of application. -/
def shown (g : Engine) (id : ActorId) : List Summary :=
  match g.world.get? id with
  | some a => a.bearer.list.summaries
  | none => []

/-- Whether an effect is active on an actor. -/
def Hosts (g : Engine) (id : ActorId) (k : EffectId) : Prop :=
  ∃ a, g.world.get? id = some a ∧ ∃ e ∈ a.bearer.list.effects, e.id = k ∧ e.isActive = true

theorem shown_eq (g : Engine) (id : ActorId) :
    g.shown id = (g.world.bearer? id).elim [] (·.list.summaries) := by
  simp only [shown, World.bearer?]
  cases g.world.get? id <;> rfl

theorem log_publishAll (f : Feed) (moment : Nat) (events : List Event) :
    (f.publishAll moment events).journal.toList.map (·.event) =
      f.journal.toList.map (·.event) ++ events := by
  simp [Feed.publishAll, Function.comp_def]

theorem log_tell (g : Engine) (id : ActorId) (moment : Nat) (b : Bearer) (events : List Event) :
    (g.tell id moment b events).log = g.log ++ events :=
  log_publishAll g.feed moment events

theorem shown_tell {id : ActorId} {a : Actor} (found : g.world.get? id = some a) (moment : Nat)
    (b : Bearer) (events : List Event) (k : ActorId) :
    (g.tell id moment b events).shown k = if k = id then b.list.summaries else g.shown k := by
  simp only [shown_eq, bearer?_tell found]
  split_ifs <;> rfl

theorem shown_of_get? {id : ActorId} {a : Actor} (found : g.world.get? id = some a) :
    g.shown id = a.bearer.list.summaries := by
  simp [shown, found]

/-- **A step is told as it happens.**  Either the clients see no change, or one event is published
and tells what has changed for its actor. -/
theorem step_told (hg : g.Sound) (h : Step g g') :
    (g'.log = g.log ∧ ∀ id, g'.shown id = g.shown id) ∨
    ∃ id ev, g'.log = g.log ++ [ev] ∧ Tells g.nextEffect id (g.shown id) ev (g'.shown id) ∧
      (∀ k, k ≠ id → g'.shown k = g.shown k) ∧ ev.effect.id.val < g'.nextEffect := by
  cases h with
  | @turn id a ev b moment found change =>
    have hb := hg.bearer found
    refine .inr ⟨id, ev, log_tell g id moment b [ev], ?_, ?_, ?_⟩
    · rw [shown_tell found, if_pos rfl, shown_of_get? found]
      exact hb.told_turn change
    · intro k hk
      rw [shown_tell found, if_neg hk]
    · cases change with
      | tick hget _ => exact (hb.seated _ (EffectList.mem_of_get? hget)).fresh
      | finish hget _ => exact (hb.seated _ (EffectList.mem_of_get? hget)).fresh
  | @arrival t r a ev b known passed change =>
    have found := get?_of_gate passed
    have hb := hg.bearer found
    have found' : ({ g with nextEffect := g.nextEffect + 1 } : Engine).world.get? r.target =
        some a := found
    refine .inr ⟨r.target, ev, log_tell _ r.target g.now b [ev], ?_, ?_, ?_⟩
    · rw [shown_tell found', if_pos rfl, shown_of_get? found]
      exact hb.told_arrival (incoming_incoming known) change
    · intro k hk
      rw [shown_tell found', if_neg hk]
      rfl
    · cases change with
      | renew hren =>
        exact Nat.lt_succ_of_lt (hb.seated _ (List.mem_of_find?_eq_some hren)).fresh
      | start | veto | fail => exact Nat.lt_succ_self _
  | skip => exact .inl ⟨rfl, fun _ => rfl⟩
  | @enter p absent =>
    -- an actor has no effects when it enters
    refine .inl ⟨rfl, fun id => ?_⟩
    simp only [shown_eq, spawn, World.bearer?_spawn_new absent]
    split_ifs with hid
    · simp [hid, World.bearer?_eq_none.2 absent, Bearer.fresh, EffectList.summaries]
    · rfl
  | profile keeps =>
    refine .inl ⟨rfl, fun id => ?_⟩
    simp only [shown_eq, World.bearer?_modifyProfile keeps]
  | @leave id a found empty =>
    -- the ends of its effects were told before it leaves
    refine .inl ⟨rfl, fun k => ?_⟩
    simp only [shown_eq, World.bearer?_remove]
    split_ifs with hk
    · simp [hk, World.bearer?_of_get? found, EffectList.summaries, empty]
    · rfl
  | quiet same =>
    rw [same]
    exact .inl ⟨rfl, fun _ => rfl⟩

theorem chronicled_step (hg : g.Sound) (hc : Chronicled g.nextEffect g.shown g.log)
    (h : Step g g') : Chronicled g'.nextEffect g'.shown g'.log := by
  have hnext := nextEffect_step h
  rcases step_told hg h with ⟨hlog, hshown⟩ | ⟨id, ev, hlog, told, hframe, hkey⟩
  · rw [hlog]
    exact hc.quiet hshown hnext
  · rw [hlog]
    exact hc.tell told hframe hnext hkey

theorem chronicled_steps (hg : g.Sound) (hc : Chronicled g.nextEffect g.shown g.log)
    (h : Steps g g') : Chronicled g'.nextEffect g'.shown g'.log := by
  induction h with
  | refl => exact hc
  | tail hsteps hstep ih => exact chronicled_step (hg.steps hsteps) ih hstep

theorem chronicled_opened (settings : Settings) (codex : Codex) (start : UInt64) (manual : Bool)
    (capacity : Nat) :
    let g := opened settings codex start manual capacity
    Chronicled g.nextEffect g.shown g.log where
  mirrored _ := rfl
  unborn _ _ := rfl
  recorded _ := .unborn fun _ h => nomatch h
  increasing := .nil

theorem hosts_iff (hg : g.Sound) (id : ActorId) (k : EffectId) :
    g.Hosts id k ↔ k ∈ (g.shown id).map (·.id) := by
  constructor
  · rintro ⟨a, found, e, he, rfl, -⟩
    rw [shown_of_get? found]
    exact List.mem_map_of_mem (List.mem_map_of_mem he)
  · intro hk
    obtain ⟨s, hs, rfl⟩ := List.mem_map.1 hk
    cases found : g.world.get? id with
    | none => simp [shown, found] at hs
    | some a =>
      rw [shown_of_get? found] at hs
      obtain ⟨e, he, rfl⟩ := List.mem_map.1 hs
      have hactive := ((hg.bearer found).seated e he).active
      exact ⟨a, found, e, he, rfl, by simp [Effect.isActive, hactive]⟩

/-- **What the log tells.**  After every run over an empty world the events about an effect are none
or have one of the three shapes, all of them about one actor, and that of a running effect exactly
when the effect is active on that actor.  Effects have started in the order of their keys, and
entering the events one after the other gives the summaries of every actor. -/
theorem chronicle_run (settings : Settings) (codex : Codex) (start : UInt64) (manual : Bool)
    (capacity : Nat) (ops : List Op) :
    let g := (opened settings codex start manual capacity).run ops
    (∀ k, history k g.log = [] ∨ ∃ id, History.Running id (history k g.log) ∨
      History.Finished id (history k g.log) ∨ History.Refused id (history k g.log)) ∧
    (∀ k id, History.Running id (history k g.log) ↔ g.Hosts id k) ∧
    (g.log.filterMap Event.startedKey?).Pairwise (· < ·) ∧
    ∀ id, mirror id g.log = g.shown id := by
  intro g
  have hopened := sound_opened settings codex start manual capacity
  have hg : g.Sound := sound_run hopened ops
  have hc : Chronicled g.nextEffect g.shown g.log :=
    chronicled_steps hopened (chronicled_opened settings codex start manual capacity)
      (steps_run hopened ops)
  refine ⟨fun k => (hc.recorded k).shape, fun k id => ?_, hc.increasing, hc.mirrored⟩
  rw [hosts_iff hg]
  exact (hc.recorded k).running_iff

/-- A haste that started and was superseded, and a hold that runs. -/
example :
    let g := (opened {} trialCodex 0 true 1).run
      [.enter 1, .cast 1 1, .cast 1 3, .cast 1 2, .advanceTo 500]
    (g.log.map fun ev => (ev.effect.id.val, ev.label)) =
      [(1, "started"), (2, "started"), (1, "ended"), (3, "started"), (2, "ticked")] := by
  rfl

end Engine

end StatusEffects
