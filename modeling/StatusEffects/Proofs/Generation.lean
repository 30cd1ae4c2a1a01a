import StatusEffects.Proofs.Purpose

/-!
# Generations of running effects

The generation of an effect is a word that each renewal adds one to, and every renewal is told.  So
the log says which generation a running effect is of, and a timer that was asked for before the last
renewal can be told from one that was asked for since.

## Main definitions

* `Engine.Dated` : the generation of every running effect counts its renewals.

## Main statements

* `Engine.running_of_bears` : what is told of an effect that is borne.
* `Engine.dated_step`, `Engine.dated_steps` : steps keep an engine dated.
-/

namespace StatusEffects

section Log

variable {log more : List Event} {k : EffectId} {ev : Event}

theorem renewals_append (k : EffectId) (log more : List Event) :
    renewals k (log ++ more) = renewals k log + renewals k more := by
  simp only [renewals, history, List.filter_append, List.countP_append]

/-- Only renewals of an effect count as such. -/
theorem renewals_snoc_of_not (log : List Event) (h : ev.isRefresh = true → ev.effect.id ≠ k) :
    renewals k (log ++ [ev]) = renewals k log := by
  rw [renewals, renewals, history_snoc]
  split_ifs with hk
  · have hnot : ev.isRefresh = false := by
      by_contra hr
      exact h (by simpa using hr) hk
    simp [List.countP_append, hnot]
  · rw [List.append_nil]

theorem renewals_pos_of_mem (hev : ev ∈ log) (hrefresh : ev.isRefresh = true) :
    0 < renewals ev.effect.id log := by
  refine List.countP_pos_iff.2 ⟨ev, ?_, hrefresh⟩
  simp [history, hev]

theorem renewals_le_length (k : EffectId) (log : List Event) : renewals k log ≤ log.length := by
  unfold renewals history
  exact Nat.le_trans List.countP_le_length (List.length_filter_le _ _)

end Log

namespace Engine

open History

variable {g g' : Engine} {id id' : ActorId} {a : Actor} {e e' : Effect}

theorem key_mem_shown (he : g.Bears id e) : e.id ∈ (g.shown id).map (·.id) := by
  obtain ⟨b, hb, hget⟩ := he
  rw [shown_eq, hb]
  exact List.mem_map_of_mem (EffectList.summary_mem hget)

/-- An effect that is borne is told to be running on its actor. -/
theorem running_of_bears (hc : Chronicled g.nextEffect g.shown g.log) (he : g.Bears id e) :
    Running id (history e.id g.log) :=
  ((hc.recorded e.id).running_of_mem (key_mem_shown he)).1

/-- No two actors bear effects with one key. -/
theorem actor_unique (hc : Chronicled g.nextEffect g.shown g.log) (he : g.Bears id e)
    (he' : g.Bears id' e') (hid : e'.id = e.id) : id' = id := by
  have honly := ((hc.recorded e.id).running_of_mem (key_mem_shown he)).2
  exact (honly id').1 (hid ▸ key_mem_shown he')

/-- The generation of every running effect counts the renewals that have been told. -/
def Dated (g : Engine) : Prop :=
  ∀ id e, g.Bears id e → e.generation = UInt32.ofNat (renewals e.id g.log)

theorem Dated.congr (hd : g.Dated) (hlog : g'.log = g.log)
    (hbears : ∀ id e, g'.Bears id e → g.Bears id e) : g'.Dated := by
  intro id e he
  rw [hlog]
  exact hd id e (hbears id e he)

/-- A tick keeps the generation, and an end leaves the others theirs. -/
theorem dated_turn {ev : Event} {b : Bearer} (hg : g.Sound) (hd : g.Dated)
    (found : g.world.get? id = some a) (change : a.bearer.Turn ev b) (moment : Nat) :
    (g.tell id moment b [ev]).Dated := by
  intro k e he
  have hb := hg.bearer found
  have hsame : renewals e.id (g.tell id moment b [ev]).log = renewals e.id g.log := by
    rw [log_tell]
    refine renewals_snoc_of_not _ fun hrefresh => ?_
    cases change <;> cases hrefresh
  rw [hsame]
  obtain ⟨c, hbearer, hget⟩ := he
  rw [bearer?_tell found] at hbearer
  split_ifs at hbearer with hk
  · subst hk
    obtain rfl := Option.some.inj hbearer
    have hmem := EffectList.mem_of_get? hget
    cases change with
    | @tick f hfound _ =>
      have hid : f.countTick.id = f.id := rfl
      rcases EffectList.mem_update hb.keys hfound hid hmem with rfl | ⟨hmem, -⟩
      · exact hd k f ⟨_, World.bearer?_of_get? found, hfound⟩
      · exact hd k e (bears_of_mem hg found hmem)
    | finish _ _ => exact hd k e (bears_of_mem hg found (List.eraseP_sublist.subset hmem))
  · exact hd k e ⟨c, hbearer, hget⟩

/-- A renewal that is told adds one to the generation, and an effect starts with the first. -/
theorem dated_arrival {t : Template} {r : Request} {ev : Event} {b : Bearer} (hg : g.Sound)
    (hc : Chronicled g.nextEffect g.shown g.log) (hd : g.Dated)
    (found : g.world.get? r.target = some a)
    (change : a.bearer.Arrival a.profile g.settings (g.incoming t r) ev b) :
    ({ g with nextEffect := g.nextEffect + 1 }.tell r.target g.now b [ev]).Dated := by
  intro k e he
  have hb := hg.bearer found
  have hlog : ({ g with nextEffect := g.nextEffect + 1 }.tell r.target g.now b [ev]).log =
      g.log ++ [ev] := log_tell _ _ _ _ _
  rw [hlog]
  obtain ⟨c, hbearer, hget⟩ := he
  rw [bearer?_tell (g := { g with nextEffect := g.nextEffect + 1 }) found] at hbearer
  have hother : ∀ f, g.Bears k f → (ev.isRefresh = true → ev.effect.id ≠ f.id) →
      f.generation = UInt32.ofNat (renewals f.id (g.log ++ [ev])) := by
    intro f hf hne
    rw [renewals_snoc_of_not _ hne]
    exact hd k f hf
  split_ifs at hbearer with hk
  · subst hk
    obtain rfl := Option.some.inj hbearer
    have hmem := EffectList.mem_of_get? hget
    cases change with
    | @renew f hren =>
      have hfound := hb.get?_of_mem (List.mem_of_find?_eq_some hren)
      have hid : (f.refresh (g.incoming t r).params g.settings.refreshAdoptsEnchant).id = f.id :=
        rfl
      rcases EffectList.mem_update hb.keys hfound hid hmem with rfl | ⟨hmem, hne⟩
      · have hgeneration := hd r.target f ⟨_, World.bearer?_of_get? found, hfound⟩
        have hrenewals := renewals_refreshed g.log a.bearer.owner (k := f.id)
          (s := (f.refresh (g.incoming t r).params g.settings.refreshAdoptsEnchant).summary) rfl
        rw [hid, hrenewals, UInt32.ofNat_add, ← hgeneration]
        rfl
      · exact hother e (bears_of_mem hg found hmem) fun _ => hne.symm
    | start _ _ _ _ =>
      rcases List.mem_append.1 hmem with hmem | hmem
      · exact hother e (bears_of_mem hg found hmem) (by intro h; cases h)
      · -- the key of an effect that starts has not been told before
        obtain rfl := List.mem_singleton.1 hmem
        have hunborn : history (a.bearer.begun (g.incoming t r)).id g.log = [] :=
          hc.unborn _ (Nat.le_refl _)
        rw [renewals_snoc_of_not _ (by intro h; cases h), renewals, hunborn]
        rfl
    | veto _ => exact hother e (bears_of_mem hg found hmem) (by intro h; cases h)
    | fail _ => exact hother e (bears_of_mem hg found hmem) (by intro h; cases h)
  · refine hother e ⟨c, hbearer, hget⟩ fun hrefresh hsame => hk ?_
    cases change with
    | @renew f hren =>
      -- the effect that is renewed is borne by the target alone
      have hf := bears_of_mem hg found (List.mem_of_find?_eq_some hren)
      exact actor_unique hc hf ⟨c, hbearer, hget⟩ hsame.symm
    | start | veto | fail => cases hrefresh

/-- **Steps keep an engine dated.** -/
theorem dated_step (hg : g.Sound) (hc : Chronicled g.nextEffect g.shown g.log) (hd : g.Dated)
    (h : Step g g') : g'.Dated := by
  cases h with
  | turn moment found change => exact dated_turn hg hd found change moment
  | arrival _ passed change =>
    exact dated_arrival hg hc hd (get?_of_gate passed) change
  | skip => exact hd.congr rfl fun _ _ he => he
  | @enter p absent =>
    refine hd.congr rfl fun id e he => ?_
    obtain ⟨b, hb, hget⟩ := he
    simp only [spawn, World.bearer?_spawn_new absent] at hb
    split_ifs at hb
    · obtain rfl := Option.some.inj hb
      cases hget
    · exact ⟨b, hb, hget⟩
  | profile keeps =>
    exact hd.congr rfl fun id e he => bears_congr (World.bearer?_modifyProfile keeps).symm he
  | leave found empty =>
    refine hd.congr rfl fun id e he => ?_
    obtain ⟨b, hb, hget⟩ := he
    rw [World.bearer?_remove] at hb
    split_ifs at hb
    exact ⟨b, hb, hget⟩
  | quiet same =>
    rw [same]
    exact hd.congr rfl fun _ _ he => he

theorem dated_steps (hg : g.Sound) (hc : Chronicled g.nextEffect g.shown g.log) (hd : g.Dated)
    (h : Steps g g') : g'.Dated := by
  induction h with
  | refl => exact hd
  | tail hsteps hstep ih =>
    exact dated_step (hg.steps hsteps) (chronicled_steps hg hc hsteps) ih hstep

end Engine

end StatusEffects
