import StatusEffects.Proofs.Imprint

/-!
# The life of an effect

Whoever holds an effect may call on it in any order and as often as they like: a dispel may race
with a tick, an end may be asked for twice, a start may be refused or fail.  The effect answers as an
automaton of three phases does, and what it has done to its actor depends on its phase alone: its
entries are there exactly while it is active.

## Main definitions

* `Effect.Call`, `Effect.call`, `Effect.after` : calls on an effect and what they leave.
* `Effect.Moves` : the automaton.
* `Effect.Stage` : what an effect and the status of its actor are like in the course of its life.

## Main statements

* `Effect.moves_call` : a call makes a move of the automaton.
* `Effect.Stage.call` : a call leads from stage to stage.
* `Effect.lifespan` : phase and status after any calls.
-/

namespace StatusEffects

/-! ### Entries that come and go -/

namespace Status

variable {s s' : Status} {e e' : Effect}

theorem filter_ne_append {β : Type} {tag : β → EffectId} {k : EffectId} {others own : List β}
    (hothers : ∀ x ∈ others, tag x ≠ k) (hown : ∀ x ∈ own, tag x = k) :
    (others ++ own).filter (fun x => tag x ≠ k) = others := by
  have hstay : others.filter (fun x => tag x ≠ k) = others :=
    List.filter_eq_self.2 fun x hx => by simpa using hothers x hx
  have hgo : own.filter (fun x => tag x ≠ k) = [] :=
    List.filter_eq_nil_iff.2 fun x hx => by simpa using hown x hx
  rw [List.filter_append, hstay, hgo, List.append_nil]

/-- **Withdrawing undoes a start.** -/
theorem Adds.withdraw_eq (h : s.Adds e s') (lacks : s.Lacks e.id) : s'.withdraw e.id = s := by
  have hholds : (s'.withdraw e.id).holds = s.holds := by
    have hothers : ∀ k ∈ s.holds, id k ≠ e.id := fun k hk hke => lacks.holds (hke ▸ hk)
    have hsift := filter_ne_append hothers fun _ => Effect.tag_ownHolds
    rwa [← h.holds] at hsift
  have hvisuals : (s'.withdraw e.id).visuals = s.visuals := by
    have hsift := filter_ne_append lacks.visuals fun _ => Effect.tag_ownVisuals
    rwa [← h.visuals] at hsift
  have hbonuses : (s'.withdraw e.id).bonuses = s.bonuses := by
    have hsift := filter_ne_append lacks.bonuses fun _ => Effect.tag_ownBonuses
    rwa [← h.bonuses] at hsift
  have hform : (s'.withdraw e.id).form = s.form := by
    have hothers : ∀ x ∈ s.form.toList, x.1 ≠ e.id := fun x hx =>
      lacks.form x (Option.mem_toList.1 hx)
    have hsift := filter_ne_append hothers fun _ => Effect.tag_ownForm
    rw [← h.form, ← toList_filter] at hsift
    have hhead := congrArg List.head? hsift
    rwa [Option.head?_toList, Option.head?_toList] at hhead
  generalize s'.withdraw e.id = r at hholds hvisuals hbonuses hform
  cases r
  cases s
  congr

theorem Adds.congr (h : s.Adds e s') (same : e.OwnSame e') : s.Adds e' s' :=
  ⟨same.holds ▸ h.holds, same.visuals ▸ h.visuals, same.bonuses ▸ h.bonuses, same.form ▸ h.form⟩

end Status

namespace Effect

variable {e e' : Effect} {s s' : Status} {phase : Phase} {c : Call}

/-! ### Calls -/

/-- What an effect can be asked for. -/
inductive Call where
  /-- It starts on its actor, who has this profile. -/
  | start (p : Profile)
  /-- It ticks. -/
  | act
  /-- It ends. -/
  | exit
  /-- It is renewed. -/
  | refresh (params : Params) (adopt : Bool)

/-- What an effect answers; to a renewal it says nothing. -/
abbrev Answer := Option (Except HookFault Bool)

/-- Calls on an effect: the effect and the status of its actor after the call, and the answer. -/
def call (e : Effect) (s : Status) : Call → (Effect × Status) × Answer
  | .start p => (((e.start p s).1, (e.start p s).2.1), some (e.start p s).2.2)
  | .act => ((e, s), some (.ok e.act))
  | .exit => (((e.exit s).1, (e.exit s).2.1), some (.ok (e.exit s).2.2))
  | .refresh params adopt => ((e.refresh params adopt, s), none)

/-- The effect and the status of its actor after some calls. -/
def after (e : Effect) (s : Status) (calls : List Call) : Effect × Status :=
  calls.foldl (fun now c => (now.1.call now.2 c).1) (e, s)

theorem after_append (e : Effect) (s : Status) (calls more : List Call) :
    e.after s (calls ++ more) = (e.after s calls).1.after (e.after s calls).2 more :=
  List.foldl_append

/-! ### Phases -/

/-- The moves from phase to phase, each with its call and its answer.  A pending effect becomes
active or has had its life, an active one goes on until it is ended, and nothing moves it after
that. -/
inductive Moves : Phase → Call → Answer → Phase → Prop
  | begin (p : Profile) : Moves .pending (.start p) (some (.ok true)) .active
  | veto (p : Profile) : Moves .pending (.start p) (some (.ok false)) .exited
  | fail (p : Profile) (cause : HookFault) :
      Moves .pending (.start p) (some (.error cause)) .exited
  | forgo : Moves .pending .exit (some (.ok false)) .exited
  | finish : Moves .active .exit (some (.ok true)) .exited
  /-- A start comes too late. -/
  | late {phase : Phase} (p : Profile) (begun : phase ≠ .pending) :
      Moves phase (.start p) (some (.ok (phase == .active))) phase
  /-- There is nothing left to end. -/
  | gone : Moves .exited .exit (some (.ok false)) .exited
  /-- Only an active effect goes on after a tick. -/
  | act {phase : Phase} {goesOn : Bool} (active : goesOn = true → phase = .active) :
      Moves phase .act (some (.ok goesOn)) phase
  | refresh (phase : Phase) (params : Params) (adopt : Bool) :
      Moves phase (.refresh params adopt) none phase

/-- A start comes too late for an effect that is not pending. -/
theorem start_late {p : Profile} (begun : e.phase ≠ .pending) :
    e.start p s = (e, s, .ok e.isActive) := by
  simp [start, begun]

/-- An effect that has exited stays so. -/
theorem Moves.exited {a : Answer} (h : Moves .exited c a phase) : phase = .exited := by
  cases h <;> rfl

/-- **A call makes a move of the automaton.** -/
theorem moves_call (e : Effect) (s : Status) (c : Call) :
    Moves e.phase c (e.call s c).2 (e.call s c).1.1.phase := by
  cases c with
  | start p =>
    by_cases hpending : e.phase = .pending
    · rw [hpending]
      cases hstart : e.contribute p s with
      | made s' => simp only [call, start_made hpending hstart]; exact .begin p
      | vetoed => simp only [call, start_vetoed hpending hstart]; exact .veto p
      | failed cause => simp only [call, start_failed hpending hstart]; exact .fail p cause
    · simp only [call, start_late hpending]
      exact .late p hpending
  | act =>
    refine .act fun hgoes => ?_
    have hactive : e.isActive = true := (Bool.and_eq_true_iff.1 hgoes).1
    simpa [isActive] using hactive
  | exit =>
    cases hphase : e.phase with
    | pending => simp only [call, exit, hphase]; exact .forgo
    | active => simp only [call, exit, hphase]; exact .finish
    | exited => simp only [call, exit, hphase]; exact .gone
  | refresh params adopt => exact .refresh e.phase params adopt

theorem exited_after (hexited : e.phase = .exited) (s : Status) (calls : List Call) :
    (e.after s calls).1.phase = .exited := by
  induction calls generalizing e s with
  | nil => exact hexited
  | cons c rest ih =>
    have hmove := moves_call e s c
    rw [hexited] at hmove
    exact ih hmove.exited _

/-! ### Stages -/

/-- What an effect that was to start on a status has come to: it is still the same effect, and the
status has its entries exactly while it is active. -/
structure Stage (e : Effect) (s : Status) (now : Effect × Status) : Prop where
  id : now.1.id = e.id
  template : now.1.template = e.template
  absent : now.1.phase ≠ .active → now.2 = s
  present : now.1.phase = .active → s.Adds e now.2

namespace Stage

variable {now : Effect × Status}

/-- An effect that has exited leaves the status as it was. -/
theorem of_exited (hid : now.1.id = e.id) (htemplate : now.1.template = e.template)
    (hexited : now.1.phase = .exited) (hstatus : now.2 = s) : e.Stage s now :=
  ⟨hid, htemplate, fun _ => hstatus, fun hactive => by
    rw [hexited] at hactive
    cases hactive⟩

theorem start (h : e.Stage s now) (lacks : s.Lacks e.id) (p : Profile) :
    e.Stage s (now.1.call now.2 (.start p)).1 := by
  by_cases hpending : now.1.phase = .pending
  · have hstatus : now.2 = s := h.absent (by rw [hpending]; decide)
    cases hstart : now.1.contribute p now.2 with
    | made s' =>
      simp only [call, start_made hpending hstart]
      rw [hstatus] at hstart
      have hadds := Status.adds_of_contribute (h.id ▸ lacks.holds) hstart
      exact ⟨h.id, h.template, fun hne => absurd rfl hne,
        fun _ => hadds.congr (ownSame h.id h.template)⟩
    | vetoed =>
      simp only [call, start_vetoed hpending hstart]
      exact of_exited h.id h.template rfl hstatus
    | failed cause =>
      -- the entries that are taken back were never made
      simp only [call, start_failed hpending hstart]
      have hback : now.2.withdraw now.1.id = s := by rw [hstatus, h.id, lacks.withdraw_eq]
      exact of_exited h.id h.template rfl hback
  · simp only [call, start_late hpending]
    exact h

theorem exit (h : e.Stage s now) (lacks : s.Lacks e.id) : e.Stage s (now.1.call now.2 .exit).1 := by
  cases hphase : now.1.phase with
  | pending =>
    have hstatus : now.2 = s := h.absent (by rw [hphase]; decide)
    simp only [call, Effect.exit, hphase]
    exact of_exited h.id h.template rfl hstatus
  | active =>
    have hback : now.2.withdraw now.1.id = s := by
      rw [h.id]
      exact (h.present hphase).withdraw_eq lacks
    simp only [call, Effect.exit, hphase]
    exact of_exited h.id h.template rfl hback
  | exited =>
    simp only [call, Effect.exit, hphase]
    exact h

/-- **A call leads from stage to stage.** -/
theorem call (h : e.Stage s now) (lacks : s.Lacks e.id) (c : Call) :
    e.Stage s (now.1.call now.2 c).1 := by
  cases c with
  | start p => exact h.start lacks p
  | act => exact h
  | exit => exact h.exit lacks
  | refresh params adopt => exact ⟨h.id, h.template, h.absent, h.present⟩

theorem after (h : e.Stage s now) (lacks : s.Lacks e.id) (calls : List Call) :
    e.Stage s (now.1.after now.2 calls) := by
  induction calls generalizing now with
  | nil => exact h
  | cons c rest ih => exact ih (h.call lacks c)

end Stage

/-- **The life of an effect.**  Whatever is asked of a pending effect, and in whatever order, each
further call makes a move of the automaton, and an effect that has exited stays so.  While it is
active the status of its actor has the effect's entries besides those that were there at first; at
all other times, also after a start that was refused or failed, it is as it was at first. -/
theorem lifespan (e : Effect) (s : Status) (pending : e.phase = .pending) (lacks : s.Lacks e.id)
    (calls : List Call) :
    let now := e.after s calls
    (∀ c, Moves now.1.phase c (now.1.call now.2 c).2 (now.1.call now.2 c).1.1.phase) ∧
      (now.1.phase = .exited → ∀ more, (e.after s (calls ++ more)).1.phase = .exited) ∧
      (now.1.phase ≠ .active → now.2 = s) ∧ (now.1.phase = .active → s.Adds e now.2) := by
  intro now
  have hborn : e.Stage s (e, s) := ⟨rfl, rfl, fun _ => rfl, fun hactive => by
    rw [pending] at hactive
    cases hactive⟩
  have hstage : e.Stage s now := hborn.after lacks calls
  refine ⟨fun c => moves_call now.1 now.2 c, fun hexited more => ?_, hstage.absent, hstage.present⟩
  rw [after_append]
  exact exited_after hexited now.2 more

/-- Holds an actor in the air. -/
def yoke : Template where
  id := ⟨1⟩
  name := "Lift"
  skill := ⟨1⟩
  kind := .liftHold
  abnormalType := .aerialYoke
  duration := 30

/-- An effect that lifts an actor whom another effect holds already. -/
def lift : Effect := .ofCast ⟨2⟩ yoke ⟨7⟩ ⟨8⟩ none

/-- A lift that is started twice and ended twice makes its entries once and takes them back, and
those of the others stay. -/
theorem lifespan_lift :
    let s : Status := { holds := [⟨1⟩], visuals := [(⟨1⟩, .paralyze)], form := some (⟨3⟩, 301) }
    let begun : List Call := [.act, .start { id := ⟨8⟩ }, .refresh lift.params true,
      .start { id := ⟨8⟩ }]
    let ending : List Call := [.exit, .start { id := ⟨8⟩ }, .exit]
    lift.phase = .pending ∧ s.Lacks lift.id ∧
      (lift.after s begun).1.phase = .active ∧ s.Adds lift (lift.after s begun).2 ∧
      (lift.after s begun).2.holds = [⟨1⟩, ⟨2⟩] ∧
      (lift.after s (begun ++ ending)).1.phase = .exited ∧
      (lift.after s (begun ++ ending)).2 = s := by
  intro s begun ending
  have hpending : lift.phase = .pending := rfl
  have hlacks : s.Lacks lift.id := ⟨by decide, by decide, by decide, by decide⟩
  obtain ⟨-, -, -, hpresent⟩ := lifespan lift s hpending hlacks begun
  obtain ⟨-, -, habsent, -⟩ := lifespan lift s hpending hlacks (begun ++ ending)
  have hactive : (lift.after s begun).1.phase = .active := by decide
  have hexited : (lift.after s (begun ++ ending)).1.phase = .exited := by decide
  exact ⟨hpending, hlacks, hactive, hpresent hactive, by decide, hexited,
    habsent (by rw [hexited]; decide)⟩

end Effect

end StatusEffects
