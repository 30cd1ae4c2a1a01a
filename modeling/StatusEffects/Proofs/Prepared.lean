import StatusEffects.Proofs.Advance

/-!
# Prepared engines

What the queue of an engine is like at any time: it is sound, each effect has the timer it needs in
it, and none is due after the end of time.

## Main definitions

* `Engine.Prepared` : sound actors, attended timers, none of them past the end of time.

## Main statements

* `Engine.Prepared.acts`, `Engine.prepared_run` : acts and runs leave an engine prepared.
-/

namespace StatusEffects

namespace Engine

variable {g g' : Engine} {taken taken' : List Entry}

theorem sound_queue_act (hq : g.queue.Sound) (h : Act (g, taken) (g', taken')) :
    g'.queue.Sound := by
  cases h with
  | receive _ t r known =>
    cases passed : g.gate t r with
    | error refusal => rwa [applyTemplate_of_error passed]
    | ok a =>
      rw [queue_applyTemplate passed]
      exact sound_settled hq
  | dispel _ actor selector cause =>
    simp only [dispelFor]
    cases g.world.get? actor with
    | none => exact hq
    | some a => exact sound_cancelEnded hq _
  | remove _ actor =>
    simp only [remove]
    cases g.world.get? actor with
    | none => exact hq
    | some a => exact sound_cancelEnded hq _
  | sweep => exact hq.skipDead
  | take _ _ due => exact (hq.pop_some due).1
  | fire _ e => exact sound_fire hq e
  | spawn | locate | animate | setClock | pass => exact hq

theorem sound_queue_acts {s s' : Engine × List Entry} (hq : s.1.queue.Sound) (h : Acts s s') :
    s'.1.queue.Sound := by
  induction h with
  | refl => exact hq
  | tail _ hact ih => exact sound_queue_act ih hact

theorem due_act (hq : g.queue.Sound) (due : ∀ x ∈ g.queue.pending, x.due ≤ lastMoment)
    (h : Act (g, taken) (g', taken')) : ∀ x ∈ g'.queue.pending, x.due ≤ lastMoment := by
  have hsettled : ∀ events asked moment, ∀ x ∈ (settled g.queue events asked moment).pending,
      x.due ≤ lastMoment := fun events asked moment x hx => by
    rcases of_mem_settled hq hx with ⟨hx, -, -⟩ | ⟨t, -, -, hlater⟩
    · exact due x hx
    · exact hlater ▸ later_le_lastMoment _ _
  cases h with
  | receive _ t r known =>
    cases passed : g.gate t r with
    | error refusal => rwa [applyTemplate_of_error passed]
    | ok a =>
      rw [queue_applyTemplate passed]
      exact hsettled _ _ _
  | dispel _ actor selector cause =>
    simp only [dispelFor]
    cases g.world.get? actor with
    | none => exact due
    | some a => exact hsettled _ none g.now
  | remove _ actor =>
    simp only [remove]
    cases g.world.get? actor with
    | none => exact due
    | some a => exact hsettled _ none g.now
  | sweep =>
    rw [TimerQueue.pending_skipDead]
    exact due
  | take _ _ hpop =>
    intro x hx
    exact due x ((hq.pop_some hpop).2.1 ▸ List.mem_cons_of_mem _ hx)
  | fire _ e =>
    cases found : g.world.get? e.timer.actor with
    | none =>
      simp only [fire, found]
      exact due
    | some a =>
      rw [queue_fire found]
      exact hsettled _ _ _
  | spawn | locate | animate | setClock | pass => exact due

theorem due_acts {s s' : Engine × List Entry} (hq : s.1.queue.Sound)
    (due : ∀ x ∈ s.1.queue.pending, x.due ≤ lastMoment) (h : Acts s s') :
    ∀ x ∈ s'.1.queue.pending, x.due ≤ lastMoment := by
  induction h with
  | refl => exact due
  | tail hacts hact ih => exact due_act (sound_queue_acts hq hacts) ih hact

/-- The effects have the timers they need, and none is due after the end of time. -/
structure Prepared (g : Engine) : Prop where
  sound : g.Sound
  timed : Timed g []
  due : ∀ x ∈ g.queue.pending, x.due ≤ lastMoment

theorem Prepared.acts (h : g.Prepared) (hacts : Acts (g, []) (g', [])) : g'.Prepared where
  sound := h.sound.steps (steps_acts h.sound hacts)
  timed := h.timed.acts h.sound hacts
  due := due_acts h.timed.queue h.due hacts

theorem prepared_run (settings : Settings) (codex : Codex) (start : UInt64) (manual : Bool)
    (capacity : Nat) (ops : List Op) :
    ((opened settings codex start manual capacity).run ops).Prepared := by
  have hopened : (opened settings codex start manual capacity).Prepared :=
    ⟨sound_opened settings codex start manual capacity,
      timed_opened settings codex start manual capacity, fun _ hx => nomatch hx⟩
  exact hopened.acts (acts_run _ ops)

end Engine

end StatusEffects
