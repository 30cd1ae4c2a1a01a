import StatusEffects.Proofs.Agenda

/-!
# How long the backlog gets

An entry that is cancelled or replaced stays in the backlog until its turn comes or dead entries are
swept out.  They are counted only when one is added to them: a queue from which timers are merely
taken out may be left with far more dead entries than live ones.  What bounds the dead entries is
therefore not the number of timers that are pending but the largest number that ever were.

## Main definitions

* `TimerQueue.dead` : the entries of the backlog that are passed over.
* `TimerQueue.served`, `TimerQueue.most` : a queue after some calls, and the largest number of
  timers that it has held on the way.
* `TimerQueue.Strikes` : a call that makes a live entry a dead one.

## Main statements

* `TimerQueue.Sound.backlog_le_of_strikes` : after a call that strikes an entry the backlog is
  short.
* `TimerQueue.Sound.dead_serve_le` : other calls leave no more dead entries than there were.
* `TimerQueue.dead_le_most` : the bound after any calls.
-/

namespace StatusEffects

namespace TimerQueue

variable {q q' : TimerQueue} {k : ActorId × EffectId} {x e : Entry} {t : Timer} {c : Call}
  {due now m : Nat}

/-- The dead entries of the backlog. -/
def dead (q : TimerQueue) : List Entry := q.backlog.filter fun e => !q.isLive e

/-- The queue after some calls. -/
def served (q : TimerQueue) (calls : List Call) : TimerQueue :=
  calls.foldl (fun q c => (q.serve c).1) q

/-- The largest number of timers that the queue holds on the way through some calls. -/
def most (q : TimerQueue) : List Call → Nat
  | [] => q.size
  | c :: rest => max q.size ((q.serve c).1.most rest)

/-- Whether a call strikes a timer off the register and leaves its entry in the backlog. -/
inductive Strikes (q : TimerQueue) : Call → Prop
  /-- It schedules a timer in place of another one of the same effect. -/
  | replace {x : Entry} {t : Timer} {due : Nat} (pending : x ∈ q.pending)
      (same : x.key = (t.actor, t.effect)) : Strikes q (.schedule t due)
  /-- It takes back the timer of an effect that has one. -/
  | cancel {k : ActorId × EffectId} (found : (q.cancel k).2 = true) : Strikes q (.cancel k)

theorem size_le_most (q : TimerQueue) (calls : List Call) : q.size ≤ q.most calls := by
  cases calls with
  | nil => exact Nat.le_refl _
  | cons c rest => exact Nat.le_max_left _ _

/-! ### Counting entries -/

/-- An entry of the backlog is live or dead. -/
theorem length_backlog (hq : q.Sound) : q.backlog.length = q.size + q.dead.length := by
  rw [List.length_eq_length_filter_add q.isLive, ← length_pending hq]
  rfl

/-- A shorter backlog of the same timers has no more dead entries. -/
theorem dead_le_of_backlog_le (hq : q.Sound) (hq' : q'.Sound)
    (h : q'.backlog.length + q.size ≤ q.backlog.length + q'.size) :
    q'.dead.length ≤ q.dead.length := by
  have hlength := length_backlog hq
  have hlength' := length_backlog hq'
  omega

/-- **Once dead entries are swept out the backlog is short.** -/
theorem backlog_compact_le (hq : q.Sound) :
    q.compact.backlog.length ≤ slack + 2 * q.compact.size := by
  simp only [compact]
  split_ifs with hshort
  · exact hshort
  · -- the live entries alone are left
    have hleft : (q.backlog.filter q.isLive).length = q.size := length_pending hq
    have hsize : ({ q with backlog := q.backlog.filter q.isLive } : TimerQueue).size = q.size := rfl
    simp only [hleft, hsize]
    omega

/-- Cancelling does nothing where there is no timer. -/
theorem cancel_of_not_found (h : ¬ (q.cancel k).2 = true) : (q.cancel k).1 = q := by
  simp only [cancel] at h ⊢
  split_ifs with hknown
  · rw [if_pos hknown] at h
    exact absurd rfl h
  · rfl

namespace Sound

/-! ### Calls that strike an entry -/

theorem backlog_le_of_replace (hq : q.Sound) (hx : x ∈ q.pending)
    (hkey : x.key = (t.actor, t.effect)) (due : Nat) :
    (q.schedule t due).backlog.length ≤ slack + 2 * (q.schedule t due).size := by
  have hknown : (q.find? (q.scheduled t due).key).isSome = true :=
    (isSome_find?_iff hq).2 ⟨x, hx, hkey⟩
  have henlist : (q.enlist (q.scheduled t due)).Sound := hq.enlist rfl
  rw [schedule_eq, if_pos hknown]
  exact backlog_compact_le henlist

theorem backlog_le_of_cancel (hq : q.Sound) (hfound : (q.cancel k).2 = true) :
    (q.cancel k).1.backlog.length ≤ slack + 2 * (q.cancel k).1.size := by
  simp only [TimerQueue.cancel] at hfound ⊢
  split_ifs at hfound ⊢
  exact backlog_compact_le (hq.unlist k)

/-- **A call that strikes an entry leaves a short backlog.** -/
theorem backlog_le_of_strikes (hq : q.Sound) (h : q.Strikes c) :
    (q.serve c).1.backlog.length ≤ slack + 2 * (q.serve c).1.size := by
  cases h with
  | @replace x t due pending same => exact hq.backlog_le_of_replace pending same due
  | cancel found => exact hq.backlog_le_of_cancel found

/-! ### Calls that strike none -/

/-- A timer of an effect that had none adds a live entry. -/
theorem dead_schedule_le (hq : q.Sound) (hnew : ∀ x ∈ q.pending, x.key ≠ (t.actor, t.effect))
    (due : Nat) : (q.schedule t due).dead.length ≤ q.dead.length := by
  have hq' := hq.schedule t due
  have hunknown : ¬ (q.find? (q.scheduled t due).key).isSome = true := fun h => by
    obtain ⟨x, hx, hkey⟩ := (isSome_find?_iff hq).1 h
    exact hnew x hx hkey
  have hbacklog : (q.schedule t due).backlog.length = q.backlog.length + 1 := by
    rw [schedule_eq, if_neg hunknown]
    exact (perm_insert _ _).length_eq
  have hsize : (q.schedule t due).size = q.size + 1 := by
    have hothers : q.pending.filter (·.key != (t.actor, t.effect)) = q.pending :=
      List.filter_eq_self.2 fun x hx => by simpa using hnew x hx
    rw [← length_pending hq', (perm_pending_schedule hq t due).length_eq, hothers,
      List.length_cons, length_pending hq]
  exact dead_le_of_backlog_le hq hq' (by omega)

theorem dead_skipDead_le (hq : q.Sound) : q.skipDead.dead.length ≤ q.dead.length :=
  dead_le_of_backlog_le hq hq.skipDead
    (Nat.add_le_add_right (List.dropWhile_sublist _).length_le q.size)

/-- A timer that is taken out takes its entry along. -/
theorem dead_pop_le (hq : q.Sound) (h : q.pop now = (q', some e)) :
    q'.dead.length ≤ q.dead.length := by
  obtain ⟨hq', hpending, -⟩ := hq.pop_some h
  obtain ⟨rest, hback, -, rfl⟩ := pop_some_eq h
  have hskip : q.skipDead.backlog.length ≤ q.backlog.length :=
    (List.dropWhile_sublist _).length_le
  have hsize := congrArg List.length hpending
  rw [List.length_cons, length_pending hq, length_pending hq'] at hsize
  rw [hback, List.length_cons] at hskip
  refine dead_le_of_backlog_le hq hq' ?_
  simp only [TimerQueue.unlist] at hsize ⊢
  omega

theorem dead_popDue_le (hq : q.Sound) (now max : Nat) :
    (q.popDue now max).1.dead.length ≤ q.dead.length := by
  induction max generalizing q with
  | zero => exact Nat.le_refl _
  | succ max ih =>
    simp only [popDue]
    cases h : q.pop now with
    | mk q' found =>
      cases found with
      | none =>
        obtain ⟨rfl, -⟩ := pop_none_eq h
        exact hq.dead_skipDead_le
      | some e => exact (ih (hq.pop_some h).1).trans (hq.dead_pop_le h)

/-- **A call that strikes no entry leaves no more dead entries than there were.** -/
theorem dead_serve_le (hq : q.Sound) (h : ¬ q.Strikes c) :
    (q.serve c).1.dead.length ≤ q.dead.length := by
  cases c with
  | schedule t due => exact hq.dead_schedule_le (fun x hx hkey => h (.replace hx hkey)) due
  | cancel k =>
    have hsame : (q.serve (.cancel k)).1 = q := cancel_of_not_found fun hfound => h (.cancel hfound)
    rw [hsame]
  | popDue now max => exact hq.dead_popDue_le now max
  | nextDue => exact hq.dead_skipDead_le
  | expiryOf k => exact Nat.le_refl _
  | size => exact Nat.le_refl _

/-! ### Chains of calls -/

theorem serve (hq : q.Sound) (c : Call) : (q.serve c).1.Sound := by
  cases c with
  | schedule t due => exact hq.schedule t due
  | cancel k => exact hq.cancel k
  | popDue now max => exact (popDue_eq hq now max).1
  | nextDue => exact hq.skipDead
  | expiryOf k => exact hq
  | size => exact hq

theorem served (hq : q.Sound) (calls : List Call) : (q.served calls).Sound := by
  induction calls generalizing q with
  | nil => exact hq
  | cons c rest ih => exact ih (hq.serve c)

/-- A call keeps the dead entries within bounds that allow for the timers pending after it. -/
theorem dead_serve_le_max (hq : q.Sound) (h : q.dead.length ≤ slack + m) (c : Call) :
    (q.serve c).1.dead.length ≤ slack + max m (q.serve c).1.size := by
  by_cases hstrikes : q.Strikes c
  · have hbacklog := hq.backlog_le_of_strikes hstrikes
    have hlength := length_backlog (hq.serve c)
    omega
  · have hdead := hq.dead_serve_le hstrikes
    omega

theorem dead_served_le (hq : q.Sound) (h : q.dead.length ≤ slack + m) (calls : List Call) :
    (q.served calls).dead.length ≤ slack + max m (q.most calls) := by
  induction calls generalizing q m with
  | nil =>
    have hnil : (q.served []).dead.length ≤ slack + m := h
    omega
  | cons c rest ih =>
    have hrest := ih (hq.serve c) (hq.dead_serve_le_max h c)
    have hsize := (q.serve c).1.size_le_most rest
    have hcons : (q.served (c :: rest)).dead.length =
        ((q.serve c).1.served rest).dead.length := rfl
    simp only [most]
    omega

end Sound

/-- **The dead entries stay within bounds.**  After any calls from its beginning a queue has at most
as many dead entries as its slack and the largest number of timers that it has held so far, and a
call that replaces or takes back a timer leaves a backlog of at most the slack and twice the pending
timers. -/
theorem dead_le_most (calls : List Call) :
    let q := ({} : TimerQueue).served calls
    q.dead.length ≤ slack + ({} : TimerQueue).most calls ∧
      ∀ c, q.Strikes c → (q.serve c).1.backlog.length ≤ slack + 2 * (q.serve c).1.size := by
  intro q
  have hempty : ({} : TimerQueue).dead.length ≤ slack + 0 := Nat.zero_le _
  have hbound := sound_empty.dead_served_le hempty calls
  rw [Nat.zero_max] at hbound
  exact ⟨hbound, fun c hc => (sound_empty.served calls).backlog_le_of_strikes hc⟩

/-- The bound is reached by an effect whose timer is scheduled 66 times; with the next one all dead
entries are swept out. -/
theorem dead_le_most_reached :
    let tick : Timer := ⟨⟨1⟩, ⟨1⟩, .tick, 1000, 0⟩
    let calls := List.replicate 66 (.schedule tick 1000)
    let q := ({} : TimerQueue).served calls
    let q' := (q.serve (.schedule tick 2000)).1
    q.dead.length = slack + ({} : TimerQueue).most calls ∧
      q.Strikes (.schedule tick 2000) ∧ q'.backlog.length ≤ slack + 2 * q'.size ∧
      q'.backlog.length = 1 := by
  intro tick calls q q'
  obtain ⟨-, hbacklog⟩ := dead_le_most calls
  have hreached : q.dead.length = slack + ({} : TimerQueue).most calls := by decide +kernel
  have hpending : (⟨1000, 65, tick⟩ : Entry) ∈ q.pending := by decide +kernel
  have hstrikes : q.Strikes (.schedule tick 2000) := .replace hpending rfl
  have hswept : q'.backlog.length = 1 := by decide +kernel
  exact ⟨hreached, hstrikes, hbacklog _ hstrikes, hswept⟩

end TimerQueue

end StatusEffects
