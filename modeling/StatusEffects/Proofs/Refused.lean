import StatusEffects.Proofs.Purpose
import StatusEffects.Proofs.Rejection

/-!
# What a refused application leaves

An application that is turned away leaves everything as it was, but that the key of its effect may
have been used up.  One that is refused by its own start has ended the effects that it competes
with: these are gone with their entries and their timers, their ends are told and then that of the
refused effect, of which nothing is left, and all else is as it was.

## Main statements

* `Engine.key_lt_of_pending` : every pending timer is under a key that has been handed out.
* `Engine.apply_error_cases` : the engine after a refused request of either kind.
* `Engine.refused_run` : both, after every run.
-/

namespace StatusEffects

namespace Engine

variable {g : Engine} {taken : List Entry} {t : Template} {r : Request} {a : Actor}
  {refusal : Refusal}

/-- Every timer is for an effect that is borne, and so it is under a key that was handed out. -/
theorem key_lt_of_pending (ho : Orderly g taken) {x : Entry} (hx : x ∈ g.queue.pending) :
    x.key.2.val < g.nextEffect := by
  obtain ⟨id, e, ⟨b, hb, hget⟩, hkey, -⟩ := ho.owned x (List.mem_append_left _ hx)
  rw [hkey]
  exact ((ho.sound id b hb).seated e (EffectList.mem_of_get? hget)).fresh

/-- Where nothing has changed there is nothing to settle. -/
theorem conclude_idle {α : Type} (found : g.world.get? r.target = some a) (moment : Nat)
    (answer : α) : g.conclude r.target moment ⟨a.bearer, [], answer⟩ = g := by
  rw [conclude_eq, tell_nil found]
  rfl

/-- What is told when an effect is refused by its own start: the ends of the effects that it
competes with, in the order of application, and its own. -/
def toldOfRefusal (r : Request) (a : Actor) (incoming : Effect) (reason : EndReason) :
    List Event :=
  (a.bearer.list.beaten incoming).map (fun e => .ended r.target e.summary .superseded) ++
    [.ended r.target incoming.summary reason]

/-- What is told of a refusal cancels the timers of the effects that have ended. -/
theorem mem_pending_of_refusal (hq : g.queue.Sound) {incoming : Effect} {reason : EndReason}
    {x : Entry} :
    x ∈ (cancelEnded g.queue (toldOfRefusal r a incoming reason)).pending ↔
      x ∈ g.queue.pending ∧ (∀ e ∈ a.bearer.list.beaten incoming, x.key ≠ (r.target, e.id)) ∧
        x.key ≠ (r.target, incoming.id) := by
  rw [mem_pending_cancelEnded hq]
  refine and_congr_right fun _ => ⟨fun htold => ⟨fun e he hkey => ?_, fun hkey => ?_⟩, ?_⟩
  · exact htold _ (List.mem_append_left _ (List.mem_map_of_mem he)) rfl hkey.symm
  · exact htold _ (List.mem_append_right _ (List.mem_singleton_self _)) rfl hkey.symm
  · rintro ⟨hgone, hincoming⟩ ev hev - hkey
    rcases List.mem_append.1 hev with hev | hev
    · obtain ⟨e, he, rfl⟩ := List.mem_map.1 hev
      exact hgone e he hkey.symm
    · obtain rfl := List.mem_singleton.1 hev
      exact hincoming hkey.symm

/-- **What an engine is like after a refused request**, which has been turned away or is refused by
the start of its effect. -/
theorem apply_error_cases (hg : g.Sound)
    (hr : ∀ id b, g.world.bearer? id = some b → b.Reflected)
    (h : (g.apply r).2 = .error refusal) :
    (refusal.ending? = none ∧
      ((g.apply r).1 = g ∨ (g.apply r).1 = { g with nextEffect := g.nextEffect + 1 })) ∨
    ∃ reason t a, ∃ s : Status, refusal.ending? = some reason ∧
      g.codex.get? r.template = some t ∧ g.gate t r = .ok a ∧
      s.Reflects (a.bearer.list.spared (g.incoming t r)) ∧
      (g.apply r).1 = { g with
        nextEffect := g.nextEffect + 1
        world := g.world.setBearer r.target
          ⟨{ a.bearer.skipped with effects := a.bearer.list.spared (g.incoming t r) }, s⟩
        queue := cancelEnded g.queue (toldOfRefusal r a (g.incoming t r) reason)
        feed := g.feed.publishAll g.now (toldOfRefusal r a (g.incoming t r) reason) } := by
  rcases apply_cases hg hr r with ⟨_, early, happly⟩ | ⟨t, a, hget, passed, hturnout, happly⟩
  · rw [happly] at h ⊢
    obtain rfl := Except.error.inj h
    exact .inl ⟨early, .inl rfl⟩
  · have found := get?_of_gate passed
    generalize ho : a.bearer.apply a.profile g.settings (g.incoming t r) = o at hturnout
    rw [happly] at h ⊢
    cases hturnout with
    | away early =>
      rw [applyTemplate_error passed (by rw [ho]), ho] at h ⊢
      obtain rfl := Except.error.inj h
      exact .inl ⟨early,
        .inr (conclude_idle (g := { g with nextEffect := g.nextEffect + 1 }) found _ _)⟩
    | renewed | started =>
      rw [applyTemplate_ok passed (by rw [ho])] at h
      cases h
    | @refused s _ reason late _ left =>
      rw [applyTemplate_error passed (by rw [ho]), ho] at h ⊢
      obtain rfl := Except.error.inj h
      refine .inr ⟨reason, t, a, s, late, hget, passed, left, ?_⟩
      have howner := (hg.bearer found).owner
      simp only [Bearer.losses, howner]
      rfl

/-- **What a refused application leaves**, after every run over an empty world.  If it is turned
away, all is as it was but for the key that may have been used up.  If its own start refuses or
fails, the effects that it competes with are gone from the list, the status and the queue, the
others are there in their order with their entries and their timers, nothing is left of the incoming
effect, and what is told is the end of each effect that is gone and then that of the incoming
one. -/
theorem refused_run (settings : Settings) (codex : Codex) (start : UInt64) (manual : Bool)
    (capacity : Nat) (ops : List Op) (r : Request) {refusal : Refusal}
    (refused : (((opened settings codex start manual capacity).run ops).apply r).2 =
      .error refusal) :
    let g := (opened settings codex start manual capacity).run ops
    let g' := (g.apply r).1
    (refusal.ending? = none → g' = g ∨ g' = { g with nextEffect := g.nextEffect + 1 }) ∧
    ∀ reason, refusal.ending? = some reason → ∃ t a, ∃ s : Status,
      codex.get? r.template = some t ∧ g.gate t r = .ok a ∧
      let incoming := g.incoming t r
      let gone := a.bearer.list.beaten incoming
      let left := a.bearer.list.spared incoming
      g' = { g with
        nextEffect := g.nextEffect + 1
        world := g.world.setBearer r.target ⟨{ a.bearer.skipped with effects := left }, s⟩
        queue := g'.queue
        feed := g.feed.publishAll g.now
          (gone.map (fun e => .ended r.target e.summary .superseded) ++
            [.ended r.target incoming.summary reason]) } ∧
      s.Reflects left ∧ (∀ e ∈ left, s.only e.id = a.bearer.status.only e.id) ∧
      (∀ e ∈ gone, s.Lacks e.id) ∧ s.Lacks incoming.id ∧ (∀ e ∈ left, e.id ≠ incoming.id) ∧
      (∀ x, x ∈ g'.queue.pending ↔
        x ∈ g.queue.pending ∧ ∀ e ∈ gone, x.key ≠ (r.target, e.id)) ∧
      ∀ x ∈ g'.queue.pending, x.key ≠ (r.target, incoming.id) := by
  intro g g'
  have ho : Orderly g [] := orderly_run settings codex start manual capacity ops
  have hr := (keeps_reflected codex settings).run start manual capacity ops
  have hcodex : g.codex = codex :=
    codex_steps (steps_run (sound_opened settings codex start manual capacity) ops)
  rcases apply_error_cases ho.sound hr refused with
    ⟨early, hg'⟩ | ⟨reason, t, a, s, late, hget, passed, hleft, hg'⟩
  · refine ⟨fun _ => hg', fun reason late => ?_⟩
    rw [early] at late
    cases late
  rw [late]
  refine ⟨fun early => ?_, fun reason' hreason => ?_⟩
  · cases early
  obtain rfl := Option.some.inj hreason
  have found := get?_of_gate passed
  have hb := ho.sound.bearer found
  have hin := incoming_incoming (r := r) (List.mem_of_find?_eq_some hget)
  have hne : ∀ e ∈ a.bearer.list.spared (g.incoming t r), e.id ≠ (g.incoming t r).id :=
    fun e he => hb.ne_incoming_of_mem_spared hin he
  have hqueue : g'.queue = cancelEnded g.queue (toldOfRefusal r a (g.incoming t r) reason) :=
    (congrArg Engine.queue hg').trans rfl
  refine ⟨t, a, s, hcodex ▸ hget, passed, ?_, hleft, fun e he => ?_, fun e he => ?_,
    hleft.lacks hne, hne, fun x => ?_, fun x hx => ?_⟩
  · rw [hqueue]
    exact hg'
  · -- both statuses hold what the effect enters
    have hbefore : a.bearer.Reflected := hr _ _ (World.bearer?_of_get? found)
    have hkeys := hb.keys.sublist
      ((List.filter_sublist (p := fun e => !EffectList.isRival (g.incoming t r) e)).map (·.id))
    rw [hleft.only hkeys he, hbefore.only hb.keys (List.mem_of_mem_filter he)]
  · exact hleft.lacks fun e' he' => hb.ne_of_mem_beaten he he'
  · rw [hqueue, mem_pending_of_refusal ho.timed.queue]
    refine and_congr_right fun hx => and_iff_left fun hkey => ?_
    -- no timer is pending under the key of the incoming effect, which is new
    have hlt := key_lt_of_pending ho hx
    rw [hkey] at hlt
    exact Nat.lt_irrefl _ hlt
  · rw [hqueue, mem_pending_of_refusal ho.timed.queue] at hx
    exact hx.2.2

/-- The greater lift is refused by its own start: the hold is left, and the lift has lost its
entries and its timer. -/
theorem refused_run_lifted :
    (lifted.apply (atMonster ⟨3⟩)).2 = .error (.vetoed ⟨3⟩) ∧
      ∃ s : Status, (lifted.apply (atMonster ⟨3⟩)).1.world.bearer? ⟨7⟩ =
          some ⟨⟨⟨7⟩, [onMonster ⟨2⟩ hold 1], 3⟩, s⟩ ∧
        s.Reflects [onMonster ⟨2⟩ hold 1] ∧ s.Lacks ⟨1⟩ ∧ s.Lacks ⟨3⟩ ∧
        ∀ x, x ∈ (lifted.apply (atMonster ⟨3⟩)).1.queue.pending ↔
          x ∈ lifted.queue.pending ∧ x.key ≠ (⟨7⟩, ⟨1⟩) := by
  have hrefused : (lifted.apply (atMonster ⟨3⟩)).2 = .error (.vetoed ⟨3⟩) := by decide +kernel
  obtain ⟨-, hlate⟩ := refused_run {} liftCodex 0 true 1 _ (atMonster ⟨3⟩) hrefused
  obtain ⟨t, a, s, hget, passed, hafter, hleft, -, hgone, hown, -, htimers, -⟩ := hlate .vetoed rfl
  obtain rfl : greaterLift = t := Option.some.inj hget
  have found := get?_of_gate passed
  obtain rfl : _ = a := Option.some.inj found
  refine ⟨hrefused, s, ?_, hleft, hgone (onMonster ⟨1⟩ lift 0) (.head _), hown, fun x => ?_⟩
  · have hworld := congrArg Engine.world hafter
    exact (congrArg (World.bearer? · ⟨7⟩) hworld).trans ((World.bearer?_setBearer found).trans rfl)
  · refine (htimers x).trans (and_congr_right fun _ => ⟨fun h => h _ (.head _), fun h e he => ?_⟩)
    obtain rfl := List.mem_singleton.1 he
    exact h

end Engine

end StatusEffects
