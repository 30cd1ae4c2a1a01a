import StatusEffects.Proofs.Chronicle
import StatusEffects.Proofs.Standing

/-!
# What an operation comes to

An application, a removal and a timer that fires each concern one actor.  They turn the world into
another one, tell events about the actor, and ask for at most one timer, which is the actor's too;
the queue follows from what is told and what is asked for.

## Main definitions

* `Engine.Upshot` : what an operation on one actor comes to.

## Main statements

* `Engine.upshot_applyTemplate`, `Engine.upshot_dispelFor`, `Engine.upshot_remove`,
  `Engine.upshot_fire` : the operations.
-/

namespace StatusEffects

namespace Engine

open Bearer

variable {g g' : Engine} {k : ActorId} {c : Actor} {w : World} {t : Template} {r : Request}
  {events : List Event} {asked : Option Timer} {moment : Nat}

/-- What an operation on one actor comes to: the world turns into another, events about the actor
are told, and maybe a timer of it is asked for. -/
structure Upshot (k : ActorId) (w : World) (events : List Event) (asked : Option Timer)
    (moment : Nat) (g g' : Engine) : Prop where
  settings : g'.settings = g.settings
  codex : g'.codex = g.codex
  world : g'.world = w
  feed : g'.feed = g.feed.publishAll moment events
  queue : g'.queue = settled g.queue events asked moment
  about : ∀ ev ∈ events, ev.actor = k
  asks : ∀ t, asked = some t → t.actor = k

theorem upshot_applyTemplate (hg : g.Sound) (known : t ∈ g.codex.templates)
    (passed : g.gate t r = .ok c) :
    let o := c.bearer.apply c.profile g.settings (g.incoming t r)
    Upshot r.target (g.world.setBearer r.target o.bearer) o.events (timerAsked o.answer) g.now g
      (g.applyTemplate t r).1 := by
  obtain ⟨hworld, hfeed, hsettings⟩ := applyTemplate_of_gate passed
  have hattended := (hg.bearer (get?_of_gate passed)).attended_apply (incoming_incoming known)
    c.profile g.settings
  exact ⟨hsettings, codex_applyTemplate g t r, hworld, hfeed, queue_applyTemplate passed,
    hattended.events, hattended.actor⟩

theorem upshot_dispelFor (hg : g.Sound) (found : g.world.get? k = some c) (selector : Selector)
    (cause : Cause) :
    let o := c.bearer.dispel g.settings selector cause
    Upshot k (g.world.setBearer k o.bearer) o.events none g.now g
      (g.dispelFor k selector cause).1 := by
  have hattended := (hg.bearer found).attended_dispel g.settings selector cause
  unfold dispelFor
  rw [found]
  exact ⟨rfl, rfl, rfl, rfl, rfl, hattended.events, hattended.actor⟩

theorem upshot_remove (hg : g.Sound) (found : g.world.get? k = some c) :
    Upshot k (g.world.remove k) (c.bearer.clear .actorRemoved).events none g.now g
      (g.remove k).1 := by
  have hattended := (hg.bearer found).attended_clear g.settings .actorRemoved
  unfold remove
  rw [found]
  exact ⟨rfl, rfl, rfl, rfl, rfl, hattended.events, hattended.actor⟩

theorem upshot_fire (hg : g.Sound) (x : Entry) :
    let f := g.world.fire g.settings x.timer
    Upshot x.timer.actor f.1 f.2.1 (nextTimer f.2.2) x.due g (g.fire x) := by
  have hsteps := steps_fire g x
  obtain ⟨hworld, hfeed, hqueue, -⟩ := fire_eq g x
  obtain ⟨htold, hasked⟩ := about_fire hg x
  exact ⟨settings_steps hsteps, codex_steps hsteps, hworld, hfeed, hqueue,
    fun ev hev => congrArg Prod.fst (htold ev hev), fun t ht => congrArg Prod.fst (hasked t ht)⟩

theorem Upshot.log_eq (hu : Upshot k w events asked moment g g') : g'.log = g.log ++ events := by
  unfold log
  rw [hu.feed]
  exact log_publishAll g.feed moment events

end Engine

end StatusEffects
