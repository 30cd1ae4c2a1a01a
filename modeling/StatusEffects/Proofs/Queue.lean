import StatusEffects.TimerQueue
import Mathlib.Data.List.Nodup
import Mathlib.Data.List.Perm.Lattice

/-!
# The timer queue

The backlog of a queue holds dead entries, and its register only numbers.  The pending timers are
those entries of the backlog that the register still names; in a sound queue these are one entry for
each effect of the register, and the operations of the queue are operations on them.

## Main definitions

* `TimerQueue.pending` : the live entries in firing order.
* `TimerQueue.Sound` : backlog and register agree.

## Main statements

* `TimerQueue.mem_pending_iff` : the pending timers are those of the register.
* `TimerQueue.Sound.schedule`, `TimerQueue.Sound.cancel`, `TimerQueue.Sound.pop` : the operations
  keep a queue sound; `TimerQueue.mem_pending_schedule` and its likes say what is pending after.
* `TimerQueue.mem_popDue` : a timer that is due is taken out by a large enough batch.
-/

namespace StatusEffects

/-! ### Registers -/

section Register

variable {α β : Type} [BEq α] [LawfulBEq α] {k k' : α}

theorem lookup_filter_self (k : α) (l : List (α × β)) :
    (l.filter (·.1 != k)).lookup k = none := by
  refine List.lookup_eq_none_iff.2 fun x hx => ?_
  have hne : x.1 ≠ k := by simpa using List.of_mem_filter hx
  simpa using hne.symm

theorem lookup_filter_of_ne (h : k' ≠ k) (l : List (α × β)) :
    (l.filter (·.1 != k)).lookup k' = l.lookup k' := by
  induction l with
  | nil => rfl
  | cons x rest ih =>
    obtain ⟨k₁, v⟩ := x
    by_cases hk : k₁ = k
    · subst hk
      rw [List.filter_cons_of_neg (by simp), ih, List.lookup_cons, beq_eq_false_iff_ne.2 h]
    · rw [List.filter_cons_of_pos (by simpa using hk), List.lookup_cons, List.lookup_cons, ih]

theorem mem_keys_iff_lookup (l : List (α × β)) (k : α) :
    k ∈ l.map (·.1) ↔ ∃ v, l.lookup k = some v := by
  rw [← Option.isSome_iff_exists, List.lookup_isSome_iff]
  simp only [List.mem_map, beq_iff_eq]
  exact ⟨fun ⟨p, hp, h⟩ => ⟨p, hp, h.symm⟩, fun ⟨p, hp, h⟩ => ⟨p, hp, h.symm⟩⟩

end Register

/-! ### Firing order -/

namespace Entry

/-- What the register knows of an entry while it is live. -/
def live (x : Entry) : Live := ⟨x.seq, x.due, x.timer.kind⟩

theorem before_iff {x y : Entry} :
    x.before y = true ↔ x.due < y.due ∨ (x.due = y.due ∧ x.seq < y.seq) := by
  simp [before]

theorem due_le_of_before {x y : Entry} (h : x.before y = true) : x.due ≤ y.due := by
  rcases before_iff.1 h with h | h <;> omega

end Entry

namespace TimerQueue

variable {q q' : TimerQueue} {k : ActorId × EffectId} {l : Live} {x y e : Entry} {t : Timer}
  {due now max : Nat}

theorem perm_insert (e : Entry) (es : List Entry) : (insert e es).Perm (e :: es) := by
  induction es with
  | nil => exact .refl _
  | cons y rest ih =>
    simp only [insert]
    split_ifs
    · exact (ih.cons y).trans (.swap e y rest)
    · exact .refl _

theorem mem_insert {es : List Entry} : x ∈ insert e es ↔ x = e ∨ x ∈ es := by
  rw [(perm_insert e es).mem_iff, List.mem_cons]

/-- An entry that was scheduled last finds its place in the firing order. -/
theorem ordered_insert {es : List Entry} (h : es.Pairwise fun x y => x.before y = true)
    (hlast : ∀ x ∈ es, x.seq < e.seq) :
    (insert e es).Pairwise fun x y => x.before y = true := by
  induction es with
  | nil => simp [insert]
  | cons y rest ih =>
    obtain ⟨hy, hrest⟩ := List.pairwise_cons.1 h
    have hye := hlast y List.mem_cons_self
    simp only [insert]
    split_ifs with hbefore
    · refine List.pairwise_cons.2 ⟨fun x hx => ?_, ih hrest fun x hx => hlast x (.tail _ hx)⟩
      rcases mem_insert.1 hx with rfl | hx
      · exact hbefore
      · exact hy x hx
    · -- the entry is due earlier than those behind it
      have hdue : e.due < y.due := by
        rw [Entry.before_iff] at hbefore
        omega
      refine List.pairwise_cons.2 ⟨fun x hx => Entry.before_iff.2 (.inl ?_), h⟩
      rcases List.mem_cons.1 hx with rfl | hx
      · exact hdue
      · exact Nat.lt_of_lt_of_le hdue (Entry.due_le_of_before (hy x hx))

/-! ### Soundness -/

/-- The live timers in firing order. -/
def pending (q : TimerQueue) : List Entry := q.backlog.filter q.isLive

/-- Backlog and register of the queue agree. -/
structure Sound (q : TimerQueue) : Prop where
  ordered : q.backlog.Pairwise fun x y => x.before y = true
  distinct : (q.backlog.map (·.seq)).Nodup
  fresh : ∀ x ∈ q.backlog, x.seq < q.nextSeq
  keys : (q.live.map (·.1)).Nodup
  backed : ∀ k l, q.find? k = some l → ∃ x ∈ q.backlog, x.key = k ∧ x.live = l

theorem sound_empty : Sound {} where
  ordered := .nil
  distinct := .nil
  fresh _ h := nomatch h
  keys := .nil
  backed _ _ h := nomatch h

theorem isLive_iff : q.isLive x = true ↔ ∃ l, q.find? x.key = some l ∧ l.seq = x.seq := by
  simp [isLive, Option.any_eq_true]

/-- **The pending timers are those of the register.** -/
theorem mem_pending_iff (hq : q.Sound) :
    x ∈ q.pending ↔ x ∈ q.backlog ∧ q.find? x.key = some x.live := by
  rw [pending, List.mem_filter, isLive_iff]
  constructor
  · rintro ⟨hx, l, hl, hseq⟩
    obtain ⟨y, hy, -, rfl⟩ := hq.backed _ l hl
    obtain rfl := List.inj_on_of_nodup_map hq.distinct hy hx hseq
    exact ⟨hx, hl⟩
  · rintro ⟨hx, hl⟩
    exact ⟨hx, _, hl, rfl⟩

theorem find?_eq_some_iff (hq : q.Sound) :
    q.find? k = some l ↔ ∃ x ∈ q.pending, x.key = k ∧ x.live = l := by
  constructor
  · intro hl
    obtain ⟨x, hx, rfl, rfl⟩ := hq.backed k l hl
    exact ⟨x, (mem_pending_iff hq).2 ⟨hx, hl⟩, rfl, rfl⟩
  · rintro ⟨x, hx, rfl, rfl⟩
    exact ((mem_pending_iff hq).1 hx).2

/-- The register knows an effect exactly when it has a pending timer. -/
theorem isSome_find?_iff (hq : q.Sound) :
    (q.find? k).isSome = true ↔ ∃ x ∈ q.pending, x.key = k := by
  rw [Option.isSome_iff_exists]
  constructor
  · rintro ⟨l, hl⟩
    obtain ⟨x, hx, hkey, -⟩ := (find?_eq_some_iff hq).1 hl
    exact ⟨x, hx, hkey⟩
  · rintro ⟨x, hx, hkey⟩
    exact ⟨x.live, (find?_eq_some_iff hq).2 ⟨x, hx, hkey, rfl⟩⟩

theorem nodup_backlog (hq : q.Sound) : q.backlog.Nodup := hq.distinct.of_map

/-- An effect has at most one pending timer. -/
theorem eq_of_key_eq (hq : q.Sound) (hx : x ∈ q.pending) (hy : y ∈ q.pending)
    (h : x.key = y.key) : x = y := by
  obtain ⟨hx, hlx⟩ := (mem_pending_iff hq).1 hx
  obtain ⟨hy, hly⟩ := (mem_pending_iff hq).1 hy
  rw [h, hly, Option.some.injEq] at hlx
  exact List.inj_on_of_nodup_map hq.distinct hx hy (congrArg Live.seq hlx).symm

theorem nodup_keys_pending (hq : q.Sound) : (q.pending.map Entry.key).Nodup :=
  ((nodup_backlog hq).filter _).map_on fun _ hx _ hy h => eq_of_key_eq hq hx hy h

theorem filter_eq_singleton {α : Type} {as : List α} {a : α} {p : α → Bool} (h : as.Nodup)
    (ha : a ∈ as) (hp : p a = true) (hunique : ∀ y ∈ as, p y = true → y = a) :
    as.filter p = [a] := by
  refine List.perm_singleton.1 ((List.perm_ext_iff_of_nodup (h.filter p) (List.nodup_singleton a)).2
    fun y => ?_)
  rw [List.mem_filter, List.mem_singleton]
  refine ⟨fun ⟨hy, hpy⟩ => hunique y hy hpy, ?_⟩
  rintro rfl
  exact ⟨ha, hp⟩

/-- Among the pending timers there is one for an effect that has one. -/
theorem filter_pending_eq (hq : q.Sound) (hx : x ∈ q.pending) :
    q.pending.filter (·.key == x.key) = [x] :=
  filter_eq_singleton ((nodup_backlog hq).filter _) hx (by simp)
    fun _ hy hk => eq_of_key_eq hq hy hx (by simpa using hk)

/-- The register has one line for an effect that it knows. -/
theorem filter_live_eq (hq : q.Sound) (h : q.find? k = some l) :
    q.live.filter (·.1 == k) = [(k, l)] := by
  obtain ⟨before, after, hlive, -⟩ := List.lookup_eq_some_iff.1 h
  have hmem : (k, l) ∈ q.live := hlive ▸ List.mem_append_right before List.mem_cons_self
  exact filter_eq_singleton hq.keys.of_map hmem (by simp)
    fun y hy hk => List.inj_on_of_nodup_map hq.keys hy hmem (by simpa using hk)

/-- The register counts the pending timers. -/
theorem length_pending (hq : q.Sound) : q.pending.length = q.size := by
  have hperm : (q.pending.map Entry.key).Perm (q.live.map (·.1)) := by
    refine (List.perm_ext_iff_of_nodup (nodup_keys_pending hq) hq.keys).2 fun k => ?_
    rw [mem_keys_iff_lookup, List.mem_map]
    constructor
    · rintro ⟨x, hx, rfl⟩
      exact ⟨_, ((mem_pending_iff hq).1 hx).2⟩
    · rintro ⟨l, hl⟩
      obtain ⟨x, hx, rfl, -⟩ := (find?_eq_some_iff hq).1 hl
      exact ⟨x, hx, rfl⟩
  simpa [size] using hperm.length_eq

/-! ### Sweeping out dead entries -/

theorem Sound.shorten (hq : q.Sound) {es : List Entry} (hsub : es.Sublist q.backlog)
    (hlive : es.filter q.isLive = q.pending) : ({ q with backlog := es } : TimerQueue).Sound where
  ordered := hq.ordered.sublist hsub
  distinct := hq.distinct.sublist (hsub.map _)
  fresh x hx := hq.fresh x (hsub.subset hx)
  keys := hq.keys
  backed k l hl := by
    obtain ⟨x, hx, hkey, hxl⟩ := (find?_eq_some_iff hq).1 hl
    rw [← hlive] at hx
    exact ⟨x, List.mem_of_mem_filter hx, hkey, hxl⟩

theorem Sound.compact (hq : q.Sound) : q.compact.Sound := by
  simp only [TimerQueue.compact]
  split_ifs
  · exact hq
  · refine hq.shorten List.filter_sublist ?_
    rw [pending, List.filter_filter]
    simp

theorem pending_compact (q : TimerQueue) : q.compact.pending = q.pending := by
  simp only [compact]
  split_ifs
  · rfl
  · have hsame : ({ q with backlog := q.backlog.filter q.isLive } : TimerQueue).isLive =
        q.isLive := rfl
    rw [pending, hsame, List.filter_filter]
    simp [pending]

theorem nextSeq_compact (q : TimerQueue) : q.compact.nextSeq = q.nextSeq := by
  unfold compact
  split_ifs <;> rfl

theorem filter_dropWhile_not {α : Type} (p : α → Bool) (as : List α) :
    (as.dropWhile fun a => !p a).filter p = as.filter p := by
  induction as with
  | nil => rfl
  | cons a rest ih => by_cases h : p a <;> simp [h, ih]

theorem Sound.skipDead (hq : q.Sound) : q.skipDead.Sound :=
  hq.shorten (List.dropWhile_sublist _) (filter_dropWhile_not _ _)

theorem pending_skipDead (q : TimerQueue) : q.skipDead.pending = q.pending :=
  filter_dropWhile_not _ _

/-! ### Cancelling -/

theorem find?_unlist_self (q : TimerQueue) (k : ActorId × EffectId) :
    (q.unlist k).find? k = none :=
  lookup_filter_self k q.live

theorem find?_unlist_of_ne {k' : ActorId × EffectId} (h : k' ≠ k) :
    (q.unlist k).find? k' = q.find? k' :=
  lookup_filter_of_ne h q.live

theorem Sound.unlist (hq : q.Sound) (k : ActorId × EffectId) : (q.unlist k).Sound where
  ordered := hq.ordered
  distinct := hq.distinct
  fresh := hq.fresh
  keys := hq.keys.sublist (List.filter_sublist.map _)
  backed k' l hl := by
    by_cases hk : k' = k
    · rw [hk, find?_unlist_self] at hl
      cases hl
    · rw [find?_unlist_of_ne hk] at hl
      exact hq.backed k' l hl

theorem isLive_unlist (q : TimerQueue) (k : ActorId × EffectId) (x : Entry) :
    (q.unlist k).isLive x = (x.key != k && q.isLive x) := by
  by_cases hk : x.key = k
  · simp [isLive, hk, find?_unlist_self]
  · simp [isLive, find?_unlist_of_ne hk, hk]

theorem pending_unlist (q : TimerQueue) (k : ActorId × EffectId) :
    (q.unlist k).pending = q.pending.filter (·.key != k) := by
  rw [pending, pending, List.filter_filter]
  exact List.filter_congr fun x _ => isLive_unlist q k x

theorem nextSeq_cancel (q : TimerQueue) (k : ActorId × EffectId) :
    (q.cancel k).1.nextSeq = q.nextSeq := by
  simp only [cancel]
  split_ifs
  · exact nextSeq_compact _
  · rfl

theorem Sound.cancel (hq : q.Sound) (k : ActorId × EffectId) : (q.cancel k).1.Sound := by
  simp only [TimerQueue.cancel]
  split_ifs
  · exact (hq.unlist k).compact
  · exact hq

/-- Cancelling takes back the timer of one effect and leaves the others. -/
theorem pending_cancel (hq : q.Sound) (k : ActorId × EffectId) :
    (q.cancel k).1.pending = q.pending.filter (·.key != k) := by
  simp only [cancel]
  split_ifs with hfound
  · rw [pending_compact, pending_unlist]
  · refine (List.filter_eq_self.2 fun x hx => ?_).symm
    have hx := ((mem_pending_iff hq).1 hx).2
    have hne : x.key ≠ k := by
      rintro rfl
      exact hfound (by simp [hx])
    simpa using hne

/-! ### Scheduling -/

/-- The entry of a timer that is scheduled. -/
def scheduled (q : TimerQueue) (t : Timer) (due : Nat) : Entry := ⟨due, q.nextSeq, t⟩

/-- The queue with an entry put in, before it is compacted. -/
def enlist (q : TimerQueue) (e : Entry) : TimerQueue where
  backlog := insert e q.backlog
  live := (e.key, e.live) :: (q.unlist e.key).live
  nextSeq := q.nextSeq + 1

theorem schedule_eq (q : TimerQueue) (t : Timer) (due : Nat) :
    q.schedule t due = if (q.find? (q.scheduled t due).key).isSome then
      (q.enlist (q.scheduled t due)).compact else q.enlist (q.scheduled t due) :=
  rfl

theorem find?_enlist_self (q : TimerQueue) (e : Entry) :
    (q.enlist e).find? e.key = some e.live := by
  simp [find?, enlist]

theorem find?_enlist_of_ne (h : k ≠ e.key) : (q.enlist e).find? k = q.find? k := by
  have hne : (k == e.key) = false := beq_eq_false_iff_ne.2 h
  have hlookup : (q.enlist e).find? k = (q.unlist e.key).live.lookup k := by
    simp [find?, enlist, List.lookup_cons, hne]
  rw [hlookup]
  exact lookup_filter_of_ne h q.live

theorem Sound.enlist (hq : q.Sound) (hseq : e.seq = q.nextSeq) : (q.enlist e).Sound where
  ordered := ordered_insert hq.ordered fun x hx => hseq ▸ hq.fresh x hx
  distinct := by
    refine (((perm_insert e q.backlog).map _).nodup_iff).2 (List.nodup_cons.2 ⟨?_, hq.distinct⟩)
    intro hmem
    obtain ⟨x, hx, hxe⟩ := List.mem_map.1 hmem
    have hlt := hq.fresh x hx
    have heq : x.seq = e.seq := hxe
    omega
  fresh x hx := by
    rcases mem_insert.1 hx with rfl | hx
    · exact hseq ▸ Nat.lt_succ_self _
    · exact Nat.lt_succ_of_lt (hq.fresh x hx)
  keys := by
    refine List.nodup_cons.2 ⟨?_, hq.keys.sublist (List.filter_sublist.map _)⟩
    intro hmem
    obtain ⟨x, hx, hxe⟩ := List.mem_map.1 hmem
    have hne := List.of_mem_filter hx
    simp [hxe] at hne
  backed k l hl := by
    by_cases hk : k = e.key
    · rw [hk, find?_enlist_self] at hl
      exact ⟨e, mem_insert.2 (.inl rfl), hk.symm, Option.some.inj hl⟩
    · rw [find?_enlist_of_ne hk] at hl
      obtain ⟨x, hx, hxk, hxl⟩ := hq.backed k l hl
      exact ⟨x, mem_insert.2 (.inr hx), hxk, hxl⟩

theorem Sound.schedule (hq : q.Sound) (t : Timer) (due : Nat) : (q.schedule t due).Sound := by
  have henlist : (q.enlist (q.scheduled t due)).Sound := hq.enlist rfl
  rw [schedule_eq]
  split_ifs
  · exact henlist.compact
  · exact henlist

/-- A timer that is scheduled takes the place of the one its effect had. -/
theorem mem_pending_schedule (hq : q.Sound) :
    x ∈ (q.schedule t due).pending ↔
      x = q.scheduled t due ∨ (x ∈ q.pending ∧ x.key ≠ (t.actor, t.effect)) := by
  have henlist : (q.enlist (q.scheduled t due)).Sound := hq.enlist rfl
  have hpending : (q.schedule t due).pending = (q.enlist (q.scheduled t due)).pending := by
    rw [schedule_eq]
    split_ifs
    · exact pending_compact _
    · rfl
  rw [hpending, mem_pending_iff henlist, mem_pending_iff hq]
  constructor
  · rintro ⟨hx, hl⟩
    by_cases hk : x.key = (q.scheduled t due).key
    · -- the register names the new entry, which is the only one of its number
      rw [hk, find?_enlist_self, Option.some.injEq] at hl
      refine .inl (List.inj_on_of_nodup_map henlist.distinct hx (mem_insert.2 (.inl rfl)) ?_)
      exact (congrArg Live.seq hl).symm
    · rw [find?_enlist_of_ne hk] at hl
      rcases mem_insert.1 hx with rfl | hx
      · exact absurd rfl hk
      · exact .inr ⟨⟨hx, hl⟩, hk⟩
  · rintro (rfl | ⟨⟨hx, hl⟩, hk⟩)
    · exact ⟨mem_insert.2 (.inl rfl), find?_enlist_self _ _⟩
    · refine ⟨mem_insert.2 (.inr hx), ?_⟩
      rw [find?_enlist_of_ne hk]
      exact hl

theorem nodup_pending (hq : q.Sound) : q.pending.Nodup := (nodup_backlog hq).filter _

/-- But for their order the pending timers are then the others and the new one. -/
theorem perm_pending_schedule (hq : q.Sound) (t : Timer) (due : Nat) :
    (q.schedule t due).pending.Perm
      (q.scheduled t due :: q.pending.filter (·.key != (t.actor, t.effect))) := by
  have hfresh : q.scheduled t due ∉ q.pending.filter (·.key != (t.actor, t.effect)) := by
    intro h
    have hne : (q.scheduled t due).key ≠ (t.actor, t.effect) := by
      simpa using List.of_mem_filter h
    exact hne rfl
  refine (List.perm_ext_iff_of_nodup (nodup_pending (hq.schedule t due))
    (List.nodup_cons.2 ⟨hfresh, (nodup_pending hq).filter _⟩)).2 fun x => ?_
  rw [mem_pending_schedule hq, List.mem_cons, List.mem_filter, bne_iff_ne]

/-! ### Taking out what is due -/

theorem pop_some_eq (h : q.pop now = (q', some e)) :
    ∃ rest, q.skipDead.backlog = e :: rest ∧ e.due ≤ now ∧
      q' = ({ q.skipDead with backlog := rest } : TimerQueue).unlist e.key := by
  simp only [pop] at h
  split at h
  · cases h
  · rename_i y rest hback
    split_ifs at h with hdue
    · cases h
      exact ⟨rest, hback, hdue, rfl⟩
    · cases h

theorem isLive_head_skipDead {rest : List Entry} (h : q.skipDead.backlog = e :: rest) :
    q.skipDead.isLive e = true := by
  have hhead := List.head?_dropWhile_not (fun x => !q.isLive x) q.backlog
  have hback : q.backlog.dropWhile (fun x => !q.isLive x) = e :: rest := h
  rw [hback] at hhead
  have hlive : q.isLive e = true := by simpa using hhead
  exact hlive

/-- **A timer taken out of the queue was the first pending one.** -/
theorem Sound.pop_some (hq : q.Sound) (h : q.pop now = (q', some e)) :
    q'.Sound ∧ q.pending = e :: q'.pending ∧ e.due ≤ now := by
  obtain ⟨rest, hback, hdue, rfl⟩ := pop_some_eq h
  have hq₁ := hq.skipDead
  have hlive := isLive_head_skipDead hback
  generalize hs : q.skipDead = s at hback hq₁ hlive
  rw [← pending_skipDead, hs]
  have hsub : rest.Sublist s.backlog := hback ▸ List.sublist_cons_self e rest
  have hdistinct := hq₁.distinct
  rw [hback, List.map_cons, List.nodup_cons] at hdistinct
  have he : e ∈ s.pending := List.mem_filter.2 ⟨hback ▸ List.mem_cons_self, hlive⟩
  refine ⟨⟨hq₁.ordered.sublist hsub, hdistinct.2, fun x hx => hq₁.fresh x (hsub.subset hx),
    hq₁.keys.sublist (List.filter_sublist.map _), fun k l hl => ?_⟩, ?_, hdue⟩
  · by_cases hk : k = e.key
    · rw [hk, find?_unlist_self] at hl
      cases hl
    · rw [find?_unlist_of_ne hk] at hl
      obtain ⟨x, hx, rfl, hxl⟩ := hq₁.backed k l hl
      rw [hback] at hx
      rcases List.mem_cons.1 hx with rfl | hx
      · exact absurd rfl hk
      · exact ⟨x, hx, rfl, hxl⟩
  · -- of the entries behind it none is live under the same key
    rw [pending, hback, List.filter_cons_of_pos hlive]
    refine congrArg (e :: ·) (List.filter_congr fun x hx => ?_)
    rw [isLive_unlist]
    by_cases hk : x.key = e.key
    · have hdead : s.isLive x = false := by
        by_contra hx'
        have hmem : x ∈ s.pending :=
          List.mem_filter.2 ⟨hsub.subset hx, by simpa using hx'⟩
        have hxe := eq_of_key_eq hq₁ hmem he hk
        exact hdistinct.1 (hxe ▸ List.mem_map_of_mem hx)
      simp [hk, hdead]
    · have hsame : ({ s with backlog := rest } : TimerQueue).isLive x = s.isLive x := rfl
      simp [hk, hsame]

/-- A timer that is taken out is taken out by any moment at which it is due. -/
theorem pop_some_of_due {now' : Nat} (h : q.pop now = (q', some e)) (hdue : e.due ≤ now') :
    q.pop now' = (q', some e) := by
  obtain ⟨rest, hback, -, rfl⟩ := pop_some_eq h
  simp [pop, hback, hdue]

/-- A timer that is taken out by some moment is taken out by every later one. -/
theorem pop_some_mono {now' : Nat} (h : q.pop now = (q', some e)) (hle : now ≤ now') :
    q.pop now' = (q', some e) := by
  obtain ⟨-, -, hdue, -⟩ := pop_some_eq h
  exact pop_some_of_due h (Nat.le_trans hdue hle)

/-- No pending timer is due before the one that is taken out. -/
theorem Sound.due_le_of_pop (hq : q.Sound) (h : q.pop now = (q', some e)) (hx : x ∈ q.pending) :
    e.due ≤ x.due := by
  have hordered := hq.ordered.sublist (List.filter_sublist (p := q.isLive))
  have hpending := (hq.pop_some h).2.1
  rw [pending] at hpending hx
  rw [hpending] at hordered hx
  rcases List.mem_cons.1 hx with rfl | hx
  · exact Nat.le_refl _
  · exact Entry.due_le_of_before ((List.pairwise_cons.1 hordered).1 x hx)

theorem pop_none_eq (h : q.pop now = (q', none)) :
    q' = q.skipDead ∧ ∀ e, q.skipDead.backlog.head? = some e → now < e.due := by
  simp only [pop] at h
  split at h
  · rename_i hback
    cases h
    exact ⟨rfl, fun e he => by simp [hback] at he⟩
  · rename_i y rest hback
    split_ifs at h with hdue
    · cases h
    · cases h
      refine ⟨rfl, fun e he => ?_⟩
      rw [hback, List.head?_cons, Option.some.injEq] at he
      rw [← he]
      omega

/-- A queue that gives out no timer has none that is due. -/
theorem Sound.pop_none (hq : q.Sound) (h : q.pop now = (q', none)) (hx : x ∈ q.pending) :
    now < x.due := by
  obtain ⟨-, hhead⟩ := pop_none_eq h
  rw [← pending_skipDead] at hx
  have hmem : x ∈ q.skipDead.backlog := List.mem_of_mem_filter hx
  have hordered := hq.skipDead.ordered
  cases hback : q.skipDead.backlog with
  | nil =>
    rw [hback] at hmem
    cases hmem
  | cons e rest =>
    rw [hback] at hmem hordered
    have hdue := hhead e (by rw [hback]; rfl)
    rcases List.mem_cons.1 hmem with rfl | hmem
    · exact hdue
    · have hbefore := Entry.due_le_of_before (List.rel_of_pairwise_cons hordered hmem)
      omega

/-- **A timer that is due is taken out** by every batch that is large enough. -/
theorem mem_popDue (hq : q.Sound) (hx : x ∈ q.pending) (hdue : x.due ≤ now)
    (hmax : q.size ≤ max) : x ∈ (q.popDue now max).2 := by
  rw [← length_pending hq] at hmax
  induction max generalizing q with
  | zero =>
    rw [List.length_eq_zero_iff.1 (Nat.le_zero.1 hmax)] at hx
    cases hx
  | succ max ih =>
    simp only [popDue]
    cases h : q.pop now with
    | mk q₁ found =>
      cases found with
      | none =>
        have hlate := hq.pop_none h hx
        omega
      | some e =>
        obtain ⟨hq₁, hpending, -⟩ := hq.pop_some h
        rw [hpending, List.length_cons] at hmax
        rw [hpending] at hx
        rcases List.mem_cons.1 hx with rfl | hx
        · exact List.mem_cons_self
        · exact List.mem_cons_of_mem _ (ih hq₁ hx (by omega))

end TimerQueue

end StatusEffects
