/-
**Crowds that are in order.**

Whatever happens at a gate, no thread is in two places at once, what every waiting thread waits for
fits the gate, and nobody is parked for something that is already the case.  A crowd is *orderly* if
all this holds.  It is *settled* if moreover the closer has the gate to itself as soon as it has
stopped draining.  A draining closer and one that has drained look the same in the gate alone: only
the crowd tells them apart.

Main definitions:

* `Gate.Crowd.visitors`, `Gate.Crowd.drains` — the threads in the middle of a call, and whether one
  of them drains;
* `Gate.Crowd.Leaves`, `Gate.Crowd.Step` — the crowd while a thread has the lock, and what one
  action can do to it;
* `Gate.Crowd.Orderly`, `Gate.Crowd.Settled` — the invariants.

Main results:

* `Gate.Crowd.act_step` — **every action is a segment of one thread, or changes neither the gate nor
  who is there**;
* `Gate.Crowd.run_induction`, `Gate.Crowd.run_steps` — what actions keep holds after every run;
* `Gate.Crowd.run_orderly`, `Gate.Crowd.run_settled` — **both invariants hold after every run**.
-/

import ReentrantGate.Proofs.Gate.Move

set_option relaxedAutoImplicit false
set_option autoImplicit false

namespace ReentrantGate.Gate

/-- The thread that parks in a segment of `t`. -/
def Segment.parks (t : ThreadId) : Segment → List Visitor
  | park _ w => [⟨t, w⟩]
  | done .. => []

/-- The thread whose segment an action is; waking up and the passing of time are nobody's. -/
def Action.actor : Action → Option ThreadId
  | call t _ _ => some t
  | resume t _ => some t
  | rouse _ => none
  | tick _ => none

namespace Crowd

/-! ### Who is there -/

/-- The threads in the middle of a call. -/
def visitors (c : Crowd) : List Visitor := c.parked ++ c.woken

/-- Whether a thread has claimed the gate and waits for the foreign entries to leave. -/
def drains (c : Crowd) (t : ThreadId) : Bool :=
  c.visitors.any fun v => v.thread = t && v.waiting.draining

theorem drains_iff {c : Crowd} {t : ThreadId} :
    c.drains t = true ↔ ∃ v ∈ c.visitors, v.thread = t ∧ v.waiting.draining = true := by
  simp [drains]

theorem idle_iff {c : Crowd} {t : ThreadId} :
    c.idle t = true ↔ ∀ v ∈ c.visitors, v.thread ≠ t := by
  simp only [idle, visitors, Bool.not_eq_true', List.any_eq_false, decide_eq_true_eq]

/-- A thread that is not in the middle of a call does not drain. -/
theorem drains_eq_false {c : Crowd} {t : ThreadId} (h : ∀ v ∈ c.visitors, v.thread ≠ t) :
    c.drains t = false := by
  rw [Bool.eq_false_iff, ne_eq, drains_iff]
  rintro ⟨v, hv, ht, -⟩
  exact h v hv ht

/-- Whether a thread drains depends on its own place only. -/
theorem drains_congr {c e : Crowd} {t : ThreadId}
    (h : ∀ v : Visitor, v.thread = t → (v ∈ e.visitors ↔ v ∈ c.visitors)) :
    e.drains t = c.drains t := by
  rw [Bool.eq_iff_iff, drains_iff, drains_iff]
  refine exists_congr fun v => ?_
  constructor
  · rintro ⟨hv, ht, hd⟩
    exact ⟨(h v ht).1 hv, ht, hd⟩
  · rintro ⟨hv, ht, hd⟩
    exact ⟨(h v ht).2 hv, ht, hd⟩

/-! ### The crowd after a segment -/

section Absorb

variable {c : Crowd} {t u : ThreadId} {s : Segment}

@[simp] theorem gate_absorb : (c.absorb t s).gate = s.gate := by
  cases s <;> rfl

/-- Nobody goes and nobody comes but the thread that parks. -/
theorem visitors_absorb : (c.absorb t s).visitors.Perm (s.parks t ++ c.visitors) := by
  cases s with
  | park g w =>
      simp only [absorb, visitors, Segment.parks, List.append_assoc]
      exact List.perm_append_comm_assoc c.parked [⟨t, w⟩] c.woken
  | done g room note verdict =>
      have hperm := List.filter_append_perm (fun v : Visitor => room ≠ some v.waiting.room) c.parked
      simp only [absorb, visitors, Segment.parks, List.nil_append]
      refine (List.perm_append_comm_assoc _ c.woken _).trans ?_
      refine List.Perm.trans ?_ List.perm_append_comm
      refine List.Perm.append_left c.woken ?_
      simpa using hperm

theorem mem_visitors_absorb {v : Visitor} :
    v ∈ (c.absorb t s).visitors ↔ v ∈ s.parks t ∨ v ∈ c.visitors := by
  rw [visitors_absorb.mem_iff, List.mem_append]

/-- Who is parked after a segment parks in it, or was parked and has not been woken. -/
theorem mem_parked_absorb {v : Visitor} :
    v ∈ (c.absorb t s).parked ↔
      v ∈ s.parks t ∨ v ∈ c.parked ∧ s.woken ≠ some v.waiting.room := by
  cases s with
  | park g w =>
      simp [absorb, Segment.parks, Segment.woken, or_comm]
  | done g room note verdict =>
      simp [absorb, Segment.parks, Segment.woken]

theorem eq_of_mem_parks {v : Visitor} (h : v ∈ s.parks t) : ∃ g w, s = .park g w ∧ v = ⟨t, w⟩ := by
  cases s with
  | park g w => exact ⟨g, w, rfl, List.mem_singleton.1 h⟩
  | done g room note verdict => cases h

theorem thread_of_mem_parks {v : Visitor} (h : v ∈ s.parks t) : v.thread = t := by
  obtain ⟨g, w, -, rfl⟩ := eq_of_mem_parks h
  rfl

theorem drains_absorb_of_ne (hu : u ≠ t) : (c.absorb t s).drains u = c.drains u := by
  refine drains_congr fun v hv => ?_
  rw [mem_visitors_absorb, or_iff_right]
  intro hp
  exact hu (hv.symm.trans (thread_of_mem_parks hp))

/-- After its segment a thread drains if it parks for that. -/
theorem drains_absorb_self (h : ∀ v ∈ c.visitors, v.thread ≠ t) :
    (c.absorb t s).drains t = s.draining := by
  rw [Bool.eq_iff_iff, drains_iff]
  constructor
  · rintro ⟨v, hv, ht, hd⟩
    rcases mem_visitors_absorb.1 hv with hp | hv
    · obtain ⟨g, w, rfl, rfl⟩ := eq_of_mem_parks hp
      exact hd
    · exact absurd ht (h v hv)
  · intro hd
    cases s with
    | park g w => exact ⟨⟨t, w⟩, mem_visitors_absorb.2 (.inl (List.mem_singleton.2 rfl)), rfl, hd⟩
    | done g room note verdict => simp [Segment.draining] at hd

end Absorb

/-! ### One action -/

/-- The crowd `rest` is `c` while `t` has the lock; the flag tells whether `t` was draining. -/
structure Leaves (c : Crowd) (t : ThreadId) (draining : Bool) (rest : Crowd) : Prop where
  gate : rest.gate = c.gate
  parked : rest.parked = c.parked
  sublist : rest.visitors.Sublist c.visitors
  mem_iff : ∀ v, v ∈ rest.visitors ↔ v ∈ c.visitors ∧ v.thread ≠ t
  drains : c.drains t = draining

namespace Leaves

variable {c rest : Crowd} {t u : ThreadId} {d : Bool}

theorem away (h : Leaves c t d rest) : ∀ v ∈ rest.visitors, v.thread ≠ t :=
  fun v hv => ((h.mem_iff v).1 hv).2

theorem drains_of_ne (h : Leaves c t d rest) (hu : u ≠ t) : rest.drains u = c.drains u := by
  refine drains_congr fun v hv => ?_
  rw [h.mem_iff, and_iff_left]
  exact hv ▸ hu

/-- A thread that starts a call leaves everybody where they are. -/
theorem of_idle (h : c.idle t = true) : Leaves c t false c where
  gate := rfl
  parked := rfl
  sublist := List.Sublist.refl _
  mem_iff v := ⟨fun hv => ⟨hv, idle_iff.1 h v hv⟩, fun hv => hv.1⟩
  drains := drains_eq_false (idle_iff.1 h)

/-- Taking a thread off a list leaves the others. -/
theorem perm_of_find {vs : List Visitor} {v : Visitor} (h : vs.find? (·.thread = t) = some v) :
    v.thread = t ∧ vs.Perm (v :: vs.eraseP (·.thread = t)) := by
  obtain ⟨ht, as, bs, hvs, has⟩ := List.find?_eq_some_iff_append.1 h
  refine ⟨by simpa using ht, ?_⟩
  rw [hvs, List.eraseP_append_right _ (by simpa using has),
    List.eraseP_cons_of_pos (by simpa using ht)]
  exact List.perm_middle

/-- Taking one visitor away leaves the others, if no thread is there twice. -/
theorem of_perm (hn : (c.visitors.map (·.thread)).Nodup) {v : Visitor} (hg : rest.gate = c.gate)
    (hp : rest.parked = c.parked) (hs : rest.visitors.Sublist c.visitors)
    (hperm : c.visitors.Perm (v :: rest.visitors)) :
    Leaves c v.thread v.waiting.draining rest := by
  have hmem : ∀ x, x ∈ c.visitors ↔ x = v ∨ x ∈ rest.visitors := by
    intro x
    rw [hperm.mem_iff, List.mem_cons]
  -- `v` was there only once, so nobody who is left has its thread
  have haway : ∀ x ∈ rest.visitors, x.thread ≠ v.thread := by
    rw [(hperm.map _).nodup_iff, List.map_cons, List.nodup_cons] at hn
    intro x hx hxv
    exact hn.1 (List.mem_map.2 ⟨x, hx, hxv⟩)
  refine ⟨hg, hp, hs, fun x => ?_, ?_⟩
  · rw [hmem]
    constructor
    · exact fun hx => ⟨.inr hx, haway x hx⟩
    · rintro ⟨rfl | hx, hxv⟩
      · exact absurd rfl hxv
      · exact hx
  · rw [Bool.eq_iff_iff, drains_iff]
    constructor
    · rintro ⟨x, hx, hxv, hd⟩
      rcases (hmem x).1 hx with rfl | hx
      · exact hd
      · exact absurd hxv (haway x hx)
    · exact fun hd => ⟨v, (hmem v).2 (.inl rfl), rfl, hd⟩

/-- A woken thread that takes the lock is no longer among those who are there. -/
theorem of_find (hn : (c.visitors.map (·.thread)).Nodup) {v : Visitor}
    (h : c.woken.find? (·.thread = t) = some v) :
    v ∈ c.visitors ∧ v.thread = t ∧
      Leaves c t v.waiting.draining { c with woken := c.woken.eraseP (·.thread = t) } := by
  obtain ⟨rfl, hw⟩ := perm_of_find h
  have hsub : (c.parked ++ c.woken.eraseP (·.thread = v.thread)).Sublist c.visitors :=
    List.Sublist.append_left List.eraseP_sublist c.parked
  have hperm : c.visitors.Perm (v :: (c.parked ++ c.woken.eraseP (·.thread = v.thread))) :=
    (hw.append_left c.parked).trans List.perm_middle
  exact ⟨hperm.mem_iff.2 List.mem_cons_self, rfl, of_perm hn rfl rfl hsub hperm⟩

end Leaves

/-- **What an action can do**: one thread has the lock for a segment, or somebody wakes up or time
passes, which changes neither the gate nor who is there. -/
inductive Step (c : Crowd) (a : Action) : Crowd → Option Occurrence → Prop
  | segment {t : ThreadId} {d : Bool} {hold : Hold} {s : Segment} {rest : Crowd}
      (sinkFails : Bool) : a.actor = some t → Leaves c t d rest → Move t c.gate d hold s →
      Step c a (rest.absorb t s) (occurrence? t hold sinkFails s)
  | still {c' : Crowd} : a.actor = none → c'.gate = c.gate → c'.visitors.Perm c.visitors →
      c'.parked.Sublist c.parked → Step c a c' none

/-! ### The invariants -/

/-- **A crowd in order**: the counters of the gate agree, no thread is there twice, every waiting
fits the gate, and nobody is parked for something that is the case. -/
structure Orderly (c : Crowd) : Prop where
  sound : c.gate.Sound
  nodup : (c.visitors.map (·.thread)).Nodup
  fits : ∀ v ∈ c.visitors, v.waiting.Fits c.gate v.thread
  parked : ∀ v ∈ c.parked, v.waiting.ready c.gate = false

/-- **A closer that does not drain has the gate to itself.** -/
def Settled (c : Crowd) : Prop :=
  ∀ t, c.gate.closer = some t → c.drains t = false → c.gate.foreign = 0

variable {c c' : Crowd} {a : Action} {o : Option Occurrence} {t : ThreadId} {d : Bool}

theorem Orderly.of_leaves {rest : Crowd} (h : c.Orderly) (hl : Leaves c t d rest) :
    rest.Orderly where
  sound := hl.gate ▸ h.sound
  nodup := h.nodup.sublist (hl.sublist.map _)
  fits v hv := hl.gate ▸ h.fits v ((hl.mem_iff v).1 hv).1
  parked v hv := by
    rw [hl.gate]
    exact h.parked v (hl.parked ▸ hv)

/-- **Every action of an orderly crowd is a segment or leaves the crowd alone.** -/
theorem act_step (h : c.Orderly) (ha : c.act a = some (c', o)) : Step c a c' o := by
  cases a with
  | call t r sinkFails =>
      simp only [act] at ha
      split at ha
      · rename_i hi
        cases ha
        exact .segment sinkFails rfl (.of_idle hi) (begin_move h.sound _ r)
      · cases ha
  | resume t sinkFails =>
      simp only [act] at ha
      split at ha
      · cases ha
      · rename_i v hf
        cases ha
        obtain ⟨hv, ht, hl⟩ := Leaves.of_find h.nodup hf
        exact .segment sinkFails rfl hl (resume_move h.sound (ht ▸ h.fits v hv) _)
  | rouse t =>
      simp only [act] at ha
      split at ha
      · cases ha
      · rename_i v hf
        cases ha
        obtain ⟨-, hp⟩ := Leaves.perm_of_find hf
        refine .still rfl rfl ?_ List.eraseP_sublist
        refine List.Perm.trans ?_ (hp.symm.append_right c.woken)
        rw [visitors, ← List.append_assoc]
        exact List.perm_append_singleton v _
  | tick ns =>
      cases ha
      exact .still rfl rfl (List.Perm.refl _) (List.Sublist.refl _)

/-- A call that is over ended in a move of its thread. -/
theorem act_occurrence {o : Occurrence} (h : c.Orderly) (ha : c.act a = some (c', some o)) :
    a.actor = some o.thread ∧
      ∃ d room, Move o.thread c.gate d o.hold (.done c'.gate room o.note o.verdict) := by
  have hs := act_step h ha
  generalize hp : some o = p at hs
  cases hs with
  | @segment t d hold s rest sinkFails ht hl m =>
      cases s with
      | park g w => simp [occurrence?] at hp
      | done g room note verdict =>
          cases hp
          exact ⟨ht, d, room, m⟩
  | still _ _ _ _ => cases hp

/-- A thread that drains is the closer. -/
theorem Orderly.closer_of_drains (h : c.Orderly) (hd : c.drains t = true) :
    c.gate.closer = some t ∧ c.gate.closed = 1 := by
  obtain ⟨v, hv, rfl, hw⟩ := drains_iff.1 hd
  have hf := h.fits v hv
  cases hwait : v.waiting with
  | drain deadline =>
      rw [hwait] at hf
      exact hf
  | entry timeout deadline => simp [hwait, Waiting.draining, Waiting.room] at hw
  | exclusivity deadline => simp [hwait, Waiting.draining, Waiting.room] at hw

/-! ### What a segment keeps -/

section Segments

variable {hold : Hold} {s : Segment}

/-- A segment of a thread that is nowhere else keeps a crowd orderly. -/
theorem Orderly.absorb (h : c.Orderly) (ht : ∀ v ∈ c.visitors, v.thread ≠ t)
    (m : Move t c.gate d hold s) : (c.absorb t s).Orderly where
  sound := by
    rw [gate_absorb]
    exact m.sound h.sound
  nodup := by
    rw [(visitors_absorb.map _).nodup_iff]
    cases s with
    | park g w =>
        refine List.nodup_cons.2 ⟨fun hm => ?_, h.nodup⟩
        obtain ⟨v, hv, hvt⟩ := List.mem_map.1 hm
        exact ht v hv hvt
    | done g room note verdict => exact h.nodup
  fits v hv := by
    rw [gate_absorb]
    rcases mem_visitors_absorb.1 hv with hv | hv
    · obtain ⟨g, w, rfl, rfl⟩ := eq_of_mem_parks hv
      exact m.of_park.1
    · exact m.fits_of_ne h.sound (ht v hv) (h.fits v hv)
  parked v hv := by
    rw [gate_absorb]
    rcases mem_parked_absorb.1 hv with hv | ⟨hv, hroom⟩
    · obtain ⟨g, w, rfl, rfl⟩ := eq_of_mem_parks hv
      exact m.of_park.2
    · -- the room of `v` was not woken, so its condition has not come true
      have hvis : v ∈ c.visitors := List.mem_append_left _ hv
      exact m.not_ready_of_ne h.sound (ht v hvis) (h.fits v hvis) (h.parked v hv) hroom

/-- A segment of a thread keeps the crowd settled; the thread may have been draining before. -/
theorem Settled.absorb (h : c.gate.Sound) (ht : ∀ v ∈ c.visitors, v.thread ≠ t)
    (m : Move t c.gate d hold s)
    (hself : c.gate.closer = some t → d = false → c.gate.foreign = 0)
    (hother : ∀ u, u ≠ t → c.gate.closer = some u → c.drains u = false → c.gate.foreign = 0) :
    (c.absorb t s).Settled := by
  intro u hc hd
  rw [gate_absorb] at hc ⊢
  by_cases hu : u = t
  · subst hu
    rw [drains_absorb_self ht] at hd
    exact m.foreign_of_self h hself hc hd
  · rw [drains_absorb_of_ne hu] at hd
    have hcu := (m.closer_iff_of_ne hu).1 hc
    exact m.foreign_of_ne h hu hcu (hother u hu hcu hd)

end Segments

/-! ### What every run keeps -/

theorem drains_of_perm {e : Crowd} (h : e.visitors.Perm c.visitors) : e.drains t = c.drains t :=
  drains_congr fun _ _ => h.mem_iff

/-- **An action keeps a crowd orderly.** -/
theorem Step.orderly (hs : Step c a c' o) (h : c.Orderly) : c'.Orderly := by
  cases hs with
  | segment sinkFails _ hl m => exact (h.of_leaves hl).absorb hl.away (hl.gate ▸ m)
  | still _ hg hv hp =>
      refine ⟨hg ▸ h.sound, (hv.map _).nodup_iff.2 h.nodup, fun v hm => ?_, fun v hm => ?_⟩
      · exact hg ▸ h.fits v (hv.mem_iff.1 hm)
      · exact hg ▸ h.parked v (hp.subset hm)

/-- **An action keeps an orderly crowd settled.** -/
theorem Step.settled (hs : Step c a c' o) (h : c.Orderly) (hset : c.Settled) : c'.Settled := by
  cases hs with
  | segment sinkFails _ hl m =>
      refine Settled.absorb (h.of_leaves hl).sound hl.away (hl.gate ▸ m) ?_ fun u hu hc hd => ?_
      · intro hc hd
        rw [hl.gate] at hc ⊢
        exact hset _ hc (hl.drains.trans hd)
      · rw [hl.gate] at hc ⊢
        exact hset u hc (hl.drains_of_ne hu ▸ hd)
  | still _ hg hv _ =>
      intro u hc hd
      rw [hg] at hc ⊢
      exact hset u hc (drains_of_perm hv ▸ hd)

/-- The first thing that happens in a run, and the rest. -/
theorem run_cons_eq_some {as : List Action} {e : Crowd} {history : List Occurrence}
    (h : c.run (a :: as) = some (e, history)) :
    ∃ c' o later, c.act a = some (c', o) ∧ c'.run as = some (e, later) ∧
      history = o.toList ++ later := by
  simp only [run] at h
  cases ha : c.act a with
  | none => simp [ha] at h
  | some p =>
      obtain ⟨c', o⟩ := p
      simp only [ha] at h
      obtain ⟨⟨e', later⟩, hlater, h⟩ := Option.map_eq_some_iff.1 h
      cases h
      exact ⟨c', o, later, rfl, hlater, rfl⟩

/-- **What holds of a fresh gate and is kept by every action holds after every run**, of the crowd
and of all the calls that are over. -/
theorem run_induction {P : Crowd → List Occurrence → Prop} (start : P {} [])
    (act : ∀ c history a c' o, P c history → c.act a = some (c', o) → P c' (history ++ o.toList))
    {as : List Action} {c : Crowd} {history : List Occurrence}
    (h : run {} as = some (c, history)) : P c history := by
  induction as using List.reverseRecOn generalizing c history with
  | nil =>
      cases h
      exact start
  | append_singleton as a ih =>
      -- the last action of a run starts from the crowd that the others lead to
      rw [run_append] at h
      obtain ⟨⟨b, before⟩, hb, h⟩ := Option.bind_eq_some_iff.1 h
      obtain ⟨⟨e, after⟩, he, h⟩ := Option.map_eq_some_iff.1 h
      cases h
      obtain ⟨_, o, _, ha, hlater, rfl⟩ := run_cons_eq_some he
      cases hlater
      simpa using act b before a e o (ih hb) ha

theorem orderly_fresh : Orderly {} :=
  ⟨sound_fresh, List.nodup_nil, by simp [visitors], by simp⟩

theorem settled_fresh : Settled {} := by
  intro t hc
  simp at hc

/-- **Every run leads to an orderly crowd.** -/
theorem run_orderly {as : List Action} {history : List Occurrence}
    (h : run {} as = some (c, history)) : c.Orderly :=
  run_induction (P := fun c _ => c.Orderly) orderly_fresh
    (fun _ _ _ _ _ ho ha => (act_step ho ha).orderly ho) h

/-- **What the steps of orderly crowds keep holds after every run.** -/
theorem run_steps {P : Crowd → List Occurrence → Prop} (start : P {} [])
    (step : ∀ c history a c' o, c.Orderly → P c history → Step c a c' o →
      P c' (history ++ o.toList))
    {as : List Action} {c : Crowd} {history : List Occurrence}
    (h : run {} as = some (c, history)) : P c history := by
  have key : c.Orderly ∧ P c history := by
    refine run_induction (P := fun c history => c.Orderly ∧ P c history) ⟨orderly_fresh, start⟩ ?_ h
    rintro c history a c' o ⟨ho, hp⟩ ha
    have hs := act_step ho ha
    exact ⟨hs.orderly ho, step c history a c' o ho hp hs⟩
  exact key.2

/-- **Every run leads to a settled crowd.** -/
theorem run_settled {as : List Action} {history : List Occurrence}
    (h : run {} as = some (c, history)) : c.Settled :=
  run_steps (P := fun c _ => c.Settled) settled_fresh
    (fun _ _ _ _ _ ho hset hs => hs.settled ho hset) h

/-- **Every crowd that can come about is orderly.** -/
theorem Reachable.orderly (h : c.Reachable) : c.Orderly := by
  obtain ⟨as, history, hr⟩ := h
  exact run_orderly hr

/-- **Every crowd that can come about is settled.** -/
theorem Reachable.settled (h : c.Reachable) : c.Settled := by
  obtain ⟨as, history, hr⟩ := h
  exact run_settled hr

end Crowd

end ReentrantGate.Gate
