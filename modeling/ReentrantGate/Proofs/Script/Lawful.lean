/-
**Every crowd in a script can come about.**

In the middle of a script every thread is in one place, only the first of its tasks can be a call to
resume, and the crowds at all gates and events are crowds that can come about when anything may
happen in any order.  Turns of the first runner keep this, and so does a sleeper that is woken by
the clock.  So all that has been proved about crowds holds in every script: above all, when
everything has come to rest nobody is parked for something that is the case.

Main definitions:

* `Script.System.Lawful` — every thread is in one place, and all crowds can come about;
* `Script.Wait.Ready` — what a thread waits for is the case.

Main results:

* `Script.System.Lawful.turn`, `Script.System.Lawful.awake`, `Script.System.Lawful.take` — **turns,
  deadlines and steps keep a system lawful**;
* `Script.System.Lawful.not_ready` — **at rest nobody is parked for something that is the case**.
-/

import ReentrantGate.Proofs.Script.Crowds
import ReentrantGate.Proofs.Script.Due

set_option relaxedAutoImplicit false
set_option autoImplicit false

/-! ### What scripts make crowds do -/

namespace ReentrantGate

/-- The first of a list that meets a condition is found, and the others are left. -/
theorem find?_and_eraseP_append {α : Type} {p : α → Bool} {before : List α} {a : α}
    (after : List α) (hbefore : ∀ b ∈ before, ¬p b = true) (ha : p a = true) :
    (before ++ a :: after).find? p = some a ∧
      (before ++ a :: after).eraseP p = before ++ after := by
  constructor
  · rw [List.find?_append, List.find?_eq_none.2 hbefore, List.find?_cons_of_pos ha]
    rfl
  · rw [List.eraseP_append_right _ hbefore, List.eraseP_cons_of_pos ha]

end ReentrantGate

namespace ReentrantGate.Gate.Crowd

variable {c : Crowd} {t : ThreadId} {v : Visitor}

/-- A thread that is idle starts a call. -/
theorem Reachable.begin (h : c.Reachable) (ht : c.idle t = true) (r : Request) :
    (c.absorb t (Gate.begin t c.clock r c.gate)).Reachable := by
  have ha : c.act (.call t r false) = some (c.absorb t (Gate.begin t c.clock r c.gate),
      occurrence? t r.hold false (Gate.begin t c.clock r c.gate)) := by
    simp only [Crowd.act, ht, if_true]
  exact h.act ha

/-- The thread that was woken first goes on. -/
theorem Reachable.resume {ws : List Visitor} (h : c.Reachable) (hw : c.woken = v :: ws) :
    ({ c with woken := ws }.absorb v.thread
      (Gate.resume v.thread c.clock v.waiting c.gate)).Reachable := by
  have ha : c.act (.resume v.thread false) =
      some ({ c with woken := ws }.absorb v.thread
          (Gate.resume v.thread c.clock v.waiting c.gate),
        occurrence? v.thread v.waiting.hold false
          (Gate.resume v.thread c.clock v.waiting c.gate)) := by
    simp [Crowd.act, hw]
  exact h.act ha

/-- Time passes up to some instant. -/
theorem Reachable.until (h : c.Reachable) (d : Nat) :
    { c with clock := max c.clock d }.Reachable := by
  have hd : max c.clock d = c.clock + (d - c.clock) := by omega
  rw [hd]
  exact h.act (a := .tick (d - c.clock)) rfl

/-- A parked thread wakes by itself. -/
theorem Reachable.rouse {before after : List Visitor} (h : c.Reachable)
    (hp : c.parked = before ++ v :: after) (hne : ∀ u ∈ before, u.thread ≠ v.thread) :
    { c with parked := before ++ after, woken := c.woken ++ [v] }.Reachable := by
  obtain ⟨hfound, hleft⟩ := find?_and_eraseP_append (p := (·.thread = v.thread)) after
    (by simpa using hne) (decide_eq_true rfl)
  rw [← hp] at hfound hleft
  have ha : c.act (.rouse v.thread) =
      some ({ c with parked := before ++ after, woken := c.woken ++ [v] }, none) := by
    simp only [Crowd.act, hfound, hleft]
  exact h.act ha

end ReentrantGate.Gate.Crowd

namespace ReentrantGate.Event.Crowd

variable {c : Crowd} {t : ThreadId} {v : Visitor} {deadline : Deadline}

/-- A thread that is idle starts a wait. -/
theorem Reachable.wait {limit : Option Duration} (h : c.Reachable) (ht : c.idle t = true)
    (hd : c.deadline? limit = some deadline) : (c.look t deadline).1.Reachable := by
  have ha : c.act (.wait t limit) = some (c.look t deadline) := by
    simp only [Crowd.act, ht, if_true, hd]
  exact h.act ha

/-- The thread that was woken first goes on. -/
theorem Reachable.resume {ws : List Visitor} (h : c.Reachable) (hw : c.woken = v :: ws) :
    ({ c with woken := ws }.look v.thread v.deadline).1.Reachable := by
  have ha : c.act (.resume v.thread) = some ({ c with woken := ws }.look v.thread v.deadline) := by
    simp [Crowd.act, hw]
  exact h.act ha

/-- Time passes up to some instant. -/
theorem Reachable.until (h : c.Reachable) (d : Nat) :
    { c with clock := max c.clock d }.Reachable := by
  have hd : max c.clock d = c.clock + (d - c.clock) := by omega
  rw [hd]
  exact h.act (a := .tick (d - c.clock)) rfl

/-- A parked thread wakes by itself. -/
theorem Reachable.rouse {before after : List Visitor} (h : c.Reachable)
    (hp : c.parked = before ++ v :: after) (hne : ∀ u ∈ before, u.thread ≠ v.thread) :
    { c with parked := before ++ after, woken := c.woken ++ [v] }.Reachable := by
  obtain ⟨hfound, hleft⟩ := find?_and_eraseP_append (p := (·.thread = v.thread)) after
    (by simpa using hne) (decide_eq_true rfl)
  rw [← hp] at hfound hleft
  have ha : c.act (.rouse v.thread) =
      some ({ c with parked := before ++ after, woken := c.woken ++ [v] }, none) := by
    simp only [Crowd.act, hfound, hleft, Option.map_some]
  exact h.act ha

end ReentrantGate.Event.Crowd

namespace ReentrantGate.Script

/-- What a thread waits for is the case. -/
def Wait.Ready (w : World) : Wait → Prop
  | gate i waiting => ∃ g, w.gates[i]? = some g ∧ waiting.ready g = true
  | event i _ => ∃ e, w.events[i]? = some e ∧ e.set = true

theorem Wait.thread_of_visitor? {i : Nat} {t : ThreadId} {v : Gate.Visitor} {wait : Wait}
    (h : wait.visitor? i t = some v) : v.thread = t := by
  cases wait with
  | event j deadline => cases h
  | gate j waiting =>
      simp only [visitor?] at h
      split at h
      · cases h
        rfl
      · cases h

theorem Wait.thread_of_guest? {i : Nat} {t : ThreadId} {v : Event.Visitor} {wait : Wait}
    (h : wait.guest? i t = some v) : v.thread = t := by
  cases wait with
  | gate j waiting => cases h
  | event j deadline =>
      simp only [guest?] at h
      split at h
      · cases h
        rfl
      · cases h

namespace System

/-- **A lawful system**: no thread is there twice, only the first task of a thread can be a call to
resume, and the crowds at all places can come about. -/
structure Lawful (s : System) : Prop where
  nodup : (s.everyone.map (·.thread)).Nodup
  tails : ∀ r ∈ s.everyone, ∀ x ∈ r.tasks.tail, x.isResume = false
  gates : ∀ i g, s.world.gates[i]? = some g → (s.crowdAt i).Reachable
  events : ∀ i e, s.world.events[i]? = some e → (s.crowdAtEvent i).Reachable

variable {s : System} {t : ThreadId} {task : Task} {rest : List Task} {r : Runner}
  {rs : List Runner} {i : Nat}

/-- A thread that is nowhere in the system is idle at every gate. -/
theorem idle_crowdAt (h : ∀ u ∈ s.everyone, u.thread ≠ t) : (s.crowdAt i).idle t = true := by
  rw [Gate.Crowd.idle_iff]
  intro v hv
  obtain ⟨u, hu, wait, hsee⟩ := exists_of_mem_seen (Wait.visitor? i) hv
  rw [Wait.thread_of_visitor? hsee]
  exact h u hu

/-- A thread that is nowhere in the system is idle at every event. -/
theorem idle_crowdAtEvent (h : ∀ u ∈ s.everyone, u.thread ≠ t) :
    (s.crowdAtEvent i).idle t = true := by
  simp only [Event.Crowd.idle, Bool.not_eq_true', List.any_eq_false, decide_eq_true_eq]
  intro v hv
  obtain ⟨u, hu, wait, hsee⟩ := exists_of_mem_seen (Wait.guest? i) hv
  rw [Wait.thread_of_guest? hsee]
  exact h u hu

/-! ### The first runner -/

/-- The first runner is none of the others, if no thread is there twice. -/
theorem thread_ne_of_runnable (hn : (s.everyone.map (·.thread)).Nodup) (hs : s.runnable = r :: rs) :
    ∀ u ∈ { s with runnable := rs }.everyone, u.thread ≠ r.thread := by
  intro u hu heq
  have hnodup := ((everyone_perm_of_runnable hs).map (·.thread)).nodup_iff.1 hn
  rw [List.map_cons, List.nodup_cons] at hnodup
  exact hnodup.1 (heq ▸ List.mem_map_of_mem hu)

/-- No thread is there twice after a segment either. -/
theorem nodup_carryOut (hn : (s.everyone.map (·.thread)).Nodup)
    (hs : s.runnable = ⟨t, task :: rest⟩ :: rs) :
    (({ s with runnable := rs }.carryOut t task rest).everyone.map Runner.thread).Nodup := by
  have hafter := (everyone_carryOut { s with runnable := rs } t task rest).map Runner.thread
  have hbefore := (everyone_perm_of_runnable hs).map Runner.thread
  exact (hafter.trans hbefore.symm).nodup_iff.2 hn

/-- No thread is there twice if the one that is about to start calls was not there. -/
theorem nodup_enlist (hn : (s.everyone.map (·.thread)).Nodup) (ht : ∀ u ∈ s.everyone, u.thread ≠ t)
    (calls : List Call) : ((s.enlist t calls).everyone.map (·.thread)).Nodup := by
  rw [everyone_enlist, List.map_append]
  refine List.nodup_append.2 ⟨hn, List.nodup_singleton _, ?_⟩
  intro a ha b hb hab
  obtain ⟨u, hu, rfl⟩ := List.mem_map.1 ha
  exact ht u hu (hab.trans (List.mem_singleton.1 hb))

/-- After a segment only the first task of its thread can be a call to resume. -/
theorem isResume_of_mem_tail_afterwards {segment : Segment} {x : Task}
    (hrest : ∀ x ∈ rest, x.isResume = false)
    (hx : x ∈ (afterwards task rest segment).tail) : x.isResume = false := by
  cases segment with
  | park w c wait => exact hrest x hx
  | done w ns follow =>
      rcases List.mem_append.1 (List.mem_of_mem_tail hx) with hx | hx
      · exact Task.isResume_of_mem_follow hx
      · exact hrest x hx

/-- What is left to do after a segment begins in the middle of a call only if that has parked. -/
theorem park_of_afterwards {segment : Segment} {c : Call} {wait : Wait} {rest' : List Task}
    (hrest : ∀ x ∈ rest, x.isResume = false)
    (h : .resume c wait :: rest' = afterwards task rest segment) :
    ∃ w, segment = .park w c wait := by
  cases segment with
  | park w c' wait' =>
      cases h
      exact ⟨w, rfl⟩
  | done w ns follow =>
      have h : .resume c wait :: rest' = task.follow follow ++ rest := h
      have hmem : .resume c wait ∈ task.follow follow ++ rest := h ▸ List.mem_cons_self
      rcases List.mem_append.1 hmem with hmem | hmem
      · cases Task.isResume_of_mem_follow hmem
      · cases hrest _ hmem

theorem Lawful.of_runnable (h : s.Lawful) (hs : s.runnable = r :: rs) :
    (∀ x ∈ r.tasks.tail, x.isResume = false) ∧
      ∀ u ∈ { s with runnable := rs }.everyone, u.thread ≠ r.thread :=
  ⟨h.tails r ((everyone_perm_of_runnable hs).symm.subset List.mem_cons_self),
    thread_ne_of_runnable h.nodup hs⟩

/-- A gate that cannot see the first runner sees the same crowd without it. -/
theorem crowdAt_of_unseen (hs : s.runnable = r :: rs) (hr : r.seen (Wait.visitor? i) = none) :
    { s with runnable := rs }.crowdAt i = s.crowdAt i :=
  crowdAt_congr rfl rfl (by simp [wokenSeen, hs, hr]) rfl

/-- An event that cannot see the first runner sees the same crowd without it. -/
theorem crowdAtEvent_of_unseen (hs : s.runnable = r :: rs)
    (hr : r.seen (Wait.guest? i) = none) :
    { s with runnable := rs }.crowdAtEvent i = s.crowdAtEvent i :=
  crowdAtEvent_congr rfl rfl (by simp [wokenSeen, hs, hr]) rfl

theorem unseen_of_not_resume {β : Type} (see : ThreadId → Wait → Option β)
    (h : ∀ c wait, task = .resume c wait → see t wait = none) :
    Runner.seen see ⟨t, task :: rest⟩ = none := by
  cases task with
  | resume c wait => exact h c wait rfl
  | start c => rfl
  | release c hold gate => rfl

/-- The crowd at a gate can come about after a segment of the first runner. -/
theorem Lawful.reachable_crowdAt (h : s.Lawful) (hs : s.runnable = ⟨t, task :: rest⟩ :: rs)
    {g : Gate} (hg : s.world.gates[i]? = some g) :
    (({ s with runnable := rs }.carryOut t task rest).crowdAt i).Reachable := by
  obtain ⟨hrest, hne⟩ := h.of_runnable hs
  have hreach := h.gates i g hg
  have hgate : (s.crowdAt i).gate = g := by simp [crowdAt, hg]
  rcases @crowdAt_carryOut { s with runnable := rs } t task rest i g hg hrest with
    ⟨segment, hat, hafter⟩ | ⟨hresume, hafter⟩
  · rcases hat.begin_or_resume with ⟨hr, r, rfl⟩ | ⟨c, waiting, rfl, rfl⟩
    · -- the first segment of a call, by a thread that was idle
      have hsame := crowdAt_of_unseen hs <| unseen_of_not_resume (Wait.visitor? i)
        fun c wait heq => absurd heq (Task.ne_resume hr c wait)
      have hidle : (s.crowdAt i).idle t = true := hsame ▸ idle_crowdAt hne
      have hbegin := hreach.begin hidle r
      rw [hgate] at hbegin
      rw [hafter, hsame]
      exact hbegin
    · -- a segment of a thread that had been woken
      have hwoken : (s.crowdAt i).woken =
          ⟨t, waiting⟩ :: ({ s with runnable := rs }.crowdAt i).woken := by
        simp [crowdAt, wokenSeen, hs, Runner.seen, Wait.visitor?]
      have hresumed := hreach.resume hwoken
      rw [hgate] at hresumed
      rw [hafter]
      exact hresumed
  · rw [hafter, crowdAt_of_unseen hs (unseen_of_not_resume (Wait.visitor? i) _)]
    · exact hreach
    · rintro c wait rfl
      cases wait with
      | event j deadline => rfl
      | gate j waiting =>
          have hj : j ≠ i := by
            rintro rfl
            exact hresume c waiting rfl
          simp [Wait.visitor?, hj]

/-- The crowd at an event can come about after a segment of the first runner. -/
theorem Lawful.reachable_crowdAtEvent (h : s.Lawful) (hs : s.runnable = ⟨t, task :: rest⟩ :: rs)
    {e : Event} (he : s.world.events[i]? = some e) :
    (({ s with runnable := rs }.carryOut t task rest).crowdAtEvent i).Reachable := by
  obtain ⟨hrest, hne⟩ := h.of_runnable hs
  have hreach := h.events i e he
  rcases @crowdAtEvent_carryOut { s with runnable := rs } t task rest i e he hrest with
    ⟨deadline, hat, hafter⟩ | ⟨hresume, hafter⟩
  · rcases hat.begin_or_resume with ⟨hr, limit, hd⟩ | ⟨c, rfl⟩
    · -- the first segment of a wait, by a thread that was idle
      have hsame := crowdAtEvent_of_unseen hs <| unseen_of_not_resume (Wait.guest? i)
        fun c wait heq => absurd heq (Task.ne_resume hr c wait)
      have hidle : (s.crowdAtEvent i).idle t = true := hsame ▸ idle_crowdAtEvent hne
      have hlimit : (s.crowdAtEvent i).deadline? limit = some deadline := by
        rw [← hd]
        cases limit <;> rfl
      rw [hafter, hsame]
      exact hreach.wait hidle hlimit
    · -- a look of a thread that had been woken
      have hwoken : (s.crowdAtEvent i).woken =
          ⟨t, deadline⟩ :: ({ s with runnable := rs }.crowdAtEvent i).woken := by
        simp [crowdAtEvent, wokenSeen, hs, Runner.seen, Wait.guest?]
      rw [hafter]
      exact hreach.resume hwoken
  · have hunseen : ∀ c wait, task = .resume c wait → wait.guest? i t = none := by
      rintro c wait rfl
      cases wait with
      | gate j waiting => rfl
      | event j deadline =>
          have hj : j ≠ i := by
            rintro rfl
            exact hresume c deadline rfl
          simp [Wait.guest?, hj]
    rw [crowdAtEvent_of_unseen hs (unseen_of_not_resume (Wait.guest? i) hunseen)] at hafter
    exact hreach.signalled hafter

/-- A segment of the first runner keeps a system lawful. -/
theorem Lawful.carryOut (h : s.Lawful) (hs : s.runnable = ⟨t, task :: rest⟩ :: rs) :
    ({ s with runnable := rs }.carryOut t task rest).Lawful := by
  obtain ⟨hrest, -⟩ := h.of_runnable hs
  have hbefore := everyone_perm_of_runnable hs
  have hafter := everyone_carryOut { s with runnable := rs } t task rest
  have heff := task.attempt_effect t s.world
  have hworld := world_carryOut { s with runnable := rs } t task rest
  refine ⟨nodup_carryOut h.nodup hs, ?_, ?_, ?_⟩
  · intro r hr x hx
    rcases List.mem_cons.1 (hafter.subset hr) with rfl | hr
    · exact isResume_of_mem_tail_afterwards hrest hx
    · exact h.tails r (hbefore.symm.subset (List.mem_cons_of_mem _ hr)) x hx
  · intro i g' hg'
    have hlt := (List.getElem?_eq_some_iff.1 hg').1
    rw [hworld, heff.length_gates] at hlt
    exact h.reachable_crowdAt hs (List.getElem?_eq_getElem hlt)
  · intro i e' he'
    have hlt := (List.getElem?_eq_some_iff.1 he').1
    rw [hworld, heff.length_events] at hlt
    exact h.reachable_crowdAtEvent hs (List.getElem?_eq_getElem hlt)

/-- **A turn keeps a system lawful.** -/
theorem Lawful.turn (h : s.Lawful) : s.turn.Lawful := by
  unfold System.turn
  split
  · exact h
  · -- a runner that has nothing left to do leaves
    rename_i t rs hs
    have hunseen : ∀ {β : Type} (see : ThreadId → Wait → Option β),
        Runner.seen see ⟨t, []⟩ = none := fun _ => rfl
    have hp := everyone_perm_of_runnable hs
    have hsub : ∀ u ∈ { s with runnable := rs }.everyone, u ∈ s.everyone :=
      fun u hu => hp.symm.subset (List.mem_cons_of_mem _ hu)
    refine ⟨?_, fun u hu => h.tails u (hsub u hu), fun i g hg => ?_, fun i e he => ?_⟩
    · have hnodup := (hp.map Runner.thread).nodup_iff.1 h.nodup
      exact (List.nodup_cons.1 hnodup).2
    · rw [crowdAt_of_unseen hs (hunseen _)]
      exact h.gates i g hg
    · rw [crowdAtEvent_of_unseen hs (hunseen _)]
      exact h.events i e he
  · rename_i t task rest rs hs
    exact h.carryOut hs

/-- **A system comes to rest lawful** if it was. -/
theorem Lawful.settle (h : s.Lawful) : s.settle.Lawful := by
  fun_induction System.settle s with
  | case1 s _ => exact h
  | case2 s _ ih => exact ih h.turn

/-! ### The clock -/

section Awake

variable {before after : List Sleeper} {p : Due}

/-- What is seen of a system before and after a sleeper was woken by the clock. -/
theorem seen_awake {β : Type} (see : ThreadId → Wait → Option β) (hs : s.runnable = [])
    (hp : s.parked = before ++ p.sleeper :: after) (ho : p.others = before ++ after) :
    s.parkedSeen see = before.filterMap (·.seen see) ++
        ((p.sleeper.seen see).toList ++ after.filterMap (·.seen see)) ∧
      (s.awake p).parkedSeen see =
        before.filterMap (·.seen see) ++ after.filterMap (·.seen see) ∧
      s.wokenSeen see = [] ∧ (s.awake p).wokenSeen see = (p.sleeper.seen see).toList := by
  have hseen : p.sleeper.wake.seen see = p.sleeper.seen see := rfl
  refine ⟨?_, ?_, ?_, ?_⟩
  · simp only [parkedSeen, hp, List.filterMap_append, List.filterMap_cons]
    cases p.sleeper.seen see <;> rfl
  · simp only [parkedSeen, awake, ho, List.filterMap_append]
  · simp only [wokenSeen, hs, List.filterMap_nil]
  · simp only [wokenSeen, awake, hs, List.filterMap_cons, List.filterMap_nil, hseen]
    cases p.sleeper.seen see <;> rfl

/-- Nobody who is seen before a sleeper is the same thread. -/
theorem Lawful.thread_ne_of_before {β : Type} {see : ThreadId → Wait → Option β}
    {thread : β → ThreadId} (h : s.Lawful) (hs : s.runnable = [])
    (hp : s.parked = before ++ p.sleeper :: after)
    (hsee : ∀ t wait b, see t wait = some b → thread b = t) {v : β}
    (hv : p.sleeper.seen see = some v) :
    ∀ u ∈ before.filterMap (·.seen see), thread u ≠ thread v := by
  intro u hu heq
  obtain ⟨z, hz, hzu⟩ := List.mem_filterMap.1 hu
  have hthread : z.thread = p.sleeper.thread :=
    (hsee _ _ _ hzu).symm.trans (heq.trans (hsee _ _ _ hv))
  have hnodup := h.nodup
  simp only [everyone, hp, hs, List.map_append, List.map_cons, List.append_nil,
    List.map_map] at hnodup
  exact (List.nodup_append.1 hnodup).2.2 z.thread (List.mem_map_of_mem hz)
    p.sleeper.thread List.mem_cons_self hthread

/-- **A sleeper that is woken by the clock at rest keeps a system lawful.** -/
theorem Lawful.awake (h : s.Lawful) (hs : s.runnable = [])
    (hp : s.parked = before ++ p.sleeper :: after) (ho : p.others = before ++ after) :
    (s.awake p).Lawful := by
  have hall := everyone_awake hp ho
  refine ⟨(hall.map Runner.thread).nodup_iff.2 h.nodup,
    fun r hr => h.tails r (hall.subset hr), fun i g hg => ?_, fun i e he => ?_⟩
  · obtain ⟨hparked, hparked', hwoken, hwoken'⟩ := seen_awake (Wait.visitor? i) hs hp ho
    have huntil := (h.gates i g hg).until p.deadline
    cases hv : p.sleeper.seen (Wait.visitor? i) with
    | none =>
        have hsame : (s.awake p).crowdAt i =
            { s.crowdAt i with clock := max (s.crowdAt i).clock p.deadline } := by
          simp [crowdAt, hparked, hparked', hwoken, hwoken', hv]
        rw [hsame]
        exact huntil
    | some v =>
        rw [hv] at hparked hwoken'
        have hroused := huntil.rouse (v := v) hparked
          (h.thread_ne_of_before hs hp (fun t wait b hb => Wait.thread_of_visitor? hb) hv)
        simpa [crowdAt, hparked', hwoken, hwoken'] using hroused
  · obtain ⟨hparked, hparked', hwoken, hwoken'⟩ := seen_awake (Wait.guest? i) hs hp ho
    have huntil := (h.events i e he).until p.deadline
    cases hv : p.sleeper.seen (Wait.guest? i) with
    | none =>
        have hsame : (s.awake p).crowdAtEvent i =
            { s.crowdAtEvent i with clock := max (s.crowdAtEvent i).clock p.deadline } := by
          simp [crowdAtEvent, hparked, hparked', hwoken, hwoken', hv]
        rw [hsame]
        exact huntil
    | some v =>
        rw [hv] at hparked hwoken'
        have hroused := huntil.rouse (v := v) hparked
          (h.thread_ne_of_before hs hp (fun t wait b hb => Wait.thread_of_guest? hb) hv)
        simpa [crowdAtEvent, hparked', hwoken, hwoken'] using hroused

end Awake

theorem clock_turn (s : System) : s.turn.world.clock = s.world.clock := by
  unfold turn
  split
  · rfl
  · rfl
  · rename_i t task rest rs _
    rw [world_carryOut]
    exact (task.attempt_effect t s.world).clock_eq

/-- The clock stands still until everything has come to rest. -/
theorem clock_settle (s : System) : s.settle.world.clock = s.world.clock := by
  fun_induction settle s with
  | case1 s _ => rfl
  | case2 s _ ih => exact ih.trans (clock_turn s)

/-- The clock has moved to a deadline and everything has come to rest again. -/
theorem Lawful.settle_rouse {target : Nat} {p : Due} (h : s.Lawful) (hs : s.runnable = [])
    (hp : popDue target s.parked = some p) : (s.rouse p).settle.Lawful := by
  obtain ⟨before, after, hparked, hearliest⟩ := popDue_eq_some_iff.1 hp
  rw [rouse_eq_turn]
  exact (h.awake hs hparked hearliest.others).turn.settle

theorem clock_settle_rouse (s : System) (p : Due) :
    (s.rouse p).settle.world.clock = max s.world.clock p.deadline := by
  rw [clock_settle, rouse_eq_turn, clock_turn, clock_awake]

theorem clock_settle_rouse_le {target : Nat} {p : Due} (hp : popDue target s.parked = some p)
    (hle : s.world.clock ≤ target) : (s.rouse p).settle.world.clock ≤ target := by
  obtain ⟨before, after, -, hearliest⟩ := popDue_eq_some_iff.1 hp
  rw [clock_settle_rouse]
  exact max_le hle hearliest.le_target

/-- **Moving the clock keeps a system lawful.** -/
theorem Lawful.advance {target : Nat} (h : s.Lawful) (hs : s.runnable = [])
    (hle : s.world.clock ≤ target) : (s.advance target).Lawful := by
  fun_induction System.advance s target with
  | case1 s hp =>
      have htarget : max s.world.clock target = target := max_eq_right hle
      refine ⟨h.nodup, h.tails, fun i g hg => ?_, fun i e he => ?_⟩
      · have huntil := (h.gates i g hg).until target
        simp only [crowdAt, htarget] at huntil
        exact huntil
      · have huntil := (h.events i e he).until target
        simp only [crowdAtEvent, htarget] at huntil
        exact huntil
  | case2 s p hp ih =>
      exact ih (h.settle_rouse hs hp) (runnable_settle _) (clock_settle_rouse_le hp hle)

/-! ### Steps -/

theorem lawful_fresh (gates events : Nat) (silent : Bool) :
    (fresh gates events silent).Lawful := by
  refine ⟨List.nodup_nil, by simp [fresh, everyone], fun i g hg => ?_, fun i e he => ?_⟩
  · obtain rfl : g = {} := (List.mem_replicate.1 (List.mem_of_getElem? hg)).2
    have hcrowd : (fresh gates events silent).crowdAt i = {} := by
      simp only [crowdAt, hg]
      rfl
    exact hcrowd ▸ ⟨[], [], rfl⟩
  · obtain rfl : e = {} := (List.mem_replicate.1 (List.mem_of_getElem? he)).2
    have hcrowd : (fresh gates events silent).crowdAtEvent i = {} := by
      simp only [crowdAtEvent, he]
      rfl
    exact hcrowd ▸ ⟨[], [], rfl⟩

/-- A thread that is not parked may start calls when everything is at rest. -/
theorem Lawful.enlist (h : s.Lawful) (hs : s.runnable = []) (ht : s.isParked t = false)
    (calls : List Call) :
    (s.enlist t calls).Lawful := by
  have hstart : ∀ x ∈ calls.map Task.start, x.isResume = false := by
    intro x hx
    obtain ⟨c, -, rfl⟩ := List.mem_map.1 hx
    rfl
  have hunseen : ∀ {β : Type} (see : ThreadId → Wait → Option β),
      Runner.seen see ⟨t, calls.map .start⟩ = none :=
    fun see => Runner.seen_eq_none see hstart
  have hne := thread_ne_of_not_parked hs ht
  refine ⟨nodup_enlist h.nodup hne calls, fun r hr x hx => ?_, fun i g hg => ?_, fun i e he => ?_⟩
  · rw [everyone_enlist] at hr
    rcases List.mem_append.1 hr with hr | hr
    · exact h.tails r hr x hx
    · rw [List.mem_singleton.1 hr] at hx
      exact hstart x (List.mem_of_mem_tail hx)
  · have hsame : (s.enlist t calls).crowdAt i = s.crowdAt i :=
      crowdAt_congr rfl rfl (by simp [System.enlist, wokenSeen, hunseen]) rfl
    exact hsame ▸ h.gates i g hg
  · have hsame : (s.enlist t calls).crowdAtEvent i = s.crowdAtEvent i :=
      crowdAtEvent_congr rfl rfl (by simp [System.enlist, wokenSeen, hunseen]) rfl
    exact hsame ▸ h.events i e he

/-- What the journal says plays no part. -/
theorem Lawful.clear (h : s.Lawful) : s.clear.Lawful := ⟨h.nodup, h.tails, h.gates, h.events⟩

/-- **A step keeps a system lawful.** -/
theorem Lawful.take (h : s.Lawful) (hs : s.runnable = []) (step : Step) :
    (s.take step).1.Lawful := by
  cases step with
  | advance ns => exact h.clear.advance hs (Nat.le_add_right ..)
  | perform t calls =>
      cases ht : s.isParked t with
      | true =>
          rw [take_of_parked ht]
          exact h.clear
      | false =>
          rw [take_of_not_parked ht]
          exact (h.clear.enlist hs ht calls).settle

/-! ### At rest -/

/-- **At rest nobody is parked for something that is the case.** -/
theorem Lawful.not_ready {z : Sleeper} (h : s.Lawful) (hs : s.runnable = []) (hz : z ∈ s.parked) :
    ¬z.wait.Ready s.world := by
  intro hready
  obtain ⟨t, c, wait, rest⟩ := z
  cases wait with
  | gate i waiting =>
      obtain ⟨g, hg, hready⟩ := hready
      have hmem : (⟨t, waiting⟩ : Gate.Visitor) ∈ (s.crowdAt i).parked :=
        List.mem_filterMap.2 ⟨_, hz, by simp [Sleeper.seen, Wait.visitor?]⟩
      have hparked := (h.gates i g hg).orderly.parked _ hmem
      simp only [crowdAt, hg, Option.getD_some, hready] at hparked
      cases hparked
  | event i deadline =>
      obtain ⟨e, he, hset⟩ := hready
      have hmem : (⟨t, deadline⟩ : Event.Visitor) ∈ (s.crowdAtEvent i).parked :=
        List.mem_filterMap.2 ⟨_, hz, by simp [Sleeper.seen, Wait.guest?]⟩
      have hwoken : (s.crowdAtEvent i).woken = [] := by simp [crowdAtEvent, wokenSeen, hs]
      have hnobody := (h.events i e he).alert.parked_eq_nil hwoken
        (by simp [crowdAtEvent, he, hset])
      rw [hnobody] at hmem
      cases hmem

end System

end ReentrantGate.Script
