/-
**A system as its places see it.**

Everybody in a system is a sleeper or a runner, and waking somebody or carrying out a segment makes
nobody come or go.  From any one place only some of them can be seen: those that are parked there,
and those that were woken from there and have not gone on yet.  A notice for another place changes
nothing that can be seen from this one.

Main definitions:

* `Script.System.parkedSeen`, `Script.System.wokenSeen` — the sleepers and the runners that can be
  seen from a place.

Main results:

* `Script.System.everyone_carryOut` — **a segment changes what its thread has to do**, and nobody
  comes or goes;
* `Script.System.seen_carryOut_park`, `Script.System.seen_carryOut_done` — what is seen of a
  segment;
* `Script.System.seen_carryOut_of_apart` — nothing is seen of a segment that is over elsewhere.
-/

import Mathlib.Data.List.Perm.Basic
import ReentrantGate.Proofs.Script.Effect
import ReentrantGate.Script.Labels
import ReentrantGate.Script.Moments

set_option relaxedAutoImplicit false
set_option autoImplicit false

namespace ReentrantGate.Script

/-! ### Everybody in a system -/

/-- A notice for one thread takes it out of the middle of the sleepers, if there is one for it. -/
theorem Notice.one_cases (p : Place) (zs : List Sleeper) :
    (∀ z ∈ zs, z.isAt p = false) ∧ left zs (one p) = zs ∧ woken zs (one p) = [] ∨
      ∃ as z bs, zs = as ++ z :: bs ∧ (∀ y ∈ as, y.isAt p = false) ∧ z.isAt p = true ∧
        left zs (one p) = as ++ bs ∧ woken zs (one p) = [z] := by
  simp only [left, woken]
  cases hf : zs.find? (·.isAt p) with
  | none =>
      have hnone : ∀ z ∈ zs, ¬z.isAt p = true := List.find?_eq_none.1 hf
      refine .inl ⟨fun z hz => by simpa using hnone z hz, ?_, rfl⟩
      exact List.eraseP_of_forall_not hnone
  | some z =>
      obtain ⟨hz, as, bs, rfl, has⟩ := List.find?_eq_some_iff_append.1 hf
      refine .inr ⟨as, z, bs, rfl, by simpa using has, hz, ?_, rfl⟩
      rw [List.eraseP_append_right _ (by simpa using has), List.eraseP_cons_of_pos hz]

theorem Notice.left_append_woken_perm (n : Notice) (zs : List Sleeper) :
    (n.left zs ++ n.woken zs).Perm zs := by
  cases n with
  | all p =>
      have hperm := List.filter_append_perm (fun z : Sleeper => !z.isAt p) zs
      simp only [Bool.not_not] at hperm
      exact hperm
  | one p =>
      rcases one_cases p zs with ⟨-, hleft, hwoken⟩ | ⟨as, z, bs, rfl, -, -, hleft, hwoken⟩
      · rw [hleft, hwoken, List.append_nil]
      · rw [hleft, hwoken, List.append_assoc]
        exact List.Perm.append_left as (List.perm_append_singleton z bs)

namespace System

variable {s : System} {t : ThreadId} {task : Task} {rest : List Task}

/-- Nobody comes or goes when somebody is woken. -/
theorem everyone_heed (s : System) (n : Notice) : (s.heed n).everyone.Perm s.everyone := by
  have hperm := (n.left_append_woken_perm s.parked).map Sleeper.wake
  rw [List.map_append] at hperm
  simp only [everyone, heed]
  refine (List.Perm.append_left _ List.perm_append_comm).trans ?_
  rw [← List.append_assoc]
  exact hperm.append_right s.runnable

theorem everyone_notify (s : System) (ns : List Notice) :
    (s.notify ns).everyone.Perm s.everyone := by
  induction ns generalizing s with
  | nil => exact List.Perm.refl _
  | cons n ns ih => exact (ih (s.heed n)).trans (everyone_heed s n)

/-- What `t` still has to do after a segment: to resume a call, or what follows its task. -/
def afterwards (task : Task) (rest : List Task) : Segment → List Task
  | .park _ c wait => .resume c wait :: rest
  | .done _ _ follow => task.follow follow ++ rest

theorem afterwards_nothing (task : Task) (rest : List Task) (w : World) (ns : List Notice) :
    afterwards task rest (.done w ns .nothing) = rest := by
  rw [afterwards, task.follow_nothing, List.nil_append]

/-- **A segment changes what its thread has to do**, and nobody else comes or goes. -/
theorem everyone_carryOut (s : System) (t : ThreadId) (task : Task) (rest : List Task) :
    (s.carryOut t task rest).everyone.Perm
      (⟨t, afterwards task rest (task.attempt t s.world)⟩ :: s.everyone) := by
  unfold carryOut
  cases task.attempt t s.world with
  | park w c wait =>
      simp only [everyone, List.map_append, List.append_assoc]
      exact List.perm_middle
  | done w ns follow =>
      have hperm := everyone_notify { s with world := w } ns
      exact List.perm_middle.trans (hperm.cons ⟨t, task.follow follow ++ rest⟩)

/-- The first runner stands out from the others. -/
theorem everyone_perm_of_runnable {r : Runner} {rs : List Runner} (hs : s.runnable = r :: rs) :
    s.everyone.Perm (r :: { s with runnable := rs }.everyone) := by
  simp only [everyone, hs]
  exact List.perm_middle

/-- Nobody comes or goes when a sleeper is woken by the clock. -/
theorem everyone_awake {p : Due} {before after : List Sleeper}
    (hp : s.parked = before ++ p.sleeper :: after) (ho : p.others = before ++ after) :
    (s.awake p).everyone.Perm s.everyone := by
  simp only [everyone, awake, hp, ho, List.map_append, List.map_cons, List.append_assoc]
  exact List.Perm.append_left _ List.perm_middle

theorem everyone_enlist (s : System) (t : ThreadId) (calls : List Call) :
    (s.enlist t calls).everyone = s.everyone ++ [⟨t, calls.map .start⟩] := by
  simp only [everyone, System.enlist, List.append_assoc]

/-- At rest a thread that is not parked is nowhere in the system. -/
theorem thread_ne_of_not_parked (hs : s.runnable = []) (ht : s.isParked t = false) :
    ∀ r ∈ s.everyone, r.thread ≠ t := by
  simpa [everyone, hs, isParked, Sleeper.wake] using ht

theorem world_notify (s : System) (ns : List Notice) : (s.notify ns).world = s.world := by
  induction ns generalizing s with
  | nil => rfl
  | cons n ns ih => exact ih (s.heed n)

theorem world_carryOut (s : System) (t : ThreadId) (task : Task) (rest : List Task) :
    (s.carryOut t task rest).world = (task.attempt t s.world).world := by
  unfold carryOut
  split
  · rename_i h
    rw [h]
    rfl
  · rename_i w ns follow h
    rw [h]
    exact world_notify { s with world := w } ns

/-! ### Turns of the first runner -/

section FirstRunner

variable {rs : List Runner} {w : World}

theorem turn_of_nil (hs : s.runnable = ⟨t, []⟩ :: rs) : s.turn = { s with runnable := rs } := by
  simp only [turn, hs]

theorem turn_of_cons (hs : s.runnable = ⟨t, task :: rest⟩ :: rs) :
    s.turn = { s with runnable := rs }.carryOut t task rest := by
  simp only [turn, hs]

theorem turn_of_park {c : Call} {wait : Wait} (hs : s.runnable = ⟨t, task :: rest⟩ :: rs)
    (h : task.attempt t s.world = .park w c wait) :
    s.turn = ⟨w, s.parked ++ [⟨t, c, wait, rest⟩], rs⟩ := by
  simp only [turn_of_cons hs, carryOut, h]

theorem runnable_carryOut_done (rest : List Task) {ns : List Notice} {follow : Follow}
    (h : task.attempt t s.world = .done w ns follow) : (s.carryOut t task rest).runnable =
      ⟨t, task.follow follow ++ rest⟩ :: ({ s with world := w }.notify ns).runnable := by
  simp only [carryOut, h]

/-- After a turn there is nobody who was not there, but the first runner has something else to
do. -/
theorem mem_everyone_turn {tasks : List Task} {r : Runner} (hs : s.runnable = ⟨t, tasks⟩ :: rs)
    (hr : r ∈ s.turn.everyone) :
    (∃ task rest, tasks = task :: rest ∧
        r = ⟨t, afterwards task rest (task.attempt t s.world)⟩) ∨ r ∈ s.everyone := by
  have hothers : ∀ u ∈ { s with runnable := rs }.everyone, u ∈ s.everyone := fun u hu =>
    (everyone_perm_of_runnable hs).symm.subset (List.mem_cons_of_mem _ hu)
  cases tasks with
  | nil =>
      rw [turn_of_nil hs] at hr
      exact .inr (hothers r hr)
  | cons task rest =>
      rw [turn_of_cons hs] at hr
      rcases List.mem_cons.1 ((everyone_carryOut _ t task rest).subset hr) with rfl | hr
      · exact .inl ⟨task, rest, rfl, rfl⟩
      · exact .inr (hothers r hr)

end FirstRunner

end System

/-! ### What is seen from one place -/

section Seen

variable {β : Type} (see : ThreadId → Wait → Option β)

/-- What can be seen of a sleeper. -/
def Sleeper.seen (z : Sleeper) : Option β := see z.thread z.wait

/-- What can be seen of a runner: it may have been woken and go on with a call. -/
def Runner.seen (r : Runner) : Option β :=
  match r.tasks with
  | .resume _ wait :: _ => see r.thread wait
  | _ => none

theorem Runner.seen_eq_none {r : Runner} (h : ∀ task ∈ r.tasks, task.isResume = false) :
    r.seen see = none := by
  obtain ⟨t, tasks⟩ := r
  cases tasks with
  | nil => rfl
  | cons task tasks =>
      have htask := h task List.mem_cons_self
      cases task with
      | resume c wait => cases htask
      | start c => rfl
      | release c hold gate => rfl

namespace System

/-- What can be seen of those who are parked. -/
def parkedSeen (s : System) : List β := s.parked.filterMap (·.seen see)

/-- What can be seen of those who have been woken. -/
def wokenSeen (s : System) : List β := s.runnable.filterMap (·.seen see)

/-- Whoever can be seen is one of the threads. -/
theorem exists_of_mem_seen {s : System} {b : β}
    (h : b ∈ s.parkedSeen see ++ s.wokenSeen see) :
    ∃ r ∈ s.everyone, ∃ wait, see r.thread wait = some b := by
  rcases List.mem_append.1 h with h | h
  · obtain ⟨z, hz, hb⟩ := List.mem_filterMap.1 h
    exact ⟨z.wake, List.mem_append_left _ (List.mem_map_of_mem hz), z.wait, hb⟩
  · obtain ⟨r, hr, hb⟩ := List.mem_filterMap.1 h
    refine ⟨r, List.mem_append_right _ hr, ?_⟩
    obtain ⟨t, tasks⟩ := r
    simp only [Runner.seen] at hb
    split at hb
    · exact ⟨_, hb⟩
    · cases hb

theorem parkedSeen_heed (s : System) (n : Notice) :
    (s.heed n).parkedSeen see = (n.left s.parked).filterMap (·.seen see) := rfl

theorem wokenSeen_heed (s : System) (n : Notice) :
    (s.heed n).wokenSeen see = s.wokenSeen see ++ (n.woken s.parked).filterMap (·.seen see) := by
  simp only [wokenSeen, heed, List.filterMap_append, List.filterMap_map]
  rfl

end System

/-- Sleepers can be picked by what is seen of them. -/
theorem Sleeper.filterMap_filter_seen {p : Sleeper → Bool} {q : β → Bool}
    (h : ∀ z b, z.seen see = some b → p z = q b) (zs : List Sleeper) :
    (zs.filter p).filterMap (·.seen see) = (zs.filterMap (·.seen see)).filter q := by
  rw [List.filterMap_filter, List.filter_filterMap]
  refine List.filterMap_congr fun z _ => ?_
  cases hz : z.seen see with
  | none => simp
  | some b =>
      rw [h z b hz, Option.filter_some]

/-- The place that a notice is for. -/
def Notice.place : Notice → Place
  | all p => p
  | one p => p

/-- A notice for another place changes nothing that can be seen. -/
theorem Notice.seen_of_apart {n : Notice}
    (h : ∀ z : Sleeper, z.isAt n.place = true → z.seen see = none) (zs : List Sleeper) :
    (n.left zs).filterMap (·.seen see) = zs.filterMap (·.seen see) ∧
      (n.woken zs).filterMap (·.seen see) = [] := by
  cases n with
  | all p =>
      refine ⟨?_, List.filterMap_eq_nil_iff.2 fun z hz => h z (List.mem_filter.1 hz).2⟩
      simp only [left, List.filterMap_filter]
      refine List.filterMap_congr fun z _ => ?_
      cases hz : z.isAt p with
      | true => exact (h z hz).symm
      | false => rfl
  | one p =>
      rcases one_cases p zs with ⟨-, hleft, hwoken⟩ | ⟨as, z, bs, rfl, -, hz, hleft, hwoken⟩
      · rw [hleft, hwoken]
        exact ⟨rfl, rfl⟩
      · have hnone := h z hz
        rw [hleft, hwoken]
        simp [hnone]

namespace System

theorem seen_notify_of_apart {ns : List Notice}
    (h : ∀ n ∈ ns, ∀ z : Sleeper, z.isAt n.place = true → z.seen see = none) (s : System) :
    (s.notify ns).parkedSeen see = s.parkedSeen see ∧
      (s.notify ns).wokenSeen see = s.wokenSeen see := by
  induction ns generalizing s with
  | nil => exact ⟨rfl, rfl⟩
  | cons n ns ih =>
      obtain ⟨hleft, hwoken⟩ := Notice.seen_of_apart see (h n List.mem_cons_self) s.parked
      obtain ⟨hp, hw⟩ := ih (fun m hm => h m (List.mem_cons_of_mem _ hm)) (s.heed n)
      rw [parkedSeen_heed, hleft] at hp
      rw [wokenSeen_heed, hwoken, List.append_nil] at hw
      exact ⟨hp, hw⟩

end System

end Seen

/-- The body of a call starts calls and releases its guard. -/
theorem Task.isResume_of_mem_ofBody {c : Call} {x : Task} (h : x ∈ ofBody c) :
    x.isResume = false := by
  cases c with
  | single site op => cases h
  | scope site hold timeout body panics =>
      rcases List.mem_append.1 h with h | h
      · obtain ⟨d, -, rfl⟩ := List.mem_map.1 h
        rfl
      · rw [List.mem_singleton.1 h]
        rfl

/-- What follows a task starts calls and releases guards. -/
theorem Task.isResume_of_mem_follow {task x : Task} {f : Follow} (h : x ∈ task.follow f) :
    x.isResume = false := by
  cases f with
  | nothing => cases task <;> cases h
  | body =>
      cases task with
      | start c => exact isResume_of_mem_ofBody h
      | resume c wait => exact isResume_of_mem_ofBody h
      | release c hold gate => cases h
  | release hold gate =>
      cases task with
      | release c hold' gate' => cases h
      | start c =>
          rw [List.mem_singleton.1 h]
          rfl
      | resume c wait =>
          rw [List.mem_singleton.1 h]
          rfl

namespace System

section CarryOut

variable {β : Type} (see : ThreadId → Wait → Option β) {s : System} {t : ThreadId} {task : Task}
  {rest : List Task} {w : World}

/-- A thread that parks can be seen among those who are parked. -/
theorem seen_carryOut_park {c : Call} {wait : Wait}
    (h : task.attempt t s.world = .park w c wait) (rest : List Task) :
    (s.carryOut t task rest).parkedSeen see = s.parkedSeen see ++ (see t wait).toList ∧
      (s.carryOut t task rest).wokenSeen see = s.wokenSeen see := by
  simp only [carryOut, h, parkedSeen, wokenSeen, List.filterMap_append, and_true]
  cases hsee : see t wait with
  | none => simp [Sleeper.seen, hsee]
  | some b => simp [Sleeper.seen, hsee]

/-- A thread that has finished its task cannot be seen. -/
theorem seen_carryOut_done {ns : List Notice} {f : Follow}
    (h : task.attempt t s.world = .done w ns f) (hrest : ∀ x ∈ rest, x.isResume = false) :
    (s.carryOut t task rest).parkedSeen see =
        ({ s with world := w }.notify ns).parkedSeen see ∧
      (s.carryOut t task rest).wokenSeen see =
        ({ s with world := w }.notify ns).wokenSeen see := by
  have hnone : Runner.seen see ⟨t, task.follow f ++ rest⟩ = none := by
    refine Runner.seen_eq_none see fun x hx => ?_
    rcases List.mem_append.1 hx with hx | hx
    · exact Task.isResume_of_mem_follow hx
    · exact hrest x hx
  simp only [carryOut, h, parkedSeen, wokenSeen, List.filterMap_cons, hnone, and_self]

/-- What a segment that is over does by its notices, it does not do to those who are elsewhere. -/
theorem seen_carryOut_of_apart {ns : List Notice} {f : Follow}
    (h : task.attempt t s.world = .done w ns f) (hrest : ∀ x ∈ rest, x.isResume = false)
    (hns : ∀ n ∈ ns, ∀ z : Sleeper, z.isAt n.place = true → z.seen see = none) :
    (s.carryOut t task rest).parkedSeen see = s.parkedSeen see ∧
      (s.carryOut t task rest).wokenSeen see = s.wokenSeen see := by
  obtain ⟨hp, hw⟩ := seen_carryOut_done see h hrest
  obtain ⟨hp', hw'⟩ := seen_notify_of_apart see hns { s with world := w }
  exact ⟨hp.trans hp', hw.trans hw'⟩

end CarryOut

end System

end ReentrantGate.Script
