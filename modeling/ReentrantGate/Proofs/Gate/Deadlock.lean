/-
**The only deadlock is the upgrade deadlock.**

A parked thread waits for others: in `opened` for the closer to go, in `drained` for the threads
that are still inside.  A set of parked threads is deadlocked if its members wait for nobody outside
the set.  A thread that waits to enter holds nothing, and the closer is parked only while it drains,
so one pattern is left: a closer drains behind threads each of which has kept its entries while it
asks for the close itself.  Threads that leave before they close never come into it.

Main definitions:

* `Gate.Crowd.WaitsFor`, `Gate.Crowd.Deadlocked` — who waits for whom, and sets that wait for nobody
  else;
* `Gate.Crowd.UpgradeDeadlock` — a closer drains behind entries whose holders all want to close;
* `Gate.Crowd.upgradeFree` — nobody who is inside starts to close, in a whole run.

Main results:

* `Gate.Crowd.Orderly.exclusivity_of_inside` — whoever is inside and parked wants to close;
* `Gate.Crowd.Orderly.upgradeDeadlock` — **every deadlock is an upgrade deadlock**;
* `Gate.Crowd.run_outside` — without upgrades nobody who waits is inside;
* `Gate.Crowd.upgrade_is_only_deadlock` — **a crowd that is stuck waits for a release by an idle
  thread, or is in an upgrade deadlock**.
-/

import Mathlib.Logic.Relation
import ReentrantGate.Proofs.Gate.Exclusion
import ReentrantGate.Proofs.Gate.Wakeups

set_option relaxedAutoImplicit false
set_option autoImplicit false

namespace ReentrantGate.Gate

/-- A closer that waits is one that drains. -/
theorem Waiting.Fits.room_of_closer {w : Waiting} {g : Gate} {t : ThreadId} (hf : w.Fits g t)
    (hc : g.closer = some t) : w.room = .drained := by
  cases w with
  | entry timeout deadline => exact absurd hc hf.2
  | exclusivity deadline => exact absurd hc hf
  | drain deadline => rfl

/-- A segment in which a thread parks leaves it outside, unless it was inside and wants to close. -/
theorem Move.depth_of_park {g g' : Gate} {t : ThreadId} {d : Bool} {hold : Hold} {w : Waiting}
    (m : Move t g d hold (.park g' w)) (h0 : hold = .close → g.depth t = 0) : g'.depth t = 0 := by
  cases m with
  | park _ hf _ =>
      cases w with
      | entry timeout deadline => exact hf.1
      | exclusivity deadline => exact h0 rfl
      | drain deadline => exact h0 rfl
  | drain _ _ => exact h0 rfl
  | stay _ _ _ => exact h0 rfl

namespace Crowd

variable {c c' : Crowd} {a : Action} {o : Option Occurrence} {t u : ThreadId} {v : Visitor}

/-! ### Who waits for whom -/

/-- Thread `t` is parked until `u` gives something up: the close, or the entries that `u` has. -/
inductive WaitsFor (c : Crowd) (t u : ThreadId) : Prop
  | close {v : Visitor} : v ∈ c.parked → v.thread = t → v.waiting.room = .opened →
      c.gate.closer = some u → WaitsFor c t u
  | entries {v : Visitor} : v ∈ c.parked → v.thread = t → v.waiting.room = .drained → u ≠ t →
      0 < c.gate.depth u → WaitsFor c t u

/-- A set of threads that are all parked and wait for nobody outside the set. -/
structure Deadlocked (c : Crowd) (S : Set ThreadId) : Prop where
  nonempty : S.Nonempty
  parked : ∀ t ∈ S, ∃ v ∈ c.parked, v.thread = t
  closed : ∀ t ∈ S, ∀ u, c.WaitsFor t u → u ∈ S

/-- A closer is parked until others leave, there are some, and they are all parked until the closer
goes, since they want to close while they are inside. -/
def UpgradeDeadlock (c : Crowd) : Prop :=
  ∃ v ∈ c.parked, v.waiting.room = .drained ∧ c.gate.closer = some v.thread ∧
    (∃ u, u ≠ v.thread ∧ 0 < c.gate.depth u) ∧
    ∀ u, u ≠ v.thread → 0 < c.gate.depth u →
      ∃ x ∈ c.parked, x.thread = u ∧ ∃ deadline, x.waiting = .exclusivity deadline

/-! ### What holds threads up -/

/-- A thread that drains while it is parked is the closer. -/
theorem Orderly.closer_of_drained (h : c.Orderly) (hv : v ∈ c.parked)
    (hr : v.waiting.room = .drained) : c.gate.closer = some v.thread := by
  have hd : c.drains v.thread = true :=
    drains_iff.2 ⟨v, List.mem_append_left _ hv, rfl, decide_eq_true hr⟩
  exact (h.closer_of_drains hd).1

/-- Behind every parked thread there is a closer. -/
theorem Orderly.exists_closer_of_parked (h : c.Orderly) (hv : v ∈ c.parked) :
    ∃ t, c.gate.closer = some t := by
  cases hr : v.waiting.room with
  | opened =>
      obtain ⟨t, -, ht⟩ := h.exists_closer hv hr
      exact ⟨t, ht⟩
  | drained => exact ⟨v.thread, h.closer_of_drained hv hr⟩

/-- **Whoever is parked while it is inside wants to close**, unless it is the closer itself. -/
theorem Orderly.exclusivity_of_inside (h : c.Orderly) (hv : v ∈ c.parked)
    (hd : 0 < c.gate.depth v.thread) (hc : c.gate.closer ≠ some v.thread) :
    ∃ deadline, v.waiting = .exclusivity deadline := by
  have hf := h.fits v (List.mem_append_left _ hv)
  cases hw : v.waiting with
  | entry timeout deadline =>
      -- a fresh entry is made from outside
      rw [hw] at hf
      have h0 := hf.1
      omega
  | exclusivity deadline => exact ⟨deadline, rfl⟩
  | drain deadline =>
      rw [hw] at hf
      exact absurd hf.1 hc

/-- A closer that drains is parked behind the entries of somebody else. -/
theorem Orderly.exists_inside (h : c.Orderly) (hv : v ∈ c.parked)
    (hr : v.waiting.room = .drained) : ∃ u, u ≠ v.thread ∧ 0 < c.gate.depth u := by
  have hf := h.foreign_pos hv hr
  by_contra hno
  have h0 : c.gate.foreign = 0 := by
    refine (h.sound.foreign_eq_zero_iff (h.closer_of_drained hv hr)).2 fun u hu => ?_
    by_contra hd
    exact hno ⟨u, hu, Nat.pos_of_ne_zero hd⟩
  omega

/-- A thread that is not parked is idle, if nobody has been woken. -/
theorem idle_of_not_parked (hw : c.woken = []) (ht : ∀ v ∈ c.parked, v.thread ≠ t) :
    c.idle t = true := by
  rw [idle_iff]
  intro v hv
  rw [visitors, hw, List.append_nil] at hv
  exact ht v hv

/-! ### Every deadlock is an upgrade deadlock -/

/-- A deadlocked set has a member that drains. -/
theorem Orderly.exists_drained (h : c.Orderly) {S : Set ThreadId} (hS : c.Deadlocked S) :
    ∃ v ∈ c.parked, v.waiting.room = .drained ∧ v.thread ∈ S := by
  obtain ⟨t, ht⟩ := hS.nonempty
  obtain ⟨v, hv, rfl⟩ := hS.parked t ht
  cases hr : v.waiting.room with
  | drained => exact ⟨v, hv, hr, ht⟩
  | opened =>
      -- the closer is in the set too, and a closer is parked only to drain
      obtain ⟨u, -, hu⟩ := h.exists_closer hv hr
      have huS := hS.closed _ ht u (.close hv rfl hr hu)
      obtain ⟨x, hx, rfl⟩ := hS.parked u huS
      have hf := h.fits x (List.mem_append_left _ hx)
      exact ⟨x, hx, hf.room_of_closer hu, huS⟩

/-- **Every deadlock is an upgrade deadlock.** -/
theorem Orderly.upgradeDeadlock (h : c.Orderly) {S : Set ThreadId} (hS : c.Deadlocked S) :
    c.UpgradeDeadlock := by
  obtain ⟨v, hv, hr, hvS⟩ := h.exists_drained hS
  have hc := h.closer_of_drained hv hr
  refine ⟨v, hv, hr, hc, h.exists_inside hv hr, ?_⟩
  intro u hu hd
  have huS := hS.closed _ hvS u (.entries hv rfl hr hu hd)
  obtain ⟨x, hx, rfl⟩ := hS.parked u huS
  have hne : c.gate.closer ≠ some x.thread := by
    rw [hc]
    simpa using hu.symm
  exact ⟨x, hx, rfl, h.exclusivity_of_inside hx hd hne⟩

/-! ### Runs without upgrades -/

/-- Whether an action starts a close by a thread that is inside and not the closer. -/
def upgrades (c : Crowd) : Action → Bool
  | .call t (.close _) _ => 0 < c.gate.depth t && !c.gate.isCloser t
  | _ => false

/-- Whether nobody who is inside starts to close during a run, unless it is the closer already. -/
def upgradeFree (c : Crowd) : List Action → Bool
  | [] => true
  | a :: as =>
      !c.upgrades a &&
        match c.act a with
        | none => true
        | some (c', _) => upgradeFree c' as

/-- Nobody who is in the middle of a call is inside. -/
def Outside (c : Crowd) : Prop := ∀ v ∈ c.visitors, c.gate.depth v.thread = 0

/-- A segment of a thread that parks outside, if it parks, leaves everybody who waits outside. -/
theorem Outside.absorb {rest : Crowd} {d : Bool} {hold : Hold} {s : Segment} (hout : c.Outside)
    (h : c.Orderly) (hl : Leaves c t d rest) (m : Move t c.gate d hold s)
    (hpark : ∀ g w, s = .park g w → g.depth t = 0) : (rest.absorb t s).Outside := by
  intro v hv
  rw [gate_absorb]
  rcases mem_visitors_absorb.1 hv with hp | hv
  · obtain ⟨g, w, rfl, rfl⟩ := eq_of_mem_parks hp
    exact hpark g w rfl
  · obtain ⟨hv, hne⟩ := (hl.mem_iff v).1 hv
    rw [m.depth_of_ne h.sound hne]
    exact hout v hv

/-- A call that is no upgrade parks a thread only if it is outside. -/
theorem depth_of_begin_park {g g' : Gate} {w : Waiting} {now : Nat} {r : Request} (h : g.Sound)
    (hr : ∀ timeout, r = .close timeout → g.isCloser t = false → g.depth t = 0)
    (hs : begin t now r g = .park g' w) : g'.depth t = 0 := by
  have m : Move t g false r.hold (.park g' w) := hs ▸ begin_move h now r
  refine m.depth_of_park fun hhold => ?_
  cases r with
  | enter timeout => cases hhold
  | exit => cases hhold
  | reopen => exact absurd hs reopen_ne_park
  | close timeout =>
      -- the closer does not park when it closes once more
      have hc : g.isCloser t = false := by
        rw [Bool.eq_false_iff]
        intro hc
        simp [begin, close, hc] at hs
      exact hr timeout rfl hc

/-- **An action that is no upgrade keeps everybody who waits outside.** -/
theorem Outside.act (hout : c.Outside) (h : c.Orderly) (hu : c.upgrades a = false)
    (ha : c.act a = some (c', o)) : c'.Outside := by
  cases a with
  | call t r sinkFails =>
      simp only [Crowd.act] at ha
      split at ha
      · rename_i hi
        cases ha
        refine hout.absorb h (.of_idle hi) (begin_move h.sound _ r) fun g w hs => ?_
        refine depth_of_begin_park h.sound (fun timeout hr hc => ?_) hs
        subst hr
        simpa [upgrades, hc] using hu
      · cases ha
  | resume t sinkFails =>
      simp only [Crowd.act] at ha
      split at ha
      · cases ha
      · rename_i v hf
        cases ha
        obtain ⟨hv, rfl, hl⟩ := Leaves.of_find h.nodup hf
        have m := resume_move h.sound (h.fits v hv) c.clock
        refine hout.absorb h hl m fun g w hs => ?_
        rw [hs] at m
        exact m.depth_of_park fun _ => hout v hv
  | rouse t =>
      have hstep := act_step h ha
      cases hstep with
      | segment _ hactor _ _ => cases hactor
      | still _ hg hp _ =>
          intro v hv
          rw [hg]
          exact hout v (hp.mem_iff.1 hv)
  | tick ns =>
      cases ha
      exact hout

/-- **Without upgrades nobody who waits is inside**, at any moment of the run. -/
theorem run_outside {as : List Action} {c d : Crowd} {history : List Occurrence} (h : c.Orderly)
    (hout : c.Outside) (hu : c.upgradeFree as = true) (hr : c.run as = some (d, history)) :
    d.Outside := by
  induction as generalizing c history with
  | nil =>
      cases hr
      exact hout
  | cons a as ih =>
      obtain ⟨c', o, later, ha, hlater, -⟩ := run_cons_eq_some hr
      simp only [upgradeFree, ha, Bool.and_eq_true, Bool.not_eq_true'] at hu
      exact ih ((act_step h ha).orderly h) (hout.act h hu.1 ha) hu.2 hlater

/-- Nobody is deadlocked where nobody who waits is inside. -/
theorem Orderly.not_deadlocked (h : c.Orderly) (hout : c.Outside) (S : Set ThreadId) :
    ¬c.Deadlocked S := by
  intro hS
  obtain ⟨v, -, -, -, ⟨u, hu, hd⟩, hall⟩ := h.upgradeDeadlock hS
  obtain ⟨x, hx, rfl, -⟩ := hall u hu hd
  have h0 := hout x (List.mem_append_left _ hx)
  omega

/-! ### Crowds that are stuck -/

section Stuck

variable {as : List Action} {history : List Occurrence}

/-- Everybody parked behind a closer that has the gate waits for it, and it is idle. -/
theorem Orderly.waitsFor_closer (h : c.Orderly) (hc : c.gate.closer = some t)
    (hd : c.drains t = false) :
    (∀ v ∈ c.visitors, v.thread ≠ t) ∧ ∀ v ∈ c.parked, c.WaitsFor v.thread t := by
  have haway : ∀ v ∈ c.visitors, v.thread ≠ t := by
    rintro v hv rfl
    have hroom := (h.fits v hv).room_of_closer hc
    have hdrains : c.drains v.thread = true := drains_iff.2 ⟨v, hv, rfl, decide_eq_true hroom⟩
    rw [hd] at hdrains
    cases hdrains
  refine ⟨haway, fun v hv => ?_⟩
  cases hr : v.waiting.room with
  | opened => exact .close hv rfl hr hc
  | drained =>
      have hv' := h.closer_of_drained hv hr
      rw [hc] at hv'
      exact absurd (Option.some.inj hv').symm (haway v (List.mem_append_left _ hv))

/-- Everybody waits, through the closer if need be, for those who hold up the closer's drain. -/
theorem Orderly.waitsFor_inside (h : c.Orderly) (hv : v ∈ c.parked)
    (hr : v.waiting.room = .drained) (hu : u ≠ v.thread) (hd : 0 < c.gate.depth u) {x : Visitor}
    (hx : x ∈ c.parked) : Relation.TransGen c.WaitsFor x.thread u := by
  have hc := h.closer_of_drained hv hr
  have hlast : c.WaitsFor v.thread u := .entries hv rfl hr hu hd
  cases hxr : x.waiting.room with
  | opened => exact .tail (.single (.close hx rfl hxr hc)) hlast
  | drained =>
      have hcx := h.closer_of_drained hx hxr
      rw [hc] at hcx
      rw [← Option.some.inj hcx]
      exact .single hlast

/-- **A crowd that is stuck waits for an idle thread, or is in an upgrade deadlock.** -/
theorem Orderly.waits_or_upgradeDeadlock (h : c.Orderly) (hw : c.woken = [])
    (hp : c.parked ≠ []) :
    (∃ t, c.idle t = true ∧
        (0 < c.gate.depth t ∨ c.gate.closer = some t ∧ c.drains t = false) ∧
        ∀ v ∈ c.parked, Relation.TransGen c.WaitsFor v.thread t) ∨ c.UpgradeDeadlock := by
  obtain ⟨x, hx⟩ := List.exists_mem_of_ne_nil _ hp
  obtain ⟨t, hc⟩ := h.exists_closer_of_parked hx
  cases hd : c.drains t with
  | false =>
      obtain ⟨haway, hwaits⟩ := h.waitsFor_closer hc hd
      exact .inl ⟨t, idle_iff.2 haway, .inr ⟨hc, hd⟩, fun v hv => .single (hwaits v hv)⟩
  | true =>
      obtain ⟨v, hv, rfl, hroom⟩ := drains_iff.1 hd
      have hr : v.waiting.room = .drained := of_decide_eq_true hroom
      rw [visitors, hw, List.append_nil] at hv
      -- either one of those who hold the closer up is idle, or they are all parked themselves
      by_cases hidle : ∃ u, u ≠ v.thread ∧ 0 < c.gate.depth u ∧ c.idle u = true
      · obtain ⟨u, hu, hdu, hi⟩ := hidle
        exact .inl ⟨u, hi, .inl hdu, fun y hy => h.waitsFor_inside hv hr hu hdu hy⟩
      · refine .inr ⟨v, hv, hr, hc, h.exists_inside hv hr, fun u hu hdu => ?_⟩
        have hparked : ∃ y ∈ c.parked, y.thread = u := by
          by_contra hno
          refine hidle ⟨u, hu, hdu, idle_of_not_parked hw fun y hy hyu => ?_⟩
          exact hno ⟨y, hy, hyu⟩
        obtain ⟨y, hy, rfl⟩ := hparked
        have hne : c.gate.closer ≠ some y.thread := by
          rw [hc]
          simpa using hu.symm
        exact ⟨y, hy, rfl, h.exclusivity_of_inside hy hdu hne⟩

/-- **The only deadlock is the upgrade deadlock.**  If after some run somebody is parked and nobody
has been woken, then everybody parked waits, directly or through others, for one thread that is not
in the middle of a call and that is inside or holds the close; or a closer drains behind entries of
threads that are all parked in wait for exclusivity.  Whatever set of parked threads waits only for
its own members, it is this upgrade deadlock, and a run in which nobody who is inside starts to
close, unless it is the closer already, never leads to such a set. -/
theorem upgrade_is_only_deadlock (h : run {} as = some (c, history)) :
    (c.woken = [] → c.parked ≠ [] →
      (∃ t, c.idle t = true ∧ (0 < c.gate.depth t ∨ HoldsClose history t) ∧
        ∀ v ∈ c.parked, Relation.TransGen c.WaitsFor v.thread t) ∨ c.UpgradeDeadlock) ∧
      (∀ S, c.Deadlocked S → c.UpgradeDeadlock) ∧
      (upgradeFree {} as = true → ∀ S, ¬c.Deadlocked S) := by
  have ho := run_orderly h
  refine ⟨fun hw hp => ?_, fun S hS => ho.upgradeDeadlock hS, fun hu S => ?_⟩
  · simp only [holdsClose_iff h]
    exact ho.waits_or_upgradeDeadlock hw hp
  · have hout : c.Outside := run_outside orderly_fresh (by simp [Outside, visitors]) hu h
    exact ho.not_deadlocked hout S

/-- Two threads are inside and both close: the first drains, the second waits for it to go, and a
third wants to enter.  With the second thread outside there is no deadlock. -/
theorem upgrade_is_only_deadlock_of_two_closes :
    let a : ThreadId := ⟨"a"⟩
    let b : ThreadId := ⟨"b"⟩
    let d : ThreadId := ⟨"d"⟩
    let c : Crowd :=
      ⟨⟨2, 1, some b, [(a, 1), (b, 1)]⟩,
        [⟨b, .drain none⟩, ⟨a, .exclusivity none⟩, ⟨d, .entry .infinite none⟩], [], 0⟩
    let c' : Crowd :=
      ⟨⟨0, 1, some b, []⟩, [⟨a, .exclusivity none⟩, ⟨d, .entry .infinite none⟩], [], 0⟩
    let closes : List Action :=
      [.call b (.close .infinite) false, .call a (.close .infinite) false,
        .call d (.enter .infinite) false]
    (∃ history, run {} (.call a (.enter .infinite) false :: .call b (.enter .infinite) false ::
        closes) = some (c, history)) ∧ c.woken = [] ∧ c.parked ≠ [] ∧ c.UpgradeDeadlock ∧
      (∃ history, run {} closes = some (c', history)) ∧ upgradeFree {} closes = true ∧
      ∀ S, ¬c'.Deadlocked S := by
  intro a b d c c' closes
  have hrun : run {} (.call a (.enter .infinite) false :: .call b (.enter .infinite) false ::
      closes) = some (c, [⟨a, .entry, .granted, none, false⟩,
        ⟨b, .entry, .granted, none, false⟩]) := by decide
  have hrun' : run {} closes = some (c', [⟨b, .close, .granted, some (.closed 0), false⟩]) := by
    decide
  have hparked : c.parked ≠ [] := by decide
  have hfree : upgradeFree {} closes = true := by decide
  have hnone : ∀ S, ¬c'.Deadlocked S := (upgrade_is_only_deadlock hrun').2.2 hfree
  have hup : c.UpgradeDeadlock := by
    -- nobody else is inside, and nobody holds the close yet
    rcases (upgrade_is_only_deadlock hrun).1 rfl hparked with ⟨t, hi, hd | hd, -⟩ | hup
    · simp_all [c, idle, depth, Depths.of]
    · simp [HoldsClose, balance, tally] at hd
    · exact hup
  exact ⟨⟨_, hrun⟩, rfl, hparked, hup, ⟨_, hrun'⟩, hfree, hnone⟩

end Stuck

end Crowd

end ReentrantGate.Gate
