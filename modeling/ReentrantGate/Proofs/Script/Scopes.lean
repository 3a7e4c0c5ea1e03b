/-
**Scoped acquisition is balanced.**

A scope takes a guard, runs its body, and gives the guard back; the body may take further guards by
scopes of its own.  Guards do not remember which hold is theirs, so that each of them finds a hold
to give back comes from the nesting: at any time in between, a thread has what it had before and
what it still has to release.  This is so whatever the others do while the thread is parked, whether
guards are granted or not, and wherever in a body the thread panics.

Main definitions:

* `Turn.Answers`, `Turn.own` — what a call reports in a turn, and the turns of one thread;
* `System.Busy` — a thread has something to do before it comes to some rest;
* `Script.Stage` — how far a thread is in a scope;
* `Script.Balanced` — what is true of a thread in a scope at any time.

Main results:

* `Stage.turn`, `Stage.panic` — a turn and a panic take a thread on in a scope;
* `Balanced.turn`, `Balanced.panic`, `Balanced.happens` — **whatever happens keeps a thread in a
  scope balanced**;
* `Script.scopes_balance` — **a scope that is over leaves what the thread held before**, its guards
  find what they give back, and nothing of its body runs if it gives up.
-/

import Mathlib
import ReentrantGate.Proofs.Script.Guards

set_option relaxedAutoImplicit false
set_option autoImplicit false

namespace ReentrantGate.Script

/-! ### In a scope -/

/-- A call reports a result in a turn. -/
def Turn.Answers (x : Turn) (r : Result) : Prop :=
  x.world.Reports x.segment.world x.thread x.task.call r

/-- The turns of one thread. -/
def Turn.own (t : ThreadId) (turns : List Turn) : List Turn := turns.filter (·.thread = t)

/-- Thread `t` has something to do before it comes to `rest`, and the sink of the log does not
fail. -/
def System.Busy (t : ThreadId) (rest : List Task) (s : System) : Prop :=
  s.world.Sturdy ∧ ∃ task tasks, ⟨t, task :: tasks ++ rest⟩ ∈ s.everyone

/-- **How far a thread is in a scope**, after its turns in it and with what is left to do.  It is
still acquiring the guard and has answered nothing; it is inside, with the release of the guard at
the end; or it has left.  If the scope has answered that it gave up, nothing else has been tried. -/
inductive Stage (c : Call) (turns : List Turn) : List Task → Prop
  | acquiring {task : Task} : task.Acquires c →
      (∀ x ∈ turns, x.task.Acquires c ∧ ∀ r, ¬x.Answers r) → Stage c turns [task]
  | inside {inner : List Task} {hold : Hold} {gate : Nat} :
      (∀ x ∈ inner, x.call.weight < c.weight) →
      (∀ x ∈ turns, x.task.call = c → ¬x.Answers (.flag false)) →
      Stage c turns (inner ++ [.release c hold gate])
  | left : ((∀ x ∈ turns, x.task.Acquires c) ∨
        ∀ x ∈ turns, x.task.call = c → ¬x.Answers (.flag false)) → Stage c turns []

/-- **A balanced thread** in the scope `c`, which it started in `s` and has not left in `u`: it has
what it had and what it still has to release, and every guard has found what it gave back. -/
structure Balanced (t : ThreadId) (c : Call) (s : System) (turns : List Turn) (u : System)
    (left : List Task) : Prop where
  proper : ∀ x ∈ left, x.Scoped
  held : ∀ i kind, (u.world.gate i).held (Task.drainsAt i left) t kind =
    (s.world.gate i).held false t kind + Task.owed i kind left
  drops : ∀ x ∈ Turn.own t turns, ∀ d hold i, x.task = .release d hold i →
    x.Answers (Task.ofRelease d)
  stage : Stage c (Turn.own t turns) left

/-! ### What a turn leaves -/

namespace Task

variable {t : ThreadId} {w : World} {task : Task} {c d : Call} {left rest : List Task} {r : Result}

theorem afterwards_append (task : Task) (tasks rest : List Task) (segment : Segment) :
    System.afterwards task (tasks ++ rest) segment =
      System.afterwards task tasks segment ++ rest := by
  cases segment with
  | park w c wait => rfl
  | done w ns follow => simp only [System.afterwards, List.append_assoc]

/-- A call that has reported leaves nothing to do. -/
theorem afterwards_of_reports (h : w.Reports (task.attempt t w).world t task.call r) :
    System.afterwards task rest (task.attempt t w) = rest := by
  have hwrites := task.attempt_writes t w
  generalize task.attempt t w = segment at h hwrites
  cases hwrites with
  | park hj => exact absurd (World.notes_of_eq hj) h.not_notes
  | more hnotes _ => exact absurd hnotes h.not_notes
  | report _ _ => exact System.afterwards_nothing ..

theorem weight_lt_of_mem_body {site : Site} {hold : Hold} {timeout : Timeout} {body : List Call}
    {panics : Bool} (h : d ∈ body) :
    d.weight < (Call.scope site hold timeout body panics).weight := by
  have := Call.weight_le_of_mem h
  rw [Call.weight]
  omega

/-- The body of a call does not weigh more than the call. -/
theorem weight_le_of_mem_ofBody {x : Task} (h : x ∈ ofBody d) : x.call.weight ≤ d.weight := by
  cases d with
  | single site op => cases h
  | scope site hold timeout body panics =>
      rcases List.mem_append.1 h with h | h
      · obtain ⟨c, hc, rfl⟩ := List.mem_map.1 h
        exact Nat.le_of_lt (weight_lt_of_mem_body hc)
      · rw [List.mem_singleton.1 h]
        exact Nat.le_refl _

/-- What a turn leaves does not weigh more than its task. -/
theorem Remains.weight_le (h : task.Remains left) {x : Task} (hx : x ∈ left) :
    x.call.weight ≤ task.call.weight := by
  cases h with
  | nothing => cases hx
  | again _ _ =>
      rw [List.mem_singleton.1 hx]
      exact Nat.le_refl _
  | body _ => exact weight_le_of_mem_ofBody hx

/-- What a turn leaves of a scoped task is scoped. -/
theorem Remains.scoped (h : task.Remains left) (ht : task.Scoped) {x : Task} (hx : x ∈ left) :
    x.Scoped := by
  cases h with
  | nothing => cases hx
  | again _ hs => exact List.mem_singleton.1 hx ▸ hs
  | body hacquires =>
      cases ht with
      | @start c hc =>
          cases c with
          | single site op => cases hx
          | scope site hold timeout body panics => exact scoped_ofBody hc hx
      | look _ => cases hx
      | acquire hbody _ => exact scoped_ofBody hbody hx
      | release => rcases hacquires with h | ⟨wait, h⟩ <;> cases h

theorem ofRelease_ne_refusal (c : Call) : ofRelease c ≠ .flag false := by
  unfold ofRelease
  split
  · simp
  · simp
  · split <;> simp

end Task

/-! ### Whatever happens to the thread -/

namespace Turn

variable {t : ThreadId} {turns : List Turn} {x : Turn} {o : Option Turn}

theorem mem_own : x ∈ own t turns ↔ x ∈ turns ∧ x.thread = t := by
  simp [own]

theorem own_append_of_ne (h : ∀ y ∈ o, y.thread ≠ t) : own t (turns ++ o.toList) = own t turns := by
  cases o with
  | none => simp [own]
  | some y => simpa [own] using h y rfl

theorem own_append_self (h : x.thread = t) : own t (turns ++ [x]) = own t turns ++ [x] := by
  simp [own, h]

end Turn

section Stages

variable {c : Call} {turns : List Turn} {x : Turn} {left tasks : List Task} {skipped : List Call}

/-- **A turn takes a thread on in a scope**, whatever it leaves to do: no call that has reported
goes on, and the release of a guard never gives up. -/
theorem Stage.turn (h : Stage c turns (x.task :: tasks)) (hleft : x.task.Remains left)
    (hover : ∀ r, x.Answers r → left = [])
    (hdrop : ∀ d hold i, x.task = .release d hold i → x.Answers (Task.ofRelease d)) :
    Stage c (turns ++ [x]) (left ++ tasks) := by
  generalize hall : x.task :: tasks = all at h
  cases h with
  | acquiring hacquires hturns =>
      obtain ⟨rfl, rfl⟩ := List.cons.inj hall
      have hcall := hacquires.call_eq
      have hacquired : ∀ y ∈ turns ++ [x], y.task.Acquires c :=
        List.forall_mem_append.2 ⟨fun y hy => (hturns y hy).1, by simpa using hacquires⟩
      rw [List.append_nil]
      cases hleft with
      | nothing => exact .left (.inl hacquired)
      | @again wait hx hscoped =>
          have hsilent : ∀ r, ¬x.Answers r := fun r hr => nomatch hover r hr
          refine .acquiring (.inr ⟨wait, by rw [hcall]⟩) fun y hy => ⟨hacquired y hy, ?_⟩
          rcases List.mem_append.1 hy with hy | hy
          · exact (hturns y hy).2
          · exact List.mem_singleton.1 hy ▸ hsilent
      | body hx =>
          rw [hcall] at hover ⊢
          cases c with
          | single site op => exact .left (.inl hacquired)
          | scope site hold timeout body panics =>
              refine .inside (fun y hy => ?_) ?_
              · obtain ⟨d, hd, rfl⟩ := List.mem_map.1 hy
                exact Task.weight_lt_of_mem_body hd
              · refine List.forall_mem_append.2 ⟨fun y hy _ => (hturns y hy).2 _, ?_⟩
                intro y hy _ hanswers
                rw [List.mem_singleton.1 hy] at hanswers
                simpa [Task.ofBody] using hover _ hanswers
  | @inside inner hold gate hinner hturns =>
      cases inner with
      | nil =>
          obtain ⟨htask, rfl⟩ := List.cons.inj hall
          -- the guard is released, so what it answers is not that it gave up
          have hanswers := hdrop c hold gate htask
          have hnone : left = [] := hover _ hanswers
          subst hnone
          refine .left (.inr (List.forall_mem_append.2 ⟨hturns, fun y hy _ hrefused => ?_⟩))
          rw [List.mem_singleton.1 hy] at hrefused
          exact Task.ofRelease_ne_refusal c (hanswers.inj hrefused)
      | cons task inner =>
          obtain ⟨rfl, rfl⟩ := List.cons.inj hall
          obtain ⟨hlt, hinner⟩ := List.forall_mem_cons.1 hinner
          change Stage c _ (left ++ (inner ++ _))
          rw [← List.append_assoc]
          refine .inside (List.forall_mem_append.2 ⟨fun y hy => ?_, hinner⟩) ?_
          · exact Nat.lt_of_le_of_lt (hleft.weight_le hy) hlt
          · -- what is done inside weighs less than the scope, so it is never the scope itself
            refine List.forall_mem_append.2 ⟨hturns, fun y hy hcall => ?_⟩
            rw [List.mem_singleton.1 hy] at hcall
            exact absurd (hcall ▸ hlt) (Nat.lt_irrefl _)
  | left hturns => cases hall

/-- A panic of the thread leaves the release of the guard, if it has the guard. -/
theorem Stage.panic (h : Stage c turns (skipped.map .start ++ left)) : Stage c turns left := by
  generalize hall : skipped.map Task.start ++ left = all at h
  cases skipped with
  | nil =>
      rw [← hall] at h
      exact h
  | cons d skipped =>
      cases h with
      | acquiring hacquires hturns =>
          obtain ⟨-, hnil⟩ := List.cons.inj hall
          rw [(List.append_eq_nil_iff.1 hnil).2]
          exact .left (.inl fun x hx => (hturns x hx).1)
      | @inside inner hold gate hinner hturns =>
          rcases List.append_eq_append_iff.1 hall with
            ⟨more, hinner', hleft⟩ | ⟨more, hstart, hleft⟩
          · rw [hleft]
            refine .inside (fun y hy => hinner y ?_) hturns
            rw [hinner']
            exact List.mem_append_right _ hy
          · -- the guard is not among the calls that are skipped
            cases more with
            | nil =>
                rw [show left = [] ++ [.release c hold gate] from hleft.symm]
                exact .inside nofun hturns
            | cons task more =>
                obtain ⟨rfl, -⟩ := List.cons.inj hleft
                have hmem : Task.release c hold gate ∈ (d :: skipped).map Task.start :=
                  hstart ▸ List.mem_append_right _ List.mem_cons_self
                obtain ⟨e, -, he⟩ := List.mem_map.1 hmem
                cases he
      | left hturns => cases hall

end Stages

section Balances

variable {t : ThreadId} {c : Call} {s u v : System} {turns : List Turn} {o : Option Turn}
  {task : Task} {tasks left rest : List Task}

/-- **A turn of the thread keeps it balanced.** -/
theorem Balanced.turn (h : Balanced t c s turns u (task :: tasks)) (hu : u.Sane)
    (hsturdy : u.world.Sturdy) (ht : ⟨t, task :: tasks ++ rest⟩ ∈ u.everyone)
    (hv : v.world = (task.attempt t u.world).world) :
    ∃ left, System.afterwards task (tasks ++ rest) (task.attempt t u.world) = left ++ rest ∧
      Balanced t c s (turns ++ [⟨t, task, u.world⟩]) v left := by
  obtain ⟨hscoped, hproper⟩ := List.forall_mem_cons.1 h.proper
  have hrest : ∀ x ∈ tasks, x.isResume = false :=
    fun x hx => hu.tails _ ht x (List.mem_append_left _ hx)
  have hfits : ∀ (d : Call) (i : Nat) (waiting : Gate.Waiting),
      task = .resume d (.gate i waiting) → ∀ g, u.world.gates[i]? = some g → waiting.Fits g t := by
    rintro d i waiting rfl
    exact hu.fits t d i waiting (tasks ++ rest) ht
  have howed : ∀ i kind, Task.owed i kind (task :: tasks) ≤
      (u.world.gate i).held (Task.drainsAt i (task :: tasks)) t kind :=
    fun i kind => h.held i kind ▸ Nat.le_add_left ..
  obtain ⟨⟨left, hafter, hleft, hbalances⟩, hdrop⟩ :=
    hscoped.turn hsturdy hu.sound hfits hrest howed
  refine ⟨left ++ tasks, ?_, ?_⟩
  · rw [Task.afterwards_append, hafter]
  · have hown : Turn.own t (turns ++ [⟨t, task, u.world⟩]) =
        Turn.own t turns ++ [⟨t, task, u.world⟩] := Turn.own_append_self rfl
    have hdrops : ∀ d hold i, task = .release d hold i →
        Turn.Answers ⟨t, task, u.world⟩ (Task.ofRelease d) := by
      rintro d hold i rfl
      exact hdrop d hold i rfl
    constructor
    · exact List.forall_mem_append.2 ⟨fun x hx => hleft.scoped hscoped hx, hproper⟩
    · intro i kind
      have hbalance := hbalances i kind
      have hheld := h.held i kind
      rw [hv]
      omega
    · rw [hown]
      refine List.forall_mem_append.2 ⟨h.drops, fun x hx => ?_⟩
      rw [List.mem_singleton.1 hx]
      exact hdrops
    · rw [hown]
      refine h.stage.turn hleft (fun r hr => ?_) ?_
      · have hnone : System.afterwards task tasks (task.attempt t u.world) = tasks :=
          Task.afterwards_of_reports hr
        exact List.append_cancel_right (hafter.symm.trans hnone)
      · exact hdrops

/-- **A panic of the thread keeps it balanced**: the calls that are skipped have taken nothing. -/
theorem Balanced.panic {skipped : List Call} {d : Call} {hold : Hold} {gate : Nat}
    {later : List Task} (h : Balanced t c s turns u (skipped.map .start ++ left))
    (hleft : left ++ rest = .release d hold gate :: later) (hv : v.world = u.world) :
    Balanced t c s turns v left where
  proper x hx := h.proper x (List.mem_append_right _ hx)
  held i kind := by
    have hheld := h.held i kind
    have hdrains : Task.drainsAt i left = false := by
      cases left with
      | nil => rfl
      | cons task left =>
          obtain ⟨rfl, -⟩ := List.cons.inj hleft
          rfl
    have hdrains' : Task.drainsAt i (skipped.map .start ++ left) = false := by
      cases skipped with
      | nil => exact hdrains
      | cons e skipped => rfl
    rw [hdrains', Task.owed_append, Task.owed_map_start, Nat.zero_add] at hheld
    rw [hdrains, hv, hheld]
  drops := h.drops
  stage := h.stage.panic

/-- **Whatever happens keeps a thread in a scope balanced.** -/
theorem Balanced.happens (h : Balanced t c s turns u left) (hu : u.Sane) (hv : v.Sane)
    (hbusy : u.Busy t rest) (ht : ⟨t, left ++ rest⟩ ∈ u.everyone) (hs : u.Happens o v)
    {left' : List Task} (ht' : ⟨t, left' ++ rest⟩ ∈ v.everyone) :
    Balanced t c s (turns ++ o.toList) v left' := by
  obtain ⟨hsturdy, task, tasks, hmem⟩ := hbusy
  obtain rfl : left = task :: tasks :=
    List.append_cancel_right (Runner.mk.inj (hu.eq_of_mem ht hmem rfl)).2
  have hleft : ∀ {all : List Task}, ⟨t, all⟩ ∈ v.everyone → left' ++ rest = all :=
    fun hall => (Runner.mk.inj (hv.eq_of_mem ht' hall rfl)).2
  cases hs.fate hu ht with
  | aside hne hall hheld =>
      obtain rfl : left' = task :: tasks := List.append_cancel_right (hleft hall)
      have hown : Turn.own t (turns ++ o.toList) = Turn.own t turns :=
        Turn.own_append_of_ne hne
      exact ⟨h.proper, fun i kind => by rw [hheld, h.held], hown ▸ h.drops, hown ▸ h.stage⟩
  | own heq hworld hall =>
      obtain ⟨rfl, rfl⟩ := List.cons.inj heq
      obtain ⟨left, hafter, hbalanced⟩ := h.turn hu hsturdy hmem hworld
      obtain rfl : left' = left := List.append_cancel_right ((hleft hall).trans hafter)
      exact hbalanced
  | done heq => cases heq
  | @panic skipped d hold gate later _ heq hworld hall =>
      have hrelease := hleft hall
      have hskipped : task :: tasks = skipped.map .start ++ left' := by
        refine (List.append_left_inj rest).1 ?_
        rw [heq, List.append_assoc, hrelease]
      rw [hskipped] at h
      rw [Option.toList_none, List.append_nil]
      exact h.panic hrelease hworld

end Balances

variable {t : ThreadId} {c : Call} {s u : System} {turns : List Turn} {left rest : List Task}

/-- A thread that is about to start a call is balanced. -/
theorem Balanced.start (hc : c.isScoped = true) : Balanced t c s [] s [.start c] where
  proper _ hx := List.mem_singleton.1 hx ▸ .start hc
  held _ _ := rfl
  drops := nofun
  stage := .acquiring (.inl rfl) nofun

/-- **A thread stays balanced as long as it is in a scope.** -/
theorem Balanced.runs (hs : s.Reachable) (hc : c.isScoped = true)
    (hstart : ⟨t, .start c :: rest⟩ ∈ s.everyone) (hruns : s.Runs (System.Busy t rest) turns u)
    (hu : ⟨t, left ++ rest⟩ ∈ u.everyone) : Balanced t c s turns u left := by
  induction hruns generalizing left with
  | refl =>
      have hall : left ++ rest = [.start c] ++ rest :=
        (Runner.mk.inj (hs.sane.eq_of_mem hu hstart rfl)).2
      obtain rfl : left = [.start c] := List.append_cancel_right hall
      exact .start hc
  | tail hruns hbusy hhappens ih =>
      have hreachable := hs.runs hruns
      obtain ⟨-, task, tasks, hmem⟩ := id hbusy
      exact (ih hmem).happens hreachable.sane (hreachable.happens hhappens).sane hbusy hmem
        hhappens hu

/-- **Scoped acquisition is balanced.**  A thread starts a scope in any reachable system, and the
scopes inside it take further guards.  While it is busy with that anything may happen, other threads
may take turns and the thread may panic in a body, only the sink of the log does not fail.  If the
scope is over then the thread holds at each gate what it held before.  Every guard that has been
dropped has found what it gave back, so its assertion has not failed.  If the scope has given up
then the thread has done nothing in it but try to get the guard. -/
theorem scopes_balance (hs : s.Reachable) (hc : c.isScoped = true)
    (hstart : ⟨t, .start c :: rest⟩ ∈ s.everyone) (hruns : s.Runs (System.Busy t rest) turns u)
    (hu : ⟨t, left ++ rest⟩ ∈ u.everyone) :
    (left = [] → ∀ i kind,
        (u.world.gate i).held false t kind = (s.world.gate i).held false t kind) ∧
      (∀ x ∈ turns, x.thread = t → ∀ d hold i, x.task = .release d hold i →
        x.Answers (Task.ofRelease d)) ∧
      ((∃ x ∈ turns, x.thread = t ∧ x.task.call = c ∧ x.Answers (.flag false)) →
        ∀ x ∈ turns, x.thread = t → x.task.Acquires c) := by
  have h := Balanced.runs hs hc hstart hruns hu
  refine ⟨?_, fun x hx ht => h.drops x (Turn.mem_own.2 ⟨hx, ht⟩), ?_⟩
  · rintro rfl i kind
    exact h.held i kind
  · rintro ⟨x, hx, ht, hcall, hrefused⟩ y hy hy'
    have hmem : x ∈ Turn.own t turns := Turn.mem_own.2 ⟨hx, ht⟩
    cases h.stage with
    | acquiring _ hturns => exact (hturns y (Turn.mem_own.2 ⟨hy, hy'⟩)).1
    | inside _ hturns => exact absurd hrefused (hturns x hmem hcall)
    | left hturns =>
        rcases hturns with hturns | hturns
        · exact hturns y (Turn.mem_own.2 ⟨hy, hy'⟩)
        · exact absurd hrefused (hturns x hmem hcall)

/-- Thread `a` enters by a scope and closes by another one inside it, for five milliseconds; but `b`
is inside as well and stays there.  The close gives up, `a` panics before it looks at the gate, and
on its way out it exits.  It holds nothing then, and has not even begun the body of the close. -/
theorem scopes_balance_of_panic :
    let a : ThreadId := ⟨"a"⟩
    let b : ThreadId := ⟨"b"⟩
    let look : Call := .single { label := 3 } .snapshot
    let close : Call := .scope { label := 2 } .close (.millis 5) [look] false
    let enter : Call := .scope { label := 1 } .entry .infinite [close, look] false
    let rest : List Task := [.start look, .release enter .entry 0]
    let wait : Wait := .gate 0 (.drain (some 5000000))
    let s : System := ⟨⟨[⟨1, 0, none, [(b, 1)]⟩], [], {}, [], 0, 0, false, []⟩, [],
      [⟨a, [.start enter]⟩]⟩
    let u : System := ⟨⟨[⟨2, 1, some a, [(b, 1), (a, 1)]⟩], [], {}, [], 5000000, 0, false, []⟩, [],
      [⟨a, .resume close wait :: rest⟩]⟩
    let v : System := ⟨⟨[⟨2, 0, none, [(b, 1), (a, 1)]⟩], [], {}, [], 5000000, 0, false, []⟩, [],
      [⟨a, [.release enter .entry 0]⟩]⟩
    let inside : List Turn := [⟨a, .start close, s.turn.world⟩, ⟨a, .resume close wait, u.world⟩]
    let turns := ⟨a, .start enter, s.world⟩ :: inside ++ [⟨a, .release enter .entry 0, v.world⟩]
    (s.turn.Runs (System.Busy a rest) inside u.turn ∧
        Turn.Answers ⟨a, .resume close wait, u.world⟩ (.flag false) ∧
        ∀ x ∈ inside, x.thread = a → x.task.Acquires close) ∧
      s.Runs (System.Busy a []) turns v.turn ∧
        (∀ i kind, (v.turn.world.gate i).held false a kind = (s.world.gate i).held false a kind) ∧
        Turn.Answers ⟨a, .release enter .entry 0, v.world⟩ (.flag true) := by
  intro a b look close enter rest wait s u v inside turns
  let p : System := ⟨{ u.world with clock := 0 }, [⟨a, close, wait, rest⟩], []⟩
  let p' : System := { p with world := u.world }
  have hs : s.Reachable := by
    have hentered := (((System.Reachable.fresh 1 0 false).happens (.enlist
      [.single {} (.enterFor .infinite)] (t := b) nofun)).happens (.turn rfl)).happens .clear
    exact (hentered.happens (.leave rfl)).happens (.enlist [enter] nofun)
  have hgranted : s.Happens (some ⟨a, .start enter, s.world⟩) s.turn := .turn rfl
  have hparks : s.turn.Happens (some ⟨a, .start close, s.turn.world⟩) p := by
    have hclose : s.turn.runnable = ⟨a, .start close :: rest⟩ :: [] := by cbv
    have hp : s.turn.turn = p := by cbv
    exact hp ▸ .turn hclose
  have hwaits : p.Happens none p' := .clock (Nat.zero_le 5000000)
  have hwakes : p'.Happens none u := by
    have hsleeps : p'.parked = ⟨a, close, wait, rest⟩ :: [] := rfl
    exact .rouse hsleeps
  have hrefused : u.Happens (some ⟨a, .resume close wait, u.world⟩) u.turn := .turn rfl
  have hpanics : u.turn.clear.Happens none v := by
    have hlook : u.turn.runnable =
        ⟨a, [look].map .start ++ .release enter .entry 0 :: []⟩ :: [] := by cbv
    exact .unwind hlook
  have hexits : v.Happens (some ⟨a, .release enter .entry 0, v.world⟩) v.turn := .turn rfl
  have hinside : s.turn.Runs (System.Busy a rest) inside u.turn := by
    refine .tail (.tail (.tail (.tail .refl ?_ hparks) ?_ hwaits) ?_ hwakes) ?_ hrefused
    all_goals exact ⟨.inr rfl, _, [], .head _⟩
  have hbusy : ∀ {x : System} {task : Task} {tasks : List Task}, x.world.Sturdy →
      ⟨a, task :: tasks⟩ ∈ x.everyone → x.Busy a [] :=
    fun hsturdy hmem => ⟨hsturdy, _, _, by rwa [List.append_nil]⟩
  have hruns : s.Runs (System.Busy a []) turns v.turn := by
    refine .tail (.tail (.tail (.tail (.tail (.tail (.tail (.tail .refl ?_ hgranted) ?_ hparks) ?_
      hwaits) ?_ hwakes) ?_ hrefused) ?_ .clear) ?_ hpanics) ?_ hexits
    all_goals exact hbusy (.inr rfl) (.head _)
  have hgivesUp : Turn.Answers ⟨a, .resume close wait, u.world⟩ (.flag false) :=
    ⟨some (Gate.Note.rolledBack 2).record, true, false, by cbv⟩
  obtain ⟨-, -, htried⟩ := scopes_balance (hs.happens hgranted) rfl
    (.head _ : ⟨a, .start close :: rest⟩ ∈ s.turn.everyone) hinside
    (.head _ : ⟨a, [] ++ rest⟩ ∈ u.turn.everyone)
  obtain ⟨hheld, hdrops, -⟩ := scopes_balance hs rfl
    (.head _ : ⟨a, [.start enter]⟩ ∈ s.everyone) hruns
    (.head _ : ⟨a, [] ++ []⟩ ∈ v.turn.everyone)
  exact ⟨⟨hinside, hgivesUp, htried ⟨_, .tail _ (.head _), rfl, rfl, hgivesUp⟩⟩, hruns, hheld rfl,
    hdrops _ (List.mem_append_right _ (.head _)) rfl _ _ _ rfl⟩

end ReentrantGate.Script
