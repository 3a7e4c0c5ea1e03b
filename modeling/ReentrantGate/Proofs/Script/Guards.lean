/-
**Turns of a thread in a scope.**

A thread in a scope starts calls, goes on with the one in which it was parked, and releases the
guards of its scopes.  The releases that it still has ahead of it are what it owes.  A turn keeps
the difference between what the thread holds and what it owes: a guard that is granted brings its
release with it, nothing else that a scoped call does takes a hold, and a release gives one back.

A claim that drains is not a hold yet, so a thread that is parked there owes nothing for it.

Main definitions:

* `Call.isScoped` — a call takes holds only by scopes, as do all calls inside it;
* `Task.Scoped`, `Task.Acquires` — what such a call can leave to do, and its tasks until it has its
  guard;
* `Task.owed`, `Task.Balances` — the holds that are still to be released, and a turn that keeps the
  balance;
* `Task.Remains` — what a turn can leave of its task;
* `World.Sturdy` — the sink of the log does not fail.

Main results:

* `Task.balances_of_acquire`, `Task.balances_of_release` — getting the guard of a scope and giving
  it back balances;
* `Task.keepsHolds_perform` — looks at a gate and calls about events take no hold;
* `Task.Scoped.turn` — **every turn of a thread in a scope balances**, and a release finds what it
  gives back.
-/

import ReentrantGate.Proofs.Gate.Holds
import ReentrantGate.Proofs.Script.Interleaving
import ReentrantGate.Proofs.Script.Rulings

set_option relaxedAutoImplicit false
set_option autoImplicit false

namespace ReentrantGate.Gate

/-! ### Requests release nothing -/

section Requests

variable {g : Gate} {t : ThreadId} {now : Nat} {timeout : Timeout}

theorem held_fresh (draining : Bool) (t : ThreadId) (kind : Hold) :
    held {} draining t kind = 0 := by
  cases kind <;> simp [held, closeDepth, depth, Depths.of]

/-- A request for a hold releases nothing, ... -/
theorem begin_ne_released {hold : Hold} :
    (begin t now (Script.Task.acquisition timeout hold) g).verdict? ≠ some .released := by
  intro h
  have hr : (Script.Task.acquisition timeout hold).timeout? = some timeout := by
    cases hold <;> rfl
  rcases verdict_begin hr h with hv | hv | ⟨hv, -⟩ <;> cases hv

/-- ... nor when it goes on. -/
theorem resume_ne_released {w : Waiting} : (resume t now w g).verdict? ≠ some .released := by
  intro h
  rcases verdict_resume h with hv | hv <;> cases hv

end Requests

end ReentrantGate.Gate

namespace ReentrantGate.Script

/-! ### Calls that take holds only by scopes -/

/-- Whether an operation only looks at a gate or is about an event or its handles. -/
def Operation.keepsHolds : Operation → Bool
  | entries => true
  | isClosed => true
  | snapshot => true
  | signal _ => true
  | wait => true
  | waitFor _ => true
  | createHandle _ => true
  | cloneHandle .. => true
  | dropHandle _ => true
  | _ => false

namespace Call

mutual

/-- Whether a call takes holds only by scopes, as do all calls inside it. -/
def isScoped : Call → Bool
  | single _ op => op.keepsHolds
  | scope _ _ _ body _ => areScoped body

/-- Whether all calls of a list take holds only by scopes. -/
def areScoped : List Call → Bool
  | [] => true
  | c :: cs => c.isScoped && areScoped cs

end

theorem areScoped_iff {cs : List Call} : areScoped cs = true ↔ ∀ c ∈ cs, c.isScoped = true := by
  induction cs with
  | nil => simp [areScoped]
  | cons c cs ih => simp [areScoped, ih]

theorem weight_le_of_mem {c : Call} {cs : List Call} (h : c ∈ cs) : c.weight ≤ weights cs := by
  induction cs with
  | nil => cases h
  | cons d cs ih =>
      rw [weights]
      rcases List.mem_cons.1 h with rfl | h
      · exact Nat.le_add_right ..
      · exact Nat.le_trans (ih h) (Nat.le_add_left ..)

end Call

namespace Task

/-- A task that is still about acquiring the guard of a scope, or about the call as a whole. -/
def Acquires (c : Call) (task : Task) : Prop := task = .start c ∨ ∃ wait, task = .resume c wait

/-- A task that a scoped call can leave to do: to start or resume a call of that kind, or to release
the guard of a scope. -/
inductive Scoped : Task → Prop
  | start {c : Call} : c.isScoped = true → Scoped (.start c)
  | look {site : Site} {op : Operation} {i : Nat} {deadline : Deadline} :
      op.keepsHolds = true → Scoped (.resume (.single site op) (.event i deadline))
  | acquire {site : Site} {hold : Hold} {timeout : Timeout} {body : List Call} {panics : Bool}
      {waiting : Gate.Waiting} : Call.areScoped body = true → waiting.hold = hold →
      Scoped (.resume (.scope site hold timeout body panics) (.gate site.gate waiting))
  | release {site : Site} {hold : Hold} {timeout : Timeout} {body : List Call} {panics : Bool} :
      Scoped (.release (.scope site hold timeout body panics) hold site.gate)

variable {t : ThreadId} {w w' : World} {task : Task} {c : Call} {i k : Nat} {kind hold : Hold}
  {site : Site} {timeout : Timeout} {body : List Call} {panics : Bool} {rest tasks : List Task}

/-! ### What is still to be released -/

/-- Whether a task releases a hold of some kind of gate `i`. -/
def releases (i : Nat) (kind : Hold) : Task → Bool
  | release _ hold gate => gate = i && hold = kind
  | _ => false

/-- How many holds of gate `i` are still to be released. -/
def owed (i : Nat) (kind : Hold) (tasks : List Task) : Nat := tasks.countP (releases i kind)

theorem owed_cons (i : Nat) (kind : Hold) (task : Task) (tasks : List Task) :
    owed i kind (task :: tasks) = owed i kind tasks + if task.releases i kind then 1 else 0 :=
  List.countP_cons ..

theorem owed_append (i : Nat) (kind : Hold) (ts us : List Task) :
    owed i kind (ts ++ us) = owed i kind ts + owed i kind us := List.countP_append ..

theorem owed_map_start (i : Nat) (kind : Hold) (cs : List Call) :
    owed i kind (cs.map start) = 0 := by
  rw [owed, List.countP_eq_zero]
  intro x hx
  obtain ⟨c, -, rfl⟩ := List.mem_map.1 hx
  nofun

/-- The body of a scope comes with the release of its guard. -/
theorem owed_ofBody (i : Nat) (kind : Hold) :
    owed i kind (ofBody (.scope site hold timeout body panics)) =
      if site.gate = i ∧ hold = kind then 1 else 0 := by
  rw [ofBody, owed_append, owed_map_start, owed_cons]
  simp [owed, releases]

theorem scoped_ofBody (h : Call.areScoped body = true) {x : Task}
    (hx : x ∈ ofBody (.scope site hold timeout body panics)) : x.Scoped := by
  rcases List.mem_append.1 hx with hx | hx
  · obtain ⟨c, hc, rfl⟩ := List.mem_map.1 hx
    exact .start (Call.areScoped_iff.1 h c hc)
  · rw [List.mem_singleton.1 hx]
    exact .release

/-! ### Acquiring a guard -/

theorem Acquires.call_eq (h : task.Acquires c) : task.call = c := by
  rcases h with rfl | ⟨wait, rfl⟩ <;> rfl

theorem Acquires.follow_body (h : task.Acquires c) : task.follow .body = ofBody c := by
  rcases h with rfl | ⟨wait, rfl⟩ <;> rfl

/-- Nothing is owed for a guard that is still to be acquired. -/
theorem Acquires.owed_eq (h : task.Acquires c) (i : Nat) (kind : Hold) (rest : List Task) :
    owed i kind (task :: rest) = owed i kind rest := by
  rcases h with rfl | ⟨wait, rfl⟩ <;> rfl

/-! ### Whether a thread drains -/

/-- Whether a thread with these tasks drains gate `i`. -/
def drainsAt (i : Nat) : List Task → Bool
  | .resume _ (.gate j waiting) :: _ => j = i && waiting.draining
  | _ => false

theorem drainsAt_eq_false (h : ∀ x ∈ tasks, x.isResume = false) (i : Nat) :
    drainsAt i tasks = false := by
  cases tasks with
  | nil => rfl
  | cons task tasks =>
      cases task with
      | resume c wait => cases h _ List.mem_cons_self
      | start c => rfl
      | release c hold gate => rfl

end Task

/-- The sink of the log does not fail. -/
def World.Sturdy (w : World) : Prop := w.silent = true ∨ w.failing = 0

theorem World.Sturdy.emit {w : World} (h : w.Sturdy) (note : Option Gate.Note) :
    ∃ w', w.emit note = (w', false) ∧ w'.gates = w.gates := by
  have hfollows := w.follows_emit note
  cases hx : w.emit note with
  | mk w' failed =>
      rw [hx] at hfollows
      cases failed with
      | false => exact ⟨w', rfl, hfollows.gates⟩
      | true =>
          obtain ⟨hsilent, hfailing⟩ := World.failing_of_emit hx
          rcases h with h | h
          · rw [h] at hsilent
            cases hsilent
          · rw [h] at hfailing
            cases hfailing

/-! ### Balances -/

namespace Task

section Accounts

variable {t : ThreadId} {w w' : World} {before after : List Task} {i k : Nat} {kind hold : Hold}

/-- **The thread keeps its balance** from one list of tasks to another: what it holds grows by what
more it has to release. -/
def Balances (t : ThreadId) (w w' : World) (before after : List Task) : Prop :=
  ∀ i kind, (w'.gate i).held (drainsAt i after) t kind + owed i kind before =
    (w.gate i).held (drainsAt i before) t kind + owed i kind after

/-- Nothing has happened at any gate, and the thread drains none. -/
theorem balances_of_gates (hg : w'.gates = w.gates) (hb : ∀ i, drainsAt i before = false)
    (ha : ∀ i, drainsAt i after = false) (ho : ∀ i kind, owed i kind before = owed i kind after) :
    Balances t w w' before after := by
  intro i kind
  rw [World.gate, World.gate, hg, hb, ha, ho]

/-- A move at one gate balances if it grants what more is to be released. -/
theorem balances_of_move {g : Gate} {d : Bool} {s : Gate.Segment} (hg : w.gates[k]? = some g)
    (m : Gate.Move t g d hold s) (hs : g.Sound) (hw : w'.gates = w.gates.set k s.gate)
    (hb : ∀ i, drainsAt i before = (decide (k = i) && d))
    (ha : ∀ i, drainsAt i after = (decide (k = i) && s.draining))
    (ho : ∀ i kind, (owed i kind after : Int) =
      owed i kind before + if k = i then Gate.gained kind hold s.verdict? else 0) :
    Balances t w w' before after := by
  intro i kind
  have hlt : k < w.gates.length := (List.getElem?_eq_some_iff.1 hg).1
  have howed := ho i kind
  by_cases hki : k = i
  · subst hki
    have hheld := m.held_self hs kind
    have hgate : w'.gate k = s.gate := by
      rw [World.gate, hw, List.getElem?_set_self hlt, Option.getD_some]
    rw [hb, ha, hgate, World.gate_of_some hg]
    simp only [decide_true, Bool.true_and, if_true] at howed ⊢
    omega
  · have hgate : w'.gate i = w.gate i := by
      rw [World.gate, World.gate, hw, List.getElem?_set_ne hki]
    rw [hb, ha, hgate]
    simp only [hki, decide_false, Bool.false_and, if_false, add_zero] at howed ⊢
    omega

/-- The same for a move that ends a request, since no request is open after it. -/
theorem balances_of_done {g g' : Gate} {d : Bool} {room : Option Gate.Room}
    {note : Option Gate.Note} {verdict : Gate.Verdict} (hg : w.gates[k]? = some g)
    (m : Gate.Move t g d hold (.done g' room note verdict)) (hs : g.Sound)
    (hw : w'.gates = w.gates.set k g')
    (hb : ∀ i, drainsAt i before = (decide (k = i) && d)) (ha : ∀ x ∈ after, x.isResume = false)
    (ho : ∀ i kind, (owed i kind after : Int) =
      owed i kind before + if k = i then Gate.gained kind hold (some verdict) else 0) :
    Balances t w w' before after := by
  refine balances_of_move hg m hs hw hb (fun i => ?_) ho
  rw [Gate.Segment.draining, Bool.and_false, drainsAt_eq_false ha]

end Accounts

/-! ### Turns in a scope -/

section OwnTurns

variable {t : ThreadId} {w w' : World} {task : Task} {c : Call} {site : Site} {op : Operation}
  {hold : Hold} {timeout : Timeout} {body : List Call} {panics : Bool} {rest : List Task}
  {segment : Segment}

/-- What a turn can leave to do of its task: nothing, the same call to resume, or the body of a
scope that has got its guard. -/
inductive Remains (task : Task) : List Task → Prop
  | nothing : Remains task []
  | again {wait : Wait} : task.Acquires task.call → Scoped (.resume task.call wait) →
      Remains task [.resume task.call wait]
  | body : task.Acquires task.call → Remains task (ofBody task.call)

/-- A segment of a call that keeps all holds: it is over, or parks at an event. -/
inductive KeepsHolds (w : World) (c : Call) : Segment → Prop
  | ended {w' : World} {ns : List Notice} : w'.gates = w.gates →
      KeepsHolds w c (.done w' ns .nothing)
  | park {i : Nat} {deadline : Deadline} : KeepsHolds w c (.park w c (.event i deadline))

theorem keepsHolds_inspect {look : Gate → Result} : KeepsHolds w c (inspect t c look w) := by
  unfold inspect
  split <;> exact .ended rfl

theorem keepsHolds_atEvent {i : Nat} {deadline : Deadline} :
    KeepsHolds w c (atEvent t c i deadline w) := by
  unfold atEvent
  split
  · exact .ended rfl
  · split
    · exact .park
    · exact .ended rfl

theorem keepsHolds_endFamily {o : Option (Handles × Option Nat)} :
    KeepsHolds w c (endFamily t c o w) := by
  unfold endFamily
  split <;> exact .ended rfl

theorem keepsHolds_withEvent {f : World → Segment} (h : KeepsHolds w c (f w)) :
    KeepsHolds w c (withEvent t c f w) := by
  unfold withEvent
  split
  · exact h
  · exact .ended rfl

/-- **Looks at a gate and calls about events keep all holds.** -/
theorem keepsHolds_perform (h : op.keepsHolds = true) :
    KeepsHolds w (.single site op) (perform t site op w) := by
  cases op with
  | entries => exact keepsHolds_inspect
  | isClosed => exact keepsHolds_inspect
  | snapshot => exact keepsHolds_inspect
  | signal times =>
      simp only [perform]
      refine keepsHolds_withEvent (.ended ?_)
      split <;> rfl
  | wait => exact keepsHolds_atEvent
  | waitFor duration =>
      simp only [perform]
      refine keepsHolds_withEvent ?_
      split
      · exact .ended rfl
      · exact keepsHolds_atEvent
  | createHandle name => exact keepsHolds_withEvent keepsHolds_endFamily
  | cloneHandle source name => exact keepsHolds_endFamily
  | dropHandle name => exact keepsHolds_endFamily
  | _ => cases h

/-- A turn that keeps all holds balances. -/
theorem balances_of_keepsHolds (hop : op.keepsHolds = true)
    (hacquires : task.Acquires (.single site op)) (hcall : task.call = .single site op)
    (hb : ∀ i, drainsAt i (task :: rest) = false) (ho : ∀ i kind, task.releases i kind = false)
    (hrest : ∀ x ∈ rest, x.isResume = false) (h : KeepsHolds w (.single site op) segment) :
    ∃ left, System.afterwards task rest segment = left ++ rest ∧ task.Remains left ∧
      Balances t w segment.world (task :: rest) (left ++ rest) := by
  have howed : ∀ i kind, owed i kind (task :: rest) = owed i kind rest := by
    intro i kind
    rw [owed_cons, ho, if_neg Bool.false_ne_true, Nat.add_zero]
  cases h with
  | ended hg =>
      exact ⟨[], System.afterwards_nothing .., .nothing,
        balances_of_gates hg hb (drainsAt_eq_false hrest) howed⟩
  | @park i deadline =>
      refine ⟨[.resume task.call (.event i deadline)], by rw [hcall]; rfl, ?_, ?_⟩
      · exact .again (hcall ▸ hacquires) (hcall ▸ .look hop)
      · exact balances_of_gates rfl hb (fun i => rfl) fun i kind => (howed i kind).trans rfl

/-- A verdict that neither grants nor releases gains nothing. -/
theorem gained_eq_zero {kind : Hold} {verdict : Gate.Verdict} (hg : verdict ≠ .granted)
    (hr : verdict ≠ .released) : Gate.gained kind hold (some verdict) = 0 := by
  cases verdict <;> simp_all [Gate.gained, Gate.Verdict.gain]

/-- **A turn about the guard of a scope balances**: if the guard is granted, there is one hold more
to be released after the body. -/
theorem balances_of_acquire {f : Gate → Gate.Segment} (hsturdy : w.Sturdy)
    (hc : c = .scope site hold timeout body panics) (hbody : Call.areScoped body = true)
    (hacquires : task.Acquires c) (hrest : ∀ x ∈ rest, x.isResume = false)
    (hdrains : ∀ i, site.gate ≠ i → drainsAt i (task :: rest) = false)
    (hf : ∀ g, w.gates[site.gate]? = some g → g.Sound ∧
      Gate.Move t g (drainsAt site.gate (task :: rest)) hold (f g) ∧
      (f g).verdict? ≠ some .released) :
    ∃ left, System.afterwards task rest (atGate t c site.gate f (conclude t c) w) = left ++ rest ∧
      task.Remains left ∧
      Balances t w (atGate t c site.gate f (conclude t c) w).world (task :: rest)
        (left ++ rest) := by
  have hcall := hacquires.call_eq
  have howed : ∀ i kind, owed i kind (task :: rest) = owed i kind rest :=
    fun i kind => hacquires.owed_eq i kind rest
  have hb : ∀ i, drainsAt i (task :: rest) =
      (decide (site.gate = i) && drainsAt site.gate (task :: rest)) := by
    intro i
    by_cases hi : site.gate = i
    · subst hi
      rw [decide_eq_true rfl, Bool.true_and]
    · rw [hdrains i hi, decide_eq_false hi, Bool.false_and]
  cases hg : w.gates[site.gate]? with
  | none =>
      simp only [atGate, hg]
      refine ⟨[], System.afterwards_nothing .., .nothing, fun i kind => ?_⟩
      simp only [finish, Segment.world, World.gate, World.report, List.nil_append, howed,
        drainsAt_eq_false hrest]
      by_cases hi : site.gate = i
      · subst hi
        simp only [hg, Option.getD_none, Gate.held_fresh]
      · rw [hdrains i hi]
  | some g =>
      obtain ⟨hsound, m, hverdict⟩ := hf g hg
      cases hseg : f g with
      | park g' waiting =>
          rw [hseg] at m
          simp only [atGate, hg, hseg]
          refine ⟨[.resume task.call (.gate site.gate waiting)], by rw [hcall]; rfl, ?_, ?_⟩
          · refine .again (hcall ▸ hacquires) ?_
            rw [hcall, hc]
            exact .acquire hbody (Gate.Crowd.hold_of_park m)
          · refine balances_of_move hg m hsound rfl hb (fun i => rfl) fun i kind => ?_
            rw [howed]
            simp [owed_cons, releases, Gate.Segment.verdict?, Gate.gained]
      | done g' room note verdict =>
          rw [hseg] at m hverdict
          obtain ⟨w', hemit, hgates⟩ :=
            World.Sturdy.emit (w := w.setGate site.gate g') hsturdy note
          simp only [atGate, hg, hseg, hemit]
          by_cases hv : verdict = .granted
          · subst hv hc
            refine ⟨ofBody task.call, by rw [hcall, ← hacquires.follow_body]; rfl,
              .body (hcall ▸ hacquires), ?_⟩
            rw [hcall]
            refine balances_of_done hg m hsound hgates hb ?_ fun i kind => ?_
            · exact List.forall_mem_append.2 ⟨fun x => isResume_of_mem_ofBody, hrest⟩
            · rw [howed, owed_append, owed_ofBody]
              simp only [Gate.gained, Gate.Verdict.gain]
              by_cases hi : site.gate = i <;> by_cases hk : hold = kind <;> simp [hi, hk]
              omega
          · have hreleased : verdict ≠ .released := fun h => hverdict (congrArg some h)
            rw [conclude_of_ne hv]
            refine ⟨[], System.afterwards_nothing .., .nothing, ?_⟩
            refine balances_of_done hg m hsound hgates hb hrest fun i kind => ?_
            rw [howed, gained_eq_zero hv hreleased]
            simp

/-- A thread that has a hold gives it back. -/
theorem begin_disposal {g : Gate} {now : Nat} (hs : g.Sound) (hheld : 0 < g.held false t hold) :
    ∃ g' room note, Gate.begin t now (disposal hold) g = .done g' room note .released := by
  cases hold with
  | entry =>
      obtain ⟨g', room, note, hexit⟩ := Gate.exit_eq g t
      have hinside : 0 < g.depth t := hheld
      rw [if_pos hinside] at hexit
      exact ⟨g', room, note, hexit⟩
  | close =>
      obtain ⟨g', room, note, hreopen⟩ := Gate.reopen_eq g t
      rw [if_pos (hs.isCloser_iff.2 (Gate.closeDepth_pos hheld).1)] at hreopen
      exact ⟨g', room, note, hreopen⟩

/-- **The release of a guard balances**, and its assertion does not fail. -/
theorem balances_of_release (hsturdy : w.Sturdy)
    (hsound : ∀ (i : Nat) (g : Gate), w.gates[i]? = some g → g.Sound)
    (hrest : ∀ x ∈ rest, x.isResume = false)
    (hheld : 0 < (w.gate site.gate).held false t hold) :
    ∃ w' ns, dispose t c hold site.gate w = .done w' ns .nothing ∧
      w.Reports w' t c (ofRelease c) ∧
      Balances t w w' (.release c hold site.gate :: rest) rest := by
  cases hg : w.gates[site.gate]? with
  | none =>
      rw [World.gate, hg, Option.getD_none, Gate.held_fresh] at hheld
      exact absurd hheld (Nat.lt_irrefl 0)
  | some g =>
      rw [World.gate_of_some hg] at hheld
      obtain ⟨g', room, note, hseg⟩ : ∃ g' room note,
          Gate.begin t w.clock (disposal hold) g = .done g' room note .released :=
        begin_disposal (hsound _ g hg) hheld
      have m := Gate.begin_move (t := t) (hsound _ g hg) w.clock (disposal hold)
      have hhold : (disposal hold).hold = hold := by cases hold <;> rfl
      rw [hseg, hhold] at m
      obtain ⟨w', hemit, hgates⟩ := World.Sturdy.emit (w := w.setGate site.gate g') hsturdy note
      have hnotes := (w.setGate site.gate g').notes_emit note
      rw [hemit] at hnotes
      refine ⟨w'.report t c (ofRelease c), _, by simp only [dispose, atGate, hg, hseg, hemit]; rfl,
        reports_of_notes hnotes _, ?_⟩
      have hb : ∀ i, drainsAt i (.release c hold site.gate :: rest) =
          (decide (site.gate = i) && false) := fun i => (Bool.and_false _).symm
      refine balances_of_done hg m (hsound _ g hg) hgates hb hrest fun i kind => ?_
      rw [owed_cons]
      simp only [releases, Gate.gained, Gate.Verdict.gain]
      by_cases hi : site.gate = i <;> by_cases hk : hold = kind <;> simp [hi, hk]

/-- **Every turn of a thread in a scope balances**, if it has what it still has to release; and the
release of a guard answers what it should. -/
theorem Scoped.turn (h : task.Scoped) (hsturdy : w.Sturdy)
    (hsound : ∀ (i : Nat) (g : Gate), w.gates[i]? = some g → g.Sound)
    (hfits : ∀ (c : Call) (i : Nat) (waiting : Gate.Waiting),
      task = .resume c (.gate i waiting) → ∀ g, w.gates[i]? = some g → waiting.Fits g t)
    (hrest : ∀ x ∈ rest, x.isResume = false)
    (howed : ∀ i kind, owed i kind (task :: rest) ≤
      (w.gate i).held (drainsAt i (task :: rest)) t kind) :
    (∃ left, System.afterwards task rest (task.attempt t w) = left ++ rest ∧ task.Remains left ∧
        Balances t w (task.attempt t w).world (task :: rest) (left ++ rest)) ∧
      ∀ c hold i, task = .release c hold i →
        w.Reports (task.attempt t w).world t c (ofRelease c) := by
  cases h with
  | @start c hc =>
      refine ⟨?_, nofun⟩
      cases c with
      | single site op =>
          exact balances_of_keepsHolds hc (.inl rfl) rfl (fun i => rfl) (fun i kind => rfl) hrest
            (keepsHolds_perform hc)
      | scope site hold timeout body panics =>
          refine balances_of_acquire hsturdy rfl hc (.inl rfl) hrest (fun i _ => rfl) fun g hg => ?_
          have m := Gate.begin_move (t := t) (hsound _ g hg) w.clock (acquisition timeout hold)
          have hhold : (acquisition timeout hold).hold = hold := by cases hold <;> rfl
          rw [hhold] at m
          exact ⟨hsound _ g hg, m, Gate.begin_ne_released⟩
  | @look site op i deadline hop =>
      refine ⟨?_, nofun⟩
      exact balances_of_keepsHolds hop (.inr ⟨_, rfl⟩) rfl (fun i => rfl) (fun i kind => rfl) hrest
        keepsHolds_atEvent
  | @acquire site hold timeout body panics waiting hbody hhold =>
      refine ⟨?_, nofun⟩
      refine balances_of_acquire hsturdy rfl hbody (.inr ⟨_, rfl⟩) hrest (fun i hi => ?_)
        fun g hg => ?_
      · rw [drainsAt, decide_eq_false hi, Bool.false_and]
      · have m := Gate.resume_move (hsound _ g hg) (hfits _ _ _ rfl g hg) w.clock
        rw [drainsAt, decide_eq_true rfl, Bool.true_and]
        exact ⟨hsound _ g hg, hhold ▸ m, Gate.resume_ne_released⟩
  | @release site hold timeout body panics =>
      have hheld := howed site.gate hold
      rw [owed_cons] at hheld
      simp only [releases, decide_true, Bool.and_self, if_true] at hheld
      obtain ⟨w', ns, hdone, hreports, hbalances⟩ :=
        balances_of_release (c := .scope site hold timeout body panics) hsturdy hsound hrest
          (Nat.lt_of_lt_of_le (Nat.succ_pos _) hheld)
      simp only [attempt, hdone]
      refine ⟨⟨[], rfl, .nothing, hbalances⟩, ?_⟩
      intro c hold i heq
      cases heq
      exact hreports

end OwnTurns

end Task

end ReentrantGate.Script
