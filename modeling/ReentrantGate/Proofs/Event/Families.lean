/-
**A family of handles signals its event once, at its end.**

Storing a handle under a name in use may end one family while it founds another or adds a handle to
one, perhaps to the same: the old handle goes only after the new one is stored.  A family is alive
as long as one of its handles is, under whatever name, and an operation ends at most one family,
that of the handle which it removes.  A family without handles never comes back.  So the families
that have signalled are those that are no longer alive, each of them once.

Main definitions:

* `Handles.Tidy` — no name is there twice, and every handle belongs to a family of its event;
* `Handles.last?` — the handle whose removal ended a family;
* `Event.Neighbourhood.spent`, `Event.Neighbourhood.signalsOf`, `Event.Neighbourhood.received` — the
  families that have signalled, the signals of one family, and those at one event.

Main results:

* `Handles.alive_perform?` — **which families are alive after an operation**;
* `Event.Neighbourhood.Accounted.act` — every deed keeps the books;
* `Event.Neighbourhood.families_signal_at_end` — **one signal for each family, at its end**.
-/

import Mathlib.Data.List.Nodup
import Mathlib.Data.List.Perm.Basic
import ReentrantGate.Event.Neighbourhood

set_option relaxedAutoImplicit false
set_option autoImplicit false

namespace ReentrantGate

namespace Handles

variable {hs hs' : Handles} {op : Operation} {name : String} {families : List Nat} {h : Handle}
  {k : Nat}

/-! ### Names and families -/

/-- **Handles in order**: no name is there twice, and every handle is of a family that was founded
for its event. -/
structure Tidy (families : List Nat) (hs : Handles) : Prop where
  nodup : (hs.live.map (·.1)).Nodup
  created : hs.created = families.length
  founded : ∀ p ∈ hs.live, families[p.2.family]? = some p.2.event

theorem tidy_empty : Tidy [] {} := ⟨List.nodup_nil, rfl, by simp⟩

theorem alive_iff : hs.alive k = true ↔ ∃ p ∈ hs.live, p.2.family = k := by
  simp [alive]

theorem mem_of_get? (h' : hs.get? name = some h) : (name, h) ∈ hs.live := by
  obtain ⟨before, after, hlive, -⟩ := List.lookup_eq_some_iff.1 h'
  simp [hlive]

theorem get?_of_mem (hn : (hs.live.map (·.1)).Nodup) (hm : (name, h) ∈ hs.live) :
    hs.get? name = some h := by
  obtain ⟨before, after, hlive⟩ := List.append_of_mem hm
  refine List.lookup_eq_some_iff.2 ⟨before, after, hlive, fun p hp => ?_⟩
  rw [hlive, List.map_append, List.map_cons] at hn
  have hne := (List.nodup_append.1 hn).2.2 p.1 (List.mem_map_of_mem hp) name List.mem_cons_self
  simpa using hne.symm

/-- A family is alive because of the handle under a name, or without it. -/
theorem alive_iff_without (hn : (hs.live.map (·.1)).Nodup) (name : String) :
    hs.alive k = true ↔
      (hs.without name).alive k = true ∨ ∃ h, hs.get? name = some h ∧ h.family = k := by
  simp only [alive_iff, without, List.mem_filter]
  constructor
  · rintro ⟨p, hp, hk⟩
    by_cases hname : p.1 = name
    · exact .inr ⟨p.2, get?_of_mem hn (hname ▸ hp), hk⟩
    · exact .inl ⟨p, ⟨hp, by simpa using hname⟩, hk⟩
  · rintro (⟨p, hp, hk⟩ | ⟨h, hget, hk⟩)
    · exact ⟨p, hp.1, hk⟩
    · exact ⟨_, mem_of_get? hget, hk⟩

theorem alive_store : (hs.store name h).1.alive k = true ↔
    h.family = k ∨ (hs.without name).alive k = true := by
  simp [store, alive]

theorem Tidy.without (ht : Tidy families hs) (name : String) : Tidy families (hs.without name) where
  nodup := ht.nodup.sublist (List.filter_sublist.map _)
  created := ht.created
  founded p hp := ht.founded p (List.mem_filter.1 hp).1

theorem Tidy.store (ht : Tidy families hs) (hf : families[h.family]? = some h.event) :
    Tidy families (hs.store name h).1 where
  nodup := by
    refine List.nodup_cons.2 ⟨fun hm => ?_, (ht.without name).nodup⟩
    obtain ⟨p, hp, hname⟩ := List.mem_map.1 hm
    simp [Handles.without, hname] at hp
  created := ht.created
  founded p hp := by
    rcases List.mem_cons.1 hp with rfl | hp
    · exact hf
    · exact (ht.without name).founded p hp

/-- One more family may be founded. -/
theorem Tidy.create (ht : Tidy families hs) (event : Nat) :
    Tidy (families ++ [event]) (hs.create name event).1 := by
  have hnext : Tidy (families ++ [event]) { hs with created := hs.created + 1 } := by
    refine ⟨ht.nodup, by simp [ht.created], fun p hp => ?_⟩
    have hp := ht.founded p hp
    rw [List.getElem?_append_left (List.getElem?_eq_some_iff.1 hp).1]
    exact hp
  exact hnext.store (by simp [ht.created])

/-! ### What an operation does to the families -/

/-- The handle under a name, if nothing is left of its family in `hs'`. -/
def last? (hs hs' : Handles) (name : String) : Option Handle :=
  (hs.get? name).filter fun h => !hs'.alive h.family

theorem last?_eq_some : hs.last? hs' name = some h ↔
    hs.get? name = some h ∧ hs'.alive h.family = false := by
  simp [last?, Option.filter_eq_some_iff]

theorem store_snd :
    (hs.store name h).2 = (hs.last? (hs.store name h).1 name).map (·.event) := by
  simp only [store, last?]
  cases hs.get? name with
  | none => rfl
  | some old =>
      simp only [Option.bind_some, ended, Option.filter]
      split <;> simp_all

/-- **An operation signals for the handle that it removes, if that was the last of its family.** -/
theorem perform?_snd {signalled : Option Nat} (hp : hs.perform? op = some (hs', signalled)) :
    signalled = (hs.last? hs' op.name).map (·.event) := by
  cases op with
  | create name event =>
      cases hp
      exact store_snd
  | clone source name =>
      obtain ⟨h, -, hp⟩ := Option.map_eq_some_iff.1 hp
      cases hp
      exact store_snd
  | drop name =>
      obtain ⟨h, hget, hp⟩ := Option.map_eq_some_iff.1 hp
      cases hp
      simp only [last?, Operation.name, hget, ended, Option.filter]
      split <;> simp_all

/-- What is stored under a name makes its family alive, and what was there before does not count. -/
theorem alive_iff_of_name {P : Prop} (hn : (hs.live.map (·.1)).Nodup)
    (h' : hs'.alive k = true ↔ P ∨ (hs.without name).alive k = true) :
    hs'.alive k = true ↔ P ∨ hs.alive k = true ∧ ∀ h ∈ hs.last? hs' name, h.family ≠ k := by
  constructor
  · intro ha
    rcases h'.1 ha with hP | hw
    · exact .inl hP
    · refine .inr ⟨(alive_iff_without hn name).2 (.inl hw), ?_⟩
      rintro h hlast rfl
      rw [(last?_eq_some.1 hlast).2] at ha
      cases ha
  · rintro (hP | ⟨ha, hlast⟩)
    · exact h'.2 (.inl hP)
    · by_contra hdead
      -- then the handle under the name was the last of the family
      have hw : (hs.without name).alive k ≠ true := fun hw => hdead (h'.2 (.inr hw))
      obtain ⟨h, hget, rfl⟩ := ((alive_iff_without hn name).1 ha).resolve_left hw
      exact hlast h (last?_eq_some.2 ⟨hget, by simpa using hdead⟩) rfl

/-- **After an operation those families are alive that were before**, but for the one whose last
handle it removed, and with the one that it founded. -/
theorem alive_perform? (ht : Tidy families hs) {signalled : Option Nat}
    (hp : hs.perform? op = some (hs', signalled)) (k : Nat) :
    hs'.alive k = true ↔ op.founds? ≠ none ∧ k = families.length ∨
      hs.alive k = true ∧ ∀ h ∈ hs.last? hs' op.name, h.family ≠ k := by
  cases op with
  | create name event =>
      cases hp
      have hstore := @alive_store { hs with created := hs.created + 1 } name ⟨hs.created, event⟩ k
      refine (alive_iff_of_name ht.nodup hstore).trans (or_congr_left ?_)
      simp [Operation.founds?, ht.created, eq_comm]
  | clone source name =>
      obtain ⟨h, hget, hp⟩ := Option.map_eq_some_iff.1 hp
      cases hp
      refine (alive_iff_of_name ht.nodup alive_store).trans ?_
      simp only [Operation.founds?, ne_eq, not_true_eq_false, false_and, false_or]
      refine or_iff_right_of_imp ?_
      -- the family that got one more handle was alive before, and it is alive now
      rintro rfl
      refine ⟨alive_iff.2 ⟨_, mem_of_get? hget, rfl⟩, fun o hlast hfam => ?_⟩
      have hdead := (last?_eq_some.1 hlast).2
      rw [hfam, Bool.eq_false_iff] at hdead
      exact hdead (alive_store.2 (.inl rfl))
  | drop name =>
      obtain ⟨h, hget, hp⟩ := Option.map_eq_some_iff.1 hp
      cases hp
      have hwithout : (hs.without name).alive k = true ↔
          False ∨ (hs.without name).alive k = true := by simp
      simpa [Operation.founds?, Operation.name] using alive_iff_of_name ht.nodup hwithout

theorem Tidy.perform? (ht : Tidy families hs) {signalled : Option Nat}
    (hp : hs.perform? op = some (hs', signalled)) :
    Tidy (families ++ op.founds?.toList) hs' := by
  cases op with
  | create name event =>
      cases hp
      exact ht.create event
  | clone source name =>
      obtain ⟨h, hget, hp⟩ := Option.map_eq_some_iff.1 hp
      cases hp
      simp only [Operation.founds?, Option.toList_none, List.append_nil]
      exact ht.store (ht.founded _ (mem_of_get? hget))
  | drop name =>
      obtain ⟨h, -, hp⟩ := Option.map_eq_some_iff.1 hp
      cases hp
      simpa [Operation.founds?] using ht.without name

/-- An operation goes through exactly if the handle that it needs is there. -/
theorem perform?_isSome_iff :
    (hs.perform? op).isSome = true ↔ ∀ source ∈ op.source?, (hs.get? source).isSome = true := by
  cases op <;> simp [Handles.perform?, clone?, drop?, Operation.source?]

end Handles

namespace Event.Neighbourhood

variable {n n' : Neighbourhood} {d : Deed} {i : Option Incident} {history : List Incident}
  {families : List Nat}

/-! ### The books -/

/-- The families whose end was signalled, in order. -/
def spent (history : List Incident) : List Nat := (history.filterMap (·.last)).map (·.family)

/-- The events that were signalled for family `k`, in order. -/
def signalsOf (k : Nat) (history : List Incident) : List Nat :=
  (history.filter fun i => i.last.any (·.family = k)).map (·.event)

/-- The number of signals that event `e` received from handles. -/
def received (e : Nat) (history : List Incident) : Nat :=
  history.countP fun i => i.event = e && i.last.isSome

/-- An incident that comes from handles is a signal at the event of the family that ended. -/
def Incident.Founded (families : List Nat) (i : Incident) : Prop :=
  ∀ h ∈ i.last, families[h.family]? = some i.event ∧ ∃ wasSet, i.occurrence = .signalled wasSet

/-- Founding more families changes nothing for those that there are. -/
theorem Incident.Founded.append {j : Incident} (h : j.Founded families) (more : List Nat) :
    j.Founded (families ++ more) := by
  intro l hl
  obtain ⟨hk, hsignal⟩ := h l hl
  rw [List.getElem?_append_left (List.getElem?_eq_some_iff.1 hk).1]
  exact ⟨hk, hsignal⟩

theorem spent_append (before after : List Incident) :
    spent (before ++ after) = spent before ++ spent after := by
  simp [spent]

/-- The signals of a family are as many as its ends, and all at its event. -/
theorem signalsOf_eq {k e : Nat} (hk : families[k]? = some e)
    (h : ∀ i ∈ history, i.Founded families) :
    signalsOf k history = List.replicate ((spent history).count k) e := by
  induction history with
  | nil => rfl
  | cons i history ih =>
      have htail := ih fun j hj => h j (List.mem_cons_of_mem _ hj)
      have hi := h i List.mem_cons_self
      obtain ⟨e', o, last⟩ := i
      cases last with
      | none => simpa [signalsOf, spent] using htail
      | some l =>
          by_cases hl : l.family = k
          · have he : e' = e := by
              have := (hi l rfl).1
              rw [hl, hk] at this
              exact (Option.some.inj this).symm
            simpa [signalsOf, spent, hl, he, List.replicate_succ] using htail
          · simpa [signalsOf, spent, hl] using htail

/-- The signals from handles at an event are the ends of its families. -/
theorem received_eq (e : Nat) (h : ∀ i ∈ history, i.Founded families) :
    received e history = (spent history).countP fun k => families[k]? = some e := by
  induction history with
  | nil => rfl
  | cons i history ih =>
      have htail := ih fun j hj => h j (List.mem_cons_of_mem _ hj)
      have hi := h i List.mem_cons_self
      obtain ⟨e', o, last⟩ := i
      cases last with
      | none => simpa [received, spent] using htail
      | some l =>
          have hfam := (hi l rfl).1
          simp only at hfam
          by_cases he : e' = e
          · simpa [received, spent, hfam, he] using htail
          · simpa [received, spent, hfam, he] using htail

/-- **The books of a history**: the handles are in order, every family that was founded has an
event, and those that are no longer alive have signalled it, each of them once. -/
structure Accounted (families : List Nat) (n : Neighbourhood) (history : List Incident) : Prop where
  tidy : n.handles.Tidy families
  events : ∀ e ∈ families, e < n.crowds.length
  founded : ∀ i ∈ history, i.Founded families
  nodup : (spent history).Nodup
  mem_iff : ∀ k, k ∈ spent history ↔ k < families.length ∧ n.handles.alive k = false

/-! ### One deed -/

/-- What happens in a crowd happens nowhere else. -/
theorem inCrowd_eq_some {e : Nat} {a : Action} {last : Option Handle}
    (h : n.inCrowd e a last = some (n', i)) :
    ∃ c c' o, n.crowds[e]? = some c ∧ c.act a = some (c', o) ∧
      n' = { n with crowds := n.crowds.set e c' } ∧ i = o.map (⟨e, ·, last⟩) := by
  obtain ⟨c, hc, h⟩ := Option.bind_eq_some_iff.1 h
  obtain ⟨⟨c', o⟩, ha, h⟩ := Option.map_eq_some_iff.1 h
  cases h
  exact ⟨c, c', o, hc, ha, rfl, rfl⟩

/-- **What an operation on handles does**: the event of the family that it ended is signalled, and
if it ended none then all events are left alone. -/
theorem act_handle_eq_some {op : Handles.Operation} {pick : Nat}
    (h : n.act (.handle op pick) = some (n', i)) :
    (∀ e ∈ op.founds?, e < n.crowds.length) ∧
      (∃ signalled, n.handles.perform? op = some (n'.handles, signalled)) ∧
      match n.handles.last? n'.handles op.name with
      | none => n'.crowds = n.crowds ∧ i = none
      | some l => ∃ c c' wasSet, n.crowds[l.event]? = some c ∧
          c.act (.signal pick) = some (c', some (.signalled wasSet)) ∧
          n'.crowds = n.crowds.set l.event c' ∧ i = some ⟨l.event, .signalled wasSet, some l⟩ := by
  simp only [act] at h
  split at h
  · rename_i hevent
    obtain ⟨⟨hs', signalled⟩, hp, h⟩ := Option.bind_eq_some_iff.1 h
    have hlast := Handles.perform?_snd hp
    cases hl : n.handles.last? hs' op.name with
    | none =>
        rw [hl] at hlast
        subst hlast
        cases h
        exact ⟨hevent, ⟨_, hp⟩, by simp [hl]⟩
    | some l =>
        rw [hl] at hlast
        subst hlast
        simp only [Option.map_some, conclude] at h
        obtain ⟨c, c', o, hc, ha, rfl, rfl⟩ := inCrowd_eq_some h
        cases ha
        exact ⟨hevent, ⟨_, hp⟩, by simp [hl, (Handles.last?_eq_some.1 hl).1, hc, Crowd.act]⟩
  · cases h

/-- An operation on handles spends the family whose last handle it removes. -/
theorem spent_handle {op : Handles.Operation} {pick : Nat}
    (h : n.act (.handle op pick) = some (n', i)) :
    spent i.toList = ((n.handles.last? n'.handles op.name).map (·.family)).toList := by
  obtain ⟨-, -, hm⟩ := act_handle_eq_some h
  generalize n.handles.last? n'.handles op.name = last at hm
  cases last with
  | none => simp [hm.2, spent]
  | some l =>
      obtain ⟨c, c', wasSet, -, -, -, rfl⟩ := hm
      simp [spent]

/-- No event comes or goes. -/
theorem length_crowds_act (h : n.act d = some (n', i)) : n'.crowds.length = n.crowds.length := by
  cases d with
  | inCrowd e a =>
      obtain ⟨c, c', o, -, -, rfl, -⟩ := inCrowd_eq_some h
      simp
  | handle op pick =>
      obtain ⟨-, -, hm⟩ := act_handle_eq_some h
      generalize n.handles.last? n'.handles op.name = last at hm
      cases last with
      | none => rw [hm.1]
      | some l =>
          obtain ⟨c, c', wasSet, -, -, hc, -⟩ := hm
          rw [hc, List.length_set]

namespace Accounted

theorem fresh (events : Nat) : Accounted [] (fresh events) [] :=
  ⟨Handles.tidy_empty, by simp, by simp, List.nodup_nil, by simp [spent]⟩

/-- What happens in a crowd is not on the books. -/
theorem inCrowd (h : Accounted families n history) {e : Nat} {a : Action}
    (hd : n.act (.inCrowd e a) = some (n', i)) : Accounted families n' (history ++ i.toList) := by
  obtain ⟨c, c', o, -, -, rfl, rfl⟩ := inCrowd_eq_some hd
  have hspent : spent (history ++ (o.map (⟨e, ·, none⟩ : Occurrence → Incident)).toList) =
      spent history := by
    cases o <;> simp [spent]
  refine ⟨h.tidy, by simpa using h.events, fun j hj => ?_, hspent ▸ h.nodup, hspent ▸ h.mem_iff⟩
  rcases List.mem_append.1 hj with hj | hj
  · exact h.founded j hj
  · cases o with
    | none => simp at hj
    | some o =>
        cases List.mem_singleton.1 hj
        simp [Incident.Founded]

/-- A handle that was the last of its family was there, so the family was alive. -/
theorem last (h : Accounted families n history) {hs' : Handles} {name : String} {l : Handle}
    (hl : n.handles.last? hs' name = some l) :
    families[l.family]? = some l.event ∧ n.handles.alive l.family = true := by
  have hm := Handles.mem_of_get? (Handles.last?_eq_some.1 hl).1
  exact ⟨h.tidy.founded _ hm, Handles.alive_iff.2 ⟨_, hm, rfl⟩⟩

/-- The end of a family is a signal at its event. -/
theorem founded_of_handle (h : Accounted families n history) {op : Handles.Operation} {pick : Nat}
    {j : Incident} (hd : n.act (.handle op pick) = some (n', some j)) : j.Founded families := by
  obtain ⟨-, -, hm⟩ := act_handle_eq_some hd
  cases hl : n.handles.last? n'.handles op.name with
  | none =>
      rw [hl] at hm
      cases hm.2
  | some l =>
      rw [hl] at hm
      obtain ⟨c, c', wasSet, -, -, -, hj⟩ := hm
      cases hj
      rintro l' ⟨⟩
      exact ⟨(h.last hl).1, wasSet, rfl⟩

/-- **An operation on handles is entered in the books.** -/
theorem handle (h : Accounted families n history) {op : Handles.Operation} {pick : Nat}
    (hd : n.act (.handle op pick) = some (n', i)) :
    Accounted (families ++ op.founds?.toList) n' (history ++ i.toList) := by
  have hspent := spent_handle hd
  obtain ⟨hevent, ⟨signalled, hp⟩, -⟩ := act_handle_eq_some hd
  have halive := Handles.alive_perform? h.tidy hp
  have hlast : ∀ l, n.handles.last? n'.handles op.name = some l →
      families[l.family]? = some l.event ∧ n.handles.alive l.family = true := fun _ => h.last
  generalize n.handles.last? n'.handles op.name = last at hspent halive hlast
  refine ⟨h.tidy.perform? hp, fun e he => ?_, fun j hj => ?_, ?_, fun k => ?_⟩
  · rw [length_crowds_act hd]
    rcases List.mem_append.1 he with he | he
    · exact h.events e he
    · exact hevent e (Option.mem_toList.1 he)
  · rcases List.mem_append.1 hj with hj | hj
    · exact (h.founded j hj).append _
    · cases Option.mem_toList.1 hj
      exact (h.founded_of_handle hd).append _
  · rw [spent_append, hspent]
    refine List.nodup_append.2 ⟨h.nodup, by cases last <;> simp, fun k hk k' hk' => ?_⟩
    -- a family that has signalled is not alive, and the one that ends now was
    rintro rfl
    obtain ⟨l, hl, rfl⟩ := Option.map_eq_some_iff.1 (Option.mem_toList.1 hk')
    have := (hlast l hl).2
    rw [((h.mem_iff _).1 hk).2] at this
    cases this
  · rw [spent_append, hspent, List.mem_append, h.mem_iff, Bool.eq_false_iff, Bool.eq_false_iff,
      ne_eq, ne_eq, halive]
    by_cases hk : k ∈ (last.map (·.family)).toList
    · obtain ⟨l, hl, rfl⟩ := Option.map_eq_some_iff.1 (Option.mem_toList.1 hk)
      have hlt := (List.getElem?_eq_some_iff.1 (hlast l hl).1).1
      simp only [hk, or_true, true_iff, List.length_append, not_or, not_and, not_forall]
      exact ⟨by omega, fun _ => by omega, fun _ => ⟨l, hl, by simp⟩⟩
    · have hother : ∀ l ∈ last, l.family ≠ k := by
        rintro l hl rfl
        exact hk (Option.mem_toList.2 (Option.map_eq_some_iff.2 ⟨l, hl, rfl⟩))
      simp only [hk, or_false, iff_true_intro hother, and_true]
      cases op.founds? with
      | none => simp
      | some e =>
          have hlt : k < families.length ↔
              k < families.length + 1 ∧ k ≠ families.length := by omega
          rw [hlt]
          simp
          tauto

/-- **Every deed is entered in the books.** -/
theorem act (h : Accounted families n history) (hd : n.act d = some (n', i)) :
    Accounted (families ++ d.founds?.toList) n' (history ++ i.toList) := by
  cases d with
  | inCrowd e a => simpa [Deed.founds?] using h.inCrowd hd
  | handle op pick => exact h.handle hd

/-- **The books of a run**, from wherever it starts. -/
theorem run (h : Accounted families n history) {ds : List Deed} {later : List Incident}
    (hr : n.run ds = some (n', later)) :
    Accounted (families ++ Neighbourhood.founded ds) n' (history ++ later) := by
  induction ds generalizing n families history later with
  | nil =>
      cases hr
      simpa [Neighbourhood.founded] using h
  | cons d ds ih =>
      simp only [Neighbourhood.run] at hr
      cases hd : n.act d with
      | none => simp [hd] at hr
      | some p =>
          obtain ⟨m, o⟩ := p
          simp only [hd] at hr
          obtain ⟨⟨m', rest⟩, hrest, hr⟩ := Option.map_eq_some_iff.1 hr
          cases hr
          have htail := ih (h.act hd) hrest
          cases hf : d.founds? <;> simpa [Neighbourhood.founded, hf] using htail

/-- A family that is alive has not signalled, and one that is not alive has, once. -/
theorem count_spent (h : Accounted families n history) {k : Nat} (hk : k < families.length) :
    (spent history).count k = if n.handles.alive k then 0 else 1 := by
  cases ha : n.handles.alive k with
  | true =>
      refine List.count_eq_zero.2 fun hm => ?_
      rw [((h.mem_iff k).1 hm).2] at ha
      cases ha
  | false => exact List.count_eq_one_of_mem h.nodup ((h.mem_iff k).2 ⟨hk, ha⟩)

end Accounted

/-! ### One signal for each family -/

/-- The families that have signalled are those that are no longer alive, in some order. -/
theorem Accounted.spent_perm (h : Accounted families n history) :
    (spent history).Perm ((List.range families.length).filter fun k => !n.handles.alive k) := by
  refine (List.perm_ext_iff_of_nodup h.nodup (List.nodup_range.filter _)).2 fun k => ?_
  simp [h.mem_iff]

/-- **A family ends with the deed that removes its last handle.** -/
theorem Accounted.ends_iff (h : Accounted families n history) (hd : n.act d = some (n', i))
    (k : Nat) : k ∈ spent i.toList ↔ n.handles.alive k = true ∧ n'.handles.alive k = false := by
  cases d with
  | inCrowd e a =>
      obtain ⟨c, c', o, -, -, rfl, rfl⟩ := inCrowd_eq_some hd
      cases o <;> simp [spent]
  | handle op pick =>
      obtain ⟨-, ⟨signalled, hp⟩, -⟩ := act_handle_eq_some hd
      rw [spent_handle hd, Option.mem_toList, Option.map_eq_some_iff]
      constructor
      · rintro ⟨l, hl, rfl⟩
        exact ⟨(h.last hl).2, (Handles.last?_eq_some.1 hl).2⟩
      · rintro ⟨ha, hdead⟩
        rw [Bool.eq_false_iff, ne_eq, Handles.alive_perform? h.tidy hp] at hdead
        by_contra hnone
        exact hdead (.inr ⟨ha, fun l hl hk => hnone ⟨l, hl, hk⟩⟩)

/-- The end of a family leaves the flag of its event set. -/
theorem set_of_last {j : Incident} (hd : n.act d = some (n', some j)) (hj : j.last ≠ none) :
    ∃ c, n'.crowds[j.event]? = some c ∧ c.event.set = true := by
  cases d with
  | inCrowd e a =>
      obtain ⟨c, c', o, -, -, -, ho⟩ := inCrowd_eq_some hd
      obtain ⟨o, -, rfl⟩ := Option.map_eq_some_iff.1 ho.symm
      exact absurd rfl hj
  | handle op pick =>
      obtain ⟨-, -, hm⟩ := act_handle_eq_some hd
      generalize n.handles.last? n'.handles op.name = last at hm
      cases last with
      | none => cases hm.2
      | some l =>
          obtain ⟨c, c', wasSet, hc, ha, hcrowds, hj⟩ := hm
          cases hj
          cases ha
          have hlt := (List.getElem?_eq_some_iff.1 hc).1
          exact ⟨_, by rw [hcrowds, List.getElem?_set_self hlt], rfl⟩

/-- **An operation on handles goes through exactly if what it needs is there**: the event for a new
family, the handle to clone or to drop. -/
theorem Accounted.isSome_act_handle (h : Accounted families n history) (op : Handles.Operation)
    (pick : Nat) : (n.act (.handle op pick)).isSome = true ↔
      (∀ e ∈ op.founds?, e < n.crowds.length) ∧
        ∀ source ∈ op.source?, (n.handles.get? source).isSome = true := by
  rw [← Handles.perform?_isSome_iff]
  simp only [Neighbourhood.act]
  split
  · rename_i hevent
    rw [and_iff_right hevent]
    cases hp : n.handles.perform? op with
    | none => simp
    | some p =>
        obtain ⟨hs', signalled⟩ := p
        have hlast := Handles.perform?_snd hp
        cases hl : n.handles.last? hs' op.name with
        | none =>
            rw [hl] at hlast
            simp [hlast, conclude]
        | some l =>
            -- the event of a family that was founded is there to be signalled
            have hlt := h.events _ (List.mem_of_getElem? (h.last hl).1)
            rw [hl] at hlast
            simp [hlast, conclude, Neighbourhood.inCrowd, Crowd.act, hlt]
  · rename_i hevent
    exact iff_of_false (by simp) fun hpossible => hevent hpossible.1

/-- **A family of handles signals its event once, at its end.**  After any run with any number of
events, a family that has a live handle has signalled nothing, and one that has none has signalled
its own event, once.  So an event has received as many signals from handles as it has families
without a live handle.  A deed signals for a family exactly if the family is alive before it and not
after it, and leaves the flag of the event set.  Operations on handles fail only for want of the
event or the handle that they name. -/
theorem families_signal_at_end {events : Nat} {ds : List Deed}
    (h : (fresh events).run ds = some (n, history)) :
    (∀ k e, (founded ds)[k]? = some e →
      signalsOf k history = if n.handles.alive k then [] else [e]) ∧
      (∀ e, received e history = (List.range (founded ds).length).countP fun k =>
        (founded ds)[k]? = some e && !n.handles.alive k) ∧
      (∀ d n' i, n.act d = some (n', i) →
        (∀ k, k ∈ spent i.toList ↔ n.handles.alive k = true ∧ n'.handles.alive k = false) ∧
          ∀ j ∈ i, j.last ≠ none → ∃ c, n'.crowds[j.event]? = some c ∧ c.event.set = true) ∧
      ∀ op pick, (n.act (.handle op pick)).isSome = true ↔
        (∀ e ∈ op.founds?, e < n.crowds.length) ∧
          ∀ source ∈ op.source?, (n.handles.get? source).isSome = true := by
  have ha : Accounted (founded ds) n history := by
    simpa using (Accounted.fresh events).run h
  refine ⟨fun k e hk => ?_, fun e => ?_, fun d n' i hd => ⟨ha.ends_iff hd, ?_⟩,
    ha.isSome_act_handle⟩
  · rw [signalsOf_eq hk ha.founded, ha.count_spent (List.getElem?_eq_some_iff.1 hk).1]
    cases n.handles.alive k <;> rfl
  · rw [received_eq e ha.founded, ha.spent_perm.countP_eq, List.countP_filter]
  · rintro j rfl hj
    exact set_of_last hd hj

/-- Two families of one event and one of another under three names: a handle is cloned onto itself,
one name takes a handle of the other event, and another ends a family by founding the next, which
wakes a thread. -/
theorem families_signal_at_end_of_aliases :
    let ds : List Deed :=
      [.handle (.create "x" 0) 0, .handle (.create "y" 1) 0, .handle (.clone "x" "z") 0,
        .inCrowd 0 (.wait ⟨"a"⟩ none), .handle (.clone "x" "x") 0, .handle (.clone "y" "x") 0,
        .handle (.create "z" 0) 0, .handle (.drop "y") 0, .handle (.drop "x") 0]
    let n : Neighbourhood :=
      ⟨[⟨⟨true⟩, [], [⟨⟨"a"⟩, none⟩], 0⟩, ⟨⟨true⟩, [], [], 0⟩], ⟨[("z", ⟨2, 0⟩)], 3⟩⟩
    let history : List Incident :=
      [⟨0, .signalled false, some ⟨0, 0⟩⟩, ⟨1, .signalled false, some ⟨1, 1⟩⟩]
    (fresh 2).run ds = some (n, history) ∧ signalsOf 0 history = [0] ∧
      signalsOf 2 history = [] ∧ received 0 history = 1 := by
  intro ds n history
  have hrun : (fresh 2).run ds = some (n, history) := by decide +kernel
  obtain ⟨hsignals, hreceived, -⟩ := families_signal_at_end hrun
  exact ⟨hrun, hsignals 0 0 rfl, hsignals 2 0 rfl, hreceived 0⟩

end Event.Neighbourhood

end ReentrantGate
