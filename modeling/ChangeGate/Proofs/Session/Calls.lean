import ChangeGate.Proofs.Change.Loads
import ChangeGate.Proofs.Session.Covered
import ChangeGate.Proofs.Session.Silent
/-!
# Calls one after the other

A load clears changes and then loads snapshots into them, one call after the other, up to the
first that fails (`callAll`). Each of these calls is of a kind that every change of the profile
takes and of which no listener is told (`Mutation.Bulk`), so only two things can stop them: a
mutation of the change is running, and the call is refused; or the sink fails on an event, and
then the call has had its effect. `callAll_cut` says so, and what the calls that were made did.
-/

namespace ChangeGate

/-! ## Runs one after another -/

namespace Done

variable {α β γ : Type}

theorem next_of_ok {d : Done α} {a : α} (h : d.result = .ok a) (f : α → Session → Done β) :
    d.next f = { f a d.session with journal := d.journal ++ (f a d.session).journal } := by
  rw [next, h]

theorem next_of_error {d : Done α} {fault : Fault} (h : d.result = .error fault)
    (f : α → Session → Done β) :
    d.next f = { session := d.session, journal := d.journal, result := .error fault } := by
  rw [next, h]

theorem next_next (d : Done α) (f : α → Session → Done β) (g : β → Session → Done γ) :
    (d.next f).next g = d.next fun a s => (f a s).next g := by
  cases hd : d.result with
  | error fault => rw [next_of_error hd, next_of_error hd, next_of_error rfl]
  | ok a =>
    rw [next_of_ok hd, next_of_ok hd]
    cases hf : (f a d.session).result with
    | error fault =>
      rw [next_of_error hf, next_of_error]
      exact hf
    | ok b =>
      rw [next_of_ok hf, next_of_ok]
      · dsimp only
        rw [List.append_assoc]
      · exact hf

theorem map_next (d : Done α) (f : α → Session → Done β) (g : β → γ) :
    (d.next f).map g = d.next fun a s => (f a s).map g := by
  cases hd : d.result with
  | error fault =>
    rw [next_of_error hd, next_of_error hd]
    rfl
  | ok a =>
    rw [next_of_ok hd, next_of_ok hd]
    rfl

theorem map_eq_ok {d : Done α} {f : α → β} {b : β} (h : (d.map f).result = .ok b) :
    ∃ a, d.result = .ok a ∧ f a = b := by
  cases hd : d.result with
  | error fault =>
    rw [map, hd] at h
    cases h
  | ok a =>
    rw [map, hd] at h
    cases h
    exact ⟨a, rfl, rfl⟩

theorem map_eq_error {d : Done α} {f : α → β} {fault : Fault}
    (h : (d.map f).result = .error fault) : d.result = .error fault := by
  cases hd : d.result with
  | error other =>
    rw [map, hd] at h
    cases h
    rfl
  | ok a =>
    rw [map, hd] at h
    cases h

end Done

/-! ## Mutations that a change takes in any state -/

/-- **A mutation that every change of a profile takes,** and of which no listener is told. -/
def Mutation.Bulk (profile : Profile) (m : Mutation) : Prop :=
  ∀ c : Change, c.profile = profile → ∃ e, c.apply m = .ok e ∧ e.notify = none

theorem Mutation.bulk_clearOverrides (profile : Profile) : Bulk profile .clearOverrides :=
  fun c _ => ⟨c.clearOverrides, rfl, rfl⟩

/-- A snapshot that is taken once is taken ever after. -/
theorem Mutation.bulk_loadOverrides {c : Change} {snapshot : Snapshot} {maps : OverrideMaps}
    (h : c.foldSnapshot snapshot = .ok maps) : Bulk c.profile (.loadOverrides snapshot) :=
  fun _ hprofile =>
    ⟨_, Change.apply_loadOverrides (Change.foldSnapshot_of_profile hprofile h), rfl⟩

/-- The mutations of a change among some calls, in order. -/
def callsOf (i : Nat) (calls : List (Nat × Mutation)) : List Mutation :=
  calls.filterMap fun call => if call.1 = i then some call.2 else none

theorem callsOf_append (i : Nat) (calls more : List (Nat × Mutation)) :
    callsOf i (calls ++ more) = callsOf i calls ++ callsOf i more :=
  List.filterMap_append

/-- What a call that is let in leaves in the journal. -/
theorem openedOf_call (j i : Nat) (m : Mutation) (outcome : Except Fault (Option Bool))
    (journal : List Happening) :
    openedOf j (.opened i m :: .closed i outcome :: journal) =
      callsOf j [(i, m)] ++ openedOf j journal := by
  by_cases hj : i = j <;> simp [openedOf, callsOf, hj]

/-- **Nothing but calls in a journal:** they are what was let in, and no listener was told. -/
structure Alone (calls : List (Nat × Mutation)) (journal : List Happening) : Prop where
  opened : ∀ i, openedOf i journal = callsOf i calls
  untold : ∀ i listener package reaction, .notified i listener package reaction ∉ journal

namespace Alone

theorem of_logs {journal : List Happening} (h : ∀ happening ∈ journal, happening.Logs) :
    Alone [] journal where
  opened := openedOf_of_logs h
  untold _ _ _ _ hmem := h _ hmem

theorem refused (i : Nat) (m : Mutation) : Alone [] [.refused i m] where
  opened _ := rfl
  untold _ _ _ _ hmem := by simp at hmem

theorem append {calls more : List (Nat × Mutation)} {journal later : List Happening}
    (h : Alone calls journal) (h' : Alone more later) :
    Alone (calls ++ more) (journal ++ later) where
  opened i := by rw [openedOf_append, callsOf_append, h.opened, h'.opened]
  untold i listener package reaction hmem :=
    (List.mem_append.1 hmem).elim (h.untold i listener package reaction)
      (h'.untold i listener package reaction)

/-- A call that is let in, and the delivery of its events. -/
theorem call {journal : List Happening} (h : ∀ happening ∈ journal, happening.Logs) (i : Nat)
    (m : Mutation) (outcome : Except Fault (Option Bool)) :
    Alone [(i, m)] (.opened i m :: .closed i outcome :: journal) where
  opened j := by rw [openedOf_call, openedOf_of_logs h, List.append_nil]
  untold j listener package reaction hmem := by
    simp only [List.mem_cons, reduceCtorEq, false_or] at hmem
    exact h _ hmem

end Alone

namespace Session

variable (supply : Supply) (react : Reactor)

/-- Puts the effect of a mutation in its place and delivers the events. -/
def settle (i : Nat) (e : Effect) (s : Session) : Done Unit :=
  (s.setSlot i ⟨e.change, false⟩).deliver supply react i e.events

/-- **Calls mutations one after the other,** up to the first that fails. -/
def callAll : List (Nat × Mutation) → Session → Done Unit
  | [], s => .ok s ()
  | (i, m) :: rest, s => (s.mutate supply react i m).next fun _ s => callAll rest s

variable {supply react} {s : Session} {i : Nat} {c : Change} {m : Mutation} {e : Effect}

theorem callAll_append (calls more : List (Nat × Mutation)) (s : Session) :
    s.callAll supply react (calls ++ more) =
      (s.callAll supply react calls).next fun _ s => s.callAll supply react more := by
  induction calls generalizing s with
  | nil => rfl
  | cons call calls ih =>
    obtain ⟨i, m⟩ := call
    rw [List.cons_append, callAll, callAll, Done.next_next]
    congr 1
    funext _ t
    exact ih t

theorem clearAll_eq_callAll (places : List Nat) (s : Session) :
    s.clearAll supply react places =
      s.callAll supply react (places.map fun i => (i, .clearOverrides)) := by
  induction places generalizing s with
  | nil => rfl
  | cons i places ih =>
    rw [clearAll, List.map_cons, callAll]
    congr 1
    funext _ t
    exact ih t

theorem loadAll_eq_callAll (plan : List (Nat × Snapshot)) (s : Session) :
    s.loadAll supply react plan =
      s.callAll supply react (plan.map fun p => (p.1, .loadOverrides p.2)) := by
  induction plan generalizing s with
  | nil => rfl
  | cons head plan ih =>
    obtain ⟨i, snapshot⟩ := head
    rw [loadAll, List.map_cons, callAll]
    congr 1
    funext _ t
    exact ih t

theorem callAll_replays (hreact : react.Sound) (calls : List (Nat × Mutation)) (s : Session) :
    (s.callAll supply react calls).Replays s := by
  induction calls generalizing s with
  | nil => exact Done.replays_ok s ()
  | cons call calls ih => exact (mutate_replays hreact call.1 call.2 s).next fun _ t => ih t

/-! ## One call -/

variable (supply react)

/-- **A call that is let in has its effect,** and then the events go out. It ends as their delivery
does. -/
theorem mutate_of_notify_eq_none (hslot : s.slots[i]? = some ⟨c, false⟩)
    (happly : c.apply m = .ok e) (hnotify : e.notify = none) :
    s.mutate supply react i m =
      { session := (s.settle supply react i e).session
        journal := .opened i m :: .closed i (.ok e.answer) :: (s.settle supply react i e).journal
        result := (s.settle supply react i e).result.map fun _ => e.answer } := by
  have htold : s.announce react i e = .ok (s.setSlot i ⟨e.change, true⟩) () := by
    unfold announce tell
    rw [hnotify]
    cases e.change.listener <;> rfl
  have hreleased : (s.setSlot i ⟨e.change, true⟩).release i = s.setSlot i ⟨e.change, false⟩ :=
    congrArg (fun slots => { s with slots }) (release_setSlot s i e.change)
  rw [mutate_of_ok hslot happly, htold]
  unfold settle
  simp only [Done.ok, hreleased]
  congr 1
  cases ((s.setSlot i ⟨e.change, false⟩).deliver supply react i e.events).result <;> rfl

/-- The calls that follow one that did not fail. -/
theorem callAll_cons_of_ok (hslot : s.slots[i]? = some ⟨c, false⟩) (happly : c.apply m = .ok e)
    (hnotify : e.notify = none) (hok : (s.settle supply react i e).result = .ok ())
    (calls : List (Nat × Mutation)) :
    s.callAll supply react ((i, m) :: calls) =
      let d := (s.settle supply react i e).session.callAll supply react calls
      { d with journal := .opened i m :: .closed i (.ok e.answer) ::
          (s.settle supply react i e).journal ++ d.journal } := by
  rw [callAll, mutate_of_notify_eq_none supply react hslot happly hnotify, hok]
  rfl

variable {react}

/-- It can be read from where it began. -/
theorem settle_replays (hreact : react.Sound) (hslot : s.slots[i]? = some ⟨c, false⟩)
    (happly : c.apply m = .ok e) (hnotify : e.notify = none) :
    Replays s (.opened i m :: .closed i (.ok e.answer) :: (s.settle supply react i e).journal)
      (s.settle supply react i e).session := by
  have h : (s.mutate supply react i m).Replays s := mutate_replays hreact i m s
  rw [Done.Replays, mutate_of_notify_eq_none supply react hslot happly hnotify] at h
  exact h

/-- Sinks that do not call back, on the events of a call. -/
theorem Silent.settle {places : List Nat} (hreact : react.Silent) (hs : s.Silent places)
    (hi : i ∈ places) (e : Effect) :
    OnlyLogs (s.setSlot i ⟨e.change, false⟩) places (s.settle supply react i e) :=
  Silent.deliver supply hreact (s := s.setSlot i ⟨e.change, false⟩) hs hi e.events

/-! ## Why calls stop -/

variable (react)

/-- **Why calls stop,** some having been made and others not: the next one finds a mutation of its
change running, or the sink has failed on an event of the last one, which has had its effect. -/
inductive Stopped (s : Session) (made later : List (Nat × Mutation)) (f : Fault) : Prop
  | refused {i : Nat} {m : Mutation} {rest : List (Nat × Mutation)} {c : Change} :
      later = (i, m) :: rest → s.slots[i]? = some ⟨c, true⟩ → f = .reentrant c.profile.id →
      Stopped s made later f
  | undelivered {before : List (Nat × Mutation)} {i : Nat} {m : Mutation} {t : Session}
      {c : Change} {e : Effect} :
      made = before ++ [(i, m)] → t = (s.callAll supply react before).session →
      t.slots[i]? = some ⟨c, false⟩ → c.apply m = .ok e →
      (t.settle supply react i e).result = .error f → Stopped s made later f

/-- **How far some calls came.** Those that were made found no mutation of their change running
and were let in, in order; with the others a failure has its reason. -/
structure Cut (s : Session) (calls made later : List (Nat × Mutation)) : Prop where
  split : calls = made ++ later
  idle : ∀ call ∈ made, ∃ c, s.slots[call.1]? = some ⟨c, false⟩
  opened : ∀ i, (callsOf i made).Sublist (openedOf i (s.callAll supply react calls).journal)
  alone : ∀ places, react.Silent → s.Silent places → (∀ call ∈ calls, call.1 ∈ places) →
    Alone made (s.callAll supply react calls).journal
  completed : (s.callAll supply react calls).result = .ok () → later = []
  stopped : ∀ f, (s.callAll supply react calls).result = .error f →
    Stopped supply react s made later f

variable {supply react} {calls made later : List (Nat × Mutation)} {f : Fault}

namespace Cut

theorem nil (s : Session) : Cut supply react s [] [] [] where
  split := rfl
  idle _ hmem := absurd hmem List.not_mem_nil
  opened _ := List.nil_sublist _
  alone _ _ _ _ := .of_logs fun _ hmem => absurd hmem List.not_mem_nil
  completed _ := rfl
  stopped _ hf := by cases hf

/-- The first call is refused. -/
theorem refused (hslot : s.slots[i]? = some ⟨c, true⟩) (m : Mutation)
    (rest : List (Nat × Mutation)) : Cut supply react s ((i, m) :: rest) [] ((i, m) :: rest) := by
  have hcall : s.callAll supply react ((i, m) :: rest) =
      { session := s, journal := [.refused i m], result := .error (.reentrant c.profile.id) } := by
    rw [callAll, mutate_of_mutating hslot]
    rfl
  exact {
    split := rfl
    idle := fun _ hmem => absurd hmem List.not_mem_nil
    opened := fun _ => List.nil_sublist _
    alone := by
      intro _ _ _ _
      rw [hcall]
      exact .refused i m
    completed := by
      intro hok
      rw [hcall] at hok
      cases hok
    stopped := by
      intro f hf
      rw [hcall] at hf
      cases hf
      exact .refused rfl hslot rfl }

/-- The sink fails on an event of the first call. -/
theorem undelivered (hslot : s.slots[i]? = some ⟨c, false⟩) (happly : c.apply m = .ok e)
    (hnotify : e.notify = none) (hfail : (s.settle supply react i e).result = .error f)
    (rest : List (Nat × Mutation)) : Cut supply react s ((i, m) :: rest) [(i, m)] rest := by
  have hmutate := mutate_of_notify_eq_none supply react hslot happly hnotify
  rw [hfail] at hmutate
  have hcall : s.callAll supply react ((i, m) :: rest) =
      { session := (s.settle supply react i e).session
        journal := .opened i m :: .closed i (.ok e.answer) :: (s.settle supply react i e).journal
        result := .error f } := by
    rw [callAll, hmutate]
    rfl
  exact {
    split := rfl
    idle := by
      intro call hmem
      cases List.mem_singleton.1 hmem
      exact ⟨c, hslot⟩
    opened := by
      intro j
      rw [hcall, openedOf_call]
      exact List.sublist_append_left _ _
    alone := by
      intro places hreact hs hplaces
      have hdelivered := hs.settle supply hreact (hplaces (i, m) List.mem_cons_self) e
      rw [hcall]
      exact .call hdelivered.logs i m _
    completed := by
      intro hok
      rw [hcall] at hok
      cases hok
    stopped := by
      intro fault hfault
      have hlast : [(i, m)] = [] ++ [(i, m)] := rfl
      rw [hcall] at hfault
      cases hfault
      exact .undelivered hlast rfl hslot happly hfail }

/-- The first call is made, and the others come as far as they do. -/
theorem cons (hreact : react.Sound) (hslot : s.slots[i]? = some ⟨c, false⟩)
    (happly : c.apply m = .ok e) (hnotify : e.notify = none)
    (hok : (s.settle supply react i e).result = .ok ())
    (h : Cut supply react (s.settle supply react i e).session calls made later) :
    Cut supply react s ((i, m) :: calls) ((i, m) :: made) later := by
  have hreplays := settle_replays supply hreact hslot happly hnotify
  have hcall := callAll_cons_of_ok supply react hslot happly hnotify hok
  exact {
    split := congrArg _ h.split
    idle := by
      intro call hmem
      rcases List.mem_cons.1 hmem with rfl | hmem
      · exact ⟨c, hslot⟩
      · -- nothing is marked behind a call that was not marked before it
        obtain ⟨d, hd⟩ := h.idle call hmem
        obtain ⟨c, hc, -⟩ := hreplays.exists_slot hd
        exact ⟨c, hc⟩
    opened := by
      intro j
      have hrest := (h.opened j).trans
        (List.sublist_append_right (openedOf j (s.settle supply react i e).journal) _)
      rw [hcall, openedOf_append, openedOf_call, List.append_assoc,
        ← List.singleton_append, callsOf_append]
      exact (List.Sublist.refl _).append hrest
    alone := by
      intro places hreact hs hplaces
      have hdelivered := hs.settle supply hreact (hplaces (i, m) List.mem_cons_self) e
      have hrest := h.alone places hreact hdelivered.silent fun call hmem =>
        hplaces call (List.mem_cons_of_mem _ hmem)
      rw [hcall]
      exact (Alone.call hdelivered.logs i m _).append hrest
    completed := by
      rw [hcall]
      exact h.completed
    stopped := by
      intro f hf
      rw [hcall] at hf
      cases h.stopped f hf with
      | refused hlater hd hfault =>
        obtain ⟨c, hc, rfl⟩ := hreplays.exists_slot hd
        rw [Change.run_profile] at hfault
        exact .refused hlater hc hfault
      | @undelivered before j n t d effect hmade ht hd happly' hfail =>
        have hall : (i, m) :: made = ((i, m) :: before) ++ [(j, n)] := congrArg _ hmade
        have hreached : t = (s.callAll supply react ((i, m) :: before)).session := by
          rw [callAll_cons_of_ok supply react hslot happly hnotify hok, ht]
        exact .undelivered hall hreached hd happly' hfail }

end Cut

/-- **Calls that every change takes come to their end, or to one of the two reasons.** -/
theorem callAll_cut (supply : Supply) (hreact : react.Sound)
    (hbulk : ∀ call ∈ calls, ∃ c, s.change? call.1 = some c ∧ call.2.Bulk c.profile) :
    ∃ made later, Cut supply react s calls made later := by
  induction calls generalizing s with
  | nil => exact ⟨[], [], .nil s⟩
  | cons call calls ih =>
    obtain ⟨i, m⟩ := call
    obtain ⟨c, hc, hm⟩ := hbulk (i, m) List.mem_cons_self
    obtain ⟨⟨c, mutating⟩, hslot, rfl⟩ := Option.map_eq_some_iff.1 hc
    cases mutating with
    | true => exact ⟨[], _, .refused hslot m calls⟩
    | false =>
      obtain ⟨e, happly, hnotify⟩ := hm c rfl
      cases hsettle : (s.settle supply react i e).result with
      | error f => exact ⟨_, _, .undelivered hslot happly hnotify hsettle calls⟩
      | ok _ =>
        have hreplays := settle_replays supply hreact hslot happly hnotify
        obtain ⟨made, later, hcut⟩ := @ih (s.settle supply react i e).session fun call hmem => by
          obtain ⟨d, hd, hbulk⟩ := hbulk call (List.mem_cons_of_mem _ hmem)
          refine ⟨_, by rw [hreplays.change?, hd]; rfl, ?_⟩
          rwa [Change.run_profile]
        exact ⟨_, _, hcut.cons hreact hslot happly hnotify hsettle⟩

end Session

end ChangeGate
