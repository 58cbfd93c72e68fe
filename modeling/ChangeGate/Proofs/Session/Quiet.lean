import ChangeGate.Proofs.Session.Journal
import ChangeGate.Session.Run
/-!
# Quiet loggers

A logger is quiet if its sink neither fails nor calls back. With quiet loggers, and the storage in
memory, a mutation that has no listener to tell is what it is of the change alone
(`Quiet.mutate`), and so are the clears and the loads of which a load of the store consists.
-/

namespace ChangeGate

/-- **A logger whose sink neither fails nor calls back.** -/
def Logger.Quiet (l : Logger) : Prop :=
  match l.sink with
  | none => True
  | some (.file _) => True
  | some (.script failOn reactions) => failOn = [] ∧ ∀ reaction ∈ reactions, reaction = []

/-- A reactor for which a reaction without commands is none. -/
def Reactor.Idle (react : Reactor) : Prop :=
  ∀ notified? s, react notified? [] s = { session := s }

namespace Session

theorem react_idle (supply : Supply) (depth : Nat) : (react supply depth).Idle := by
  intro notified? s
  cases depth <;> rfl

/-- **The changes at some places have quiet loggers,** and nothing can go wrong in the storage. -/
structure Quiet (s : Session) (places : List Nat) : Prop where
  memory : ∃ m, s.storage = .memory m
  loggers : ∀ i ∈ places, ∀ logger, s.loggers[i]? = some logger → logger.Quiet

/-- **Listeners that do nothing when they are told.** -/
def ListenersIdle (s : Session) : Prop :=
  ∀ l ∈ s.listeners, ∀ reaction ∈ l.reactions, reaction = []

/-- **A run of callbacks that do nothing:** it does not fail, and leaves the changes alone. -/
structure Unheard (s : Session) (places : List Nat) (d : Done Unit) : Prop where
  result : d.result = .ok ()
  slots : d.session.slots = s.slots
  quiet : d.session.Quiet places
  idle : s.ListenersIdle → d.session.ListenersIdle

/-- **A mutation that is what it is of the change alone.** -/
structure Plain (s : Session) (places : List Nat) (i : Nat) (outcome : Except Fault (Option Bool))
    (new : Change) (d : Done (Option Bool)) : Prop where
  result : d.result = outcome
  slots : d.session.slots = s.slots.set i ⟨new, false⟩
  quiet : d.session.Quiet places
  idle : s.ListenersIdle → d.session.ListenersIdle

variable (supply : Supply) {react : Reactor} {s : Session} {places : List Nat} {i : Nat}

theorem Quiet.unheard (hquiet : s.Quiet places) : Unheard s places (.ok s ()) :=
  ⟨rfl, rfl, hquiet, id⟩

theorem Quiet.setLogger (hquiet : s.Quiet places) {logger : Logger} (hlogger : logger.Quiet) :
    Quiet { s with loggers := s.loggers.set i logger } places := by
  refine ⟨hquiet.memory, fun j hj l hl => ?_⟩
  rw [List.getElem?_set'] at hl
  split at hl
  · obtain ⟨-, -, rfl⟩ := Option.map_eq_some_iff.1 hl
    exact hlogger
  · exact hquiet.loggers j hj l hl

theorem Quiet.callSink (hreact : react.Idle) (hquiet : s.Quiet places) (logger : Logger)
    {reactions : List Reaction} (hreactions : ∀ reaction ∈ reactions, reaction = [])
    (e : StampedEvent) : Unheard s places (s.callSink react i logger [] reactions e) := by
  have hleft : Logger.Quiet { logger with sink := some (.script [] reactions.tail) } :=
    ⟨rfl, fun reaction hmem => hreactions reaction (List.mem_of_mem_tail hmem)⟩
  have hused := hquiet.setLogger (i := i) hleft
  unfold Session.callSink
  cases reactions with
  | nil => exact ⟨rfl, rfl, hused, id⟩
  | cons reaction rest =>
    have hempty := hreactions reaction List.mem_cons_self
    subst hempty
    dsimp only
    rw [if_neg (by simp), hreact]
    exact ⟨rfl, rfl, hused, id⟩

theorem Quiet.deliverOne (hreact : react.Idle) (hquiet : s.Quiet places) (hi : i ∈ places)
    (e : Event) : Unheard s places (s.deliverOne supply react i e) := by
  unfold Session.deliverOne
  split
  · exact hquiet.unheard
  · rename_i logger hlogger
    have hclock : ∀ clock, (s.readClock supply clock).1.Quiet places ∧
        (s.readClock supply clock).1.slots = s.slots ∧
        (s.readClock supply clock).1.listeners = s.listeners := by
      intro clock
      cases clock <;> exact ⟨⟨hquiet.memory, hquiet.loggers⟩, rfl, rfl⟩
    have hlogger' := hquiet.loggers i hi logger hlogger
    split
    · exact hquiet.unheard
    · rename_i sink hsink
      obtain ⟨hquiet', hslots, hlisteners⟩ := hclock logger.clock
      have hidle : s.ListenersIdle → (s.readClock supply logger.clock).1.ListenersIdle :=
        fun h l hl => h l (hlisteners ▸ hl)
      unfold Logger.Quiet at hlogger'
      rw [hsink] at hlogger'
      dsimp only
      split
      · rename_i filename
        obtain ⟨m, hm⟩ := hquiet'.memory
        unfold writeEvent
        rw [hm]
        exact ⟨rfl, hslots, ⟨⟨_, rfl⟩, hquiet'.loggers⟩, hidle⟩
      · obtain ⟨rfl, hreactions⟩ := hlogger'
        obtain ⟨hresult, hslots', hquiet'', hidle'⟩ := hquiet'.callSink (i := i) hreact logger
          hreactions ⟨e, (s.readClock supply logger.clock).2⟩
        exact ⟨hresult, hslots'.trans hslots, hquiet'', hidle' ∘ hidle⟩

theorem Quiet.deliver (hreact : react.Idle) (hquiet : s.Quiet places) (hi : i ∈ places)
    (events : List Event) : Unheard s places (s.deliver supply react i events) := by
  induction events generalizing s with
  | nil => exact hquiet.unheard
  | cons e rest ih =>
    obtain ⟨hresult, hslots, hquiet', hidle⟩ := hquiet.deliverOne supply hreact hi e
    obtain ⟨hresult', hslots', hquiet'', hidle'⟩ := ih hquiet'
    rw [Session.deliver, Done.next, hresult]
    exact ⟨hresult', hslots'.trans hslots, hquiet'', hidle' ∘ hidle⟩

/-! ## Mutations -/

theorem release_setSlot (s : Session) (i : Nat) (c : Change) :
    ((s.setSlot i ⟨c, true⟩).release i).slots = s.slots.set i ⟨c, false⟩ := by
  refine List.ext_getElem? fun j => ?_
  rw [release, setSlot, List.getElem?_modify, List.getElem?_set', List.getElem?_set']
  split
  · cases s.slots[j]? <;> rfl
  · cases s.slots[j]? <;> rfl

/-- **A mutation with a quiet logger,** if nothing is heard from the listener that it tells. -/
theorem Quiet.mutate_of_tell (hreact : react.Idle) (hi : i ∈ places) {c : Change}
    (hslot : s.slots[i]? = some ⟨c, false⟩) {m : Mutation} {e : Effect}
    (happly : c.apply m = .ok e)
    (htell : Unheard (s.setSlot i ⟨e.change, true⟩) places
      ((s.setSlot i ⟨e.change, true⟩).tell react i e.change.listener e.notify)) :
    Plain s places i (.ok e.answer) e.change (s.mutate supply react i m) := by
  unfold Session.mutate
  simp only [hslot, Bool.false_eq_true, if_false, happly]
  generalize (s.setSlot i ⟨e.change, true⟩).tell react i e.change.listener e.notify = told
    at htell
  obtain ⟨htold, hmarked, hquiet, hidle⟩ := htell
  have hreleased : (told.session.release i).Quiet places := ⟨hquiet.memory, hquiet.loggers⟩
  obtain ⟨hresult, hslots, hquiet', hidle'⟩ := hreleased.deliver supply hreact hi e.events
  refine ⟨?_, ?_, hquiet', fun h => hidle' (hidle h)⟩
  · rw [htold, hresult]
    rfl
  · rw [hslots, ← release_setSlot s i e.change, release, release, hmarked]

/-- **A mutation of a change with a quiet logger** that tells no listener. -/
theorem Quiet.mutate (hreact : react.Idle) (hquiet : s.Quiet places) (hi : i ∈ places)
    {c : Change} (hslot : s.slots[i]? = some ⟨c, false⟩) {m : Mutation} {e : Effect}
    (happly : c.apply m = .ok e) (hnotify : e.notify = none) :
    Plain s places i (.ok e.answer) e.change (s.mutate supply react i m) := by
  have hmarked : (s.setSlot i ⟨e.change, true⟩).Quiet places := ⟨hquiet.memory, hquiet.loggers⟩
  refine Quiet.mutate_of_tell supply hreact hi hslot happly ?_
  -- there is nobody to tell
  rw [hnotify]
  unfold Session.tell
  cases e.change.listener <;> exact hmarked.unheard

/-- **Every change is cleared.** -/
theorem Quiet.clearAll (hreact : react.Idle) (hquiet : s.Quiet places) {rest : List Nat}
    (hrest : ∀ i ∈ rest, i ∈ places ∧ ∃ c, s.slots[i]? = some ⟨c, false⟩) :
    (s.clearAll supply react rest).result = .ok () ∧
      (∀ j, (s.clearAll supply react rest).session.slots[j]? =
        if j ∈ rest then s.slots[j]?.map fun slot => ⟨slot.change.clearOverrides.change, false⟩
        else s.slots[j]?) ∧
      (s.clearAll supply react rest).session.Quiet places := by
  induction rest generalizing s with
  | nil => exact ⟨rfl, fun j => by rw [if_neg List.not_mem_nil]; rfl, hquiet⟩
  | cons i rest ih =>
    obtain ⟨hi, c, hslot⟩ := hrest i List.mem_cons_self
    obtain ⟨hresult, hslots, hquiet', -⟩ := hquiet.mutate supply (m := .clearOverrides) hreact hi
      hslot rfl rfl
    have hget : ∀ j, (s.mutate supply react i .clearOverrides).session.slots[j]? =
        if i = j then some ⟨c.clearOverrides.change, false⟩ else s.slots[j]? := by
      intro j
      rw [hslots, getElem?_put hslot]
    obtain ⟨hresult', hslots', hquiet''⟩ := ih hquiet' (fun j hj => by
      obtain ⟨hplace, d, hd⟩ := hrest j (List.mem_cons_of_mem _ hj)
      refine ⟨hplace, ?_⟩
      rw [hget]
      split
      · exact ⟨_, rfl⟩
      · exact ⟨d, hd⟩)
    rw [Session.clearAll, Done.next, hresult]
    refine ⟨hresult', fun j => ?_, hquiet''⟩
    change ((s.mutate supply react i .clearOverrides).session.clearAll supply react
      rest).session.slots[j]? = _
    rw [hslots', hget]
    by_cases hij : i = j
    · subst hij
      simp [hslot, Change.clearOverrides]
    · have hji : j ≠ i := fun h => hij h.symm
      simp [hij, hji]

/-- What an empty change takes is what it has. -/
theorem loadOverrides_of_empty {c : Change} {snapshot : Snapshot} {maps : OverrideMaps}
    (hempty : c.maps = .empty) (hfold : c.foldSnapshot snapshot = .ok maps) :
    ∃ e, c.apply (.loadOverrides snapshot) = .ok e ∧ e.change = { c with maps } ∧
      e.notify = none := by
  rw [Change.apply, Change.loadOverrides, hfold]
  dsimp only
  split
  · rename_i hnone
    refine ⟨_, rfl, ?_, rfl⟩
    rw [OverrideMaps.isEmpty_iff.1 hnone, ← hempty]
  · refine ⟨_, rfl, ?_, rfl⟩
    rw [hempty]
    simp [OverrideMaps.merge, OverrideMaps.empty]

/-- **Every snapshot is loaded** into its own change, if that one is empty and takes it. -/
theorem Quiet.loadAll (hreact : react.Idle) (hquiet : s.Quiet places)
    {plan : List (Nat × Snapshot)} (hnodup : (plan.map (·.1)).Nodup)
    (hplan : ∀ p ∈ plan, p.1 ∈ places ∧ ∃ c maps, s.slots[p.1]? = some ⟨c, false⟩ ∧
      c.maps = .empty ∧ c.foldSnapshot p.2 = .ok maps) :
    (s.loadAll supply react plan).result = .ok () ∧
      (∀ p ∈ plan, ∀ c maps, s.slots[p.1]? = some ⟨c, false⟩ → c.foldSnapshot p.2 = .ok maps →
        (s.loadAll supply react plan).session.slots[p.1]? = some ⟨{ c with maps }, false⟩) ∧
      (∀ j, j ∉ plan.map (·.1) →
        (s.loadAll supply react plan).session.slots[j]? = s.slots[j]?) ∧
      (s.loadAll supply react plan).session.Quiet places := by
  induction plan generalizing s with
  | nil => exact ⟨rfl, fun _ hmem => absurd hmem List.not_mem_nil, fun _ _ => rfl, hquiet⟩
  | cons p plan ih =>
    obtain ⟨i, snapshot⟩ := p
    rw [List.map_cons, List.nodup_cons] at hnodup
    obtain ⟨hi, c, maps, hslot, hempty, hfold⟩ := hplan (i, snapshot) List.mem_cons_self
    dsimp only at hi hslot hfold
    obtain ⟨e, happly, hchange, hnotify⟩ := loadOverrides_of_empty hempty hfold
    obtain ⟨hresult, hslots, hquiet', -⟩ := hquiet.mutate supply hreact hi hslot happly hnotify
    have hget : ∀ j, (s.mutate supply react i (.loadOverrides snapshot)).session.slots[j]? =
        if i = j then some ⟨{ c with maps }, false⟩ else s.slots[j]? := by
      intro j
      rw [hslots, hchange, getElem?_put hslot]
    have hother : ∀ q ∈ plan, i ≠ q.1 := fun q hq heq =>
      hnodup.1 (List.mem_map.2 ⟨q, hq, heq.symm⟩)
    obtain ⟨hresult', hloaded, hrest, hquiet''⟩ := ih hquiet' hnodup.2 (fun q hq => by
      rw [hget, if_neg (hother q hq)]
      exact hplan q (List.mem_cons_of_mem _ hq))
    rw [Session.loadAll, Done.next, hresult]
    refine ⟨hresult', ?_, fun j hj => ?_, hquiet''⟩
    · intro q hq d folded hd hfolded
      rcases List.mem_cons.1 hq with rfl | hq
      · dsimp only at hd hfolded
        rw [hslot] at hd
        cases hd
        rw [hfold] at hfolded
        cases hfolded
        exact (hrest i hnodup.1).trans (by rw [hget, if_pos rfl])
      · refine hloaded q hq d folded ?_ hfolded
        rw [hget, if_neg (hother q hq)]
        exact hd
    · rw [List.map_cons, List.mem_cons, not_or] at hj
      exact (hrest j hj.2).trans (by rw [hget, if_neg fun h => hj.1 h.symm])

end Session

end ChangeGate
