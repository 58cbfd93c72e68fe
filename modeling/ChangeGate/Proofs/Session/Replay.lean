import ChangeGate.Proofs.Session.Journal
import ChangeGate.Proofs.Session.Stretch
/-!
# Every journal can be read

The journal of a run is one that `Follows` reads, and what it reads are the changes of the session
at the end. Callbacks run commands in turn, so the proof goes down with them: what is said of a
stage is said of any reactor that behaves, and `react` behaves by induction on the depth.

What nests inside a running mutation leaves that one alone, since it is refused there. That is
what `Steady` says, and it is the reason why a body still ends as the mutation that began it.
-/

namespace ChangeGate

/-- The changes of a session with their marks, as a journal knows them. -/
def Fits (σ : List Cell) (s : Session) : Prop :=
  s.slots = σ.map fun cell => ⟨cell.change, cell.body.isSome⟩

/-- **What is running keeps running, and nothing else is.** -/
def Steady (σ τ : List Cell) : Prop :=
  ∀ i, body? τ i = body? σ i ∧ ((body? σ i).isSome = true → τ[i]? = σ[i]?)

/-- **A stretch of a run whose journal can be read.** -/
def Replays (s : Session) (journal : List Happening) (s' : Session) : Prop :=
  ∀ σ, Fits σ s → ∃ τ, Follows σ journal τ ∧ Fits τ s' ∧ Steady σ τ

/-- What is left of a run can be read from where it began. -/
def Done.Replays {α : Type} (d : Done α) (s : Session) : Prop :=
  ChangeGate.Replays s d.journal d.session

/-- **A reactor that behaves:** its journal can be read, and it fails with the failure of its last
command. -/
def Reactor.Sound (react : Reactor) : Prop :=
  ∀ notified? reaction s,
    Replays s (react notified? reaction s).journal (react notified? reaction s).session ∧
    ∀ f, (react notified? reaction s).fault = some f →
      (react notified? reaction s).attempts.getLast? = some (.error f)

/-- The failure, if there is one. -/
def failure? {α : Type} : Except Fault α → Option Fault
  | .error f => some f
  | .ok _ => none

variable {σ ρ τ : List Cell} {s s' s'' : Session} {journal later : List Happening}

namespace Steady

theorem refl (σ : List Cell) : Steady σ σ :=
  fun _ => ⟨rfl, fun _ => rfl⟩

theorem trans (hfirst : Steady σ ρ) (hlater : Steady ρ τ) : Steady σ τ := by
  intro i
  obtain ⟨hbody, hcell⟩ := hfirst i
  obtain ⟨hbody', hcell'⟩ := hlater i
  refine ⟨hbody'.trans hbody, fun hrunning => ?_⟩
  rw [hcell' (by rwa [hbody]), hcell hrunning]

/-- A mutation that begins and ends between two states leaves no body behind. -/
theorem ended {i : Nat} {c d : Change} {new last : Cell} (hcell : σ[i]? = some ⟨c, none⟩)
    (hsteady : Steady (σ.set i new) τ) (hlast : τ[i]? = some last) :
    Steady σ (τ.set i ⟨d, none⟩) := by
  intro j
  by_cases hij : i = j
  · subst hij
    simp [body?, hcell, getElem?_put hlast]
  · have h := hsteady j
    simpa only [body?, getElem?_put hcell, getElem?_put hlast, if_neg hij] using h

end Steady

namespace Fits

/-- The cell of a slot. -/
theorem getElem? {i : Nat} {slot : Slot} (hfits : Fits σ s) (hslot : s.slots[i]? = some slot) :
    ∃ cell, σ[i]? = some cell ∧ slot = ⟨cell.change, cell.body.isSome⟩ := by
  rw [hfits, List.getElem?_map] at hslot
  obtain ⟨cell, hcell, heq⟩ := Option.map_eq_some_iff.1 hslot
  exact ⟨cell, hcell, heq.symm⟩

theorem change? (hfits : Fits σ s) (i : Nat) : s.change? i = σ[i]?.map (·.change) := by
  rw [Session.change?, hfits, List.getElem?_map, Option.map_map]
  rfl

theorem changes (hfits : Fits σ s) : s.changes = σ.map (·.change) := by
  rw [Session.changes, hfits, List.map_map]
  rfl

theorem setSlot {i : Nat} {cell : Cell} (hfits : Fits σ s) :
    Fits (σ.set i cell) (s.setSlot i ⟨cell.change, cell.body.isSome⟩) := by
  rw [Fits, Session.setSlot, hfits, List.map_set]

/-- A body may go on without the session taking notice. -/
theorem put {i : Nat} {c : Change} {b b' : Body} (hfits : Fits σ s)
    (hcell : σ[i]? = some ⟨c, some b⟩) : Fits (σ.set i ⟨c, some b'⟩) s := by
  refine List.ext_getElem? fun j => ?_
  rw [hfits, List.getElem?_map, List.getElem?_map, getElem?_put hcell]
  split
  · rename_i hij
    rw [← hij, hcell]
    rfl
  · rfl

theorem release {i : Nat} {c : Change} {b : Body} (hfits : Fits σ s)
    (hcell : σ[i]? = some ⟨c, some b⟩) : Fits (σ.set i ⟨c, none⟩) (s.release i) := by
  refine List.ext_getElem? fun j => ?_
  rw [Session.release, hfits, List.getElem?_modify, List.getElem?_map, List.getElem?_map,
    getElem?_put hcell]
  split
  · rename_i hij
    subst hij
    simp [hcell]
  · simp

end Fits

namespace Replays

/-- What leaves the changes alone needs no journal. -/
theorem same (hslots : s'.slots = s.slots) : Replays s [] s' :=
  fun σ hfits => ⟨σ, .nil, hslots.trans hfits, .refl σ⟩

theorem trans (hfirst : Replays s journal s') (hlater : Replays s' later s'') :
    Replays s (journal ++ later) s'' := by
  intro σ hfits
  obtain ⟨ρ, hfollows, hfits', hsteady⟩ := hfirst σ hfits
  obtain ⟨τ, hfollows', hfits'', hsteady'⟩ := hlater ρ hfits'
  exact ⟨τ, hfollows.append hfollows', hfits'', hsteady.trans hsteady'⟩

/-- A happening that any changes allow and that leaves them as they are. -/
theorem note {h : Happening} (hallows : ∀ σ, Allows σ h σ) (hslots : s'.slots = s.slots) :
    Replays s [h] s' :=
  fun σ hfits => ⟨σ, .single (hallows σ), hslots.trans hfits, .refl σ⟩

end Replays

namespace Done

variable {α β : Type}

theorem replays_ok (s : Session) (a : α) : (Done.ok s a).Replays s :=
  .same rfl

theorem replays_fail (s : Session) (f : Fault) : (Done.fail s f : Done α).Replays s :=
  .same rfl

theorem Replays.next {d : Done α} {f : α → Session → Done β} (hd : d.Replays s)
    (hf : ∀ a s, (f a s).Replays s) : (d.next f).Replays s := by
  unfold Done.next
  split
  · exact hd
  · exact ChangeGate.Replays.trans hd (hf _ _)

end Done

namespace Session

variable {react : Reactor} {supply : Supply}

/-! ## Listeners -/

/-- **A call of a listener** puts its failure on record. Nothing else that is running is
touched. -/
theorem callListener_replays (hreact : react.Sound) {i : Nat} {c : Change} {e : Effect}
    {package : String} (hfits : Fits σ s) (hcell : σ[i]? = some ⟨c, some ⟨.ok e, none⟩⟩)
    (hnotify : e.notify = some package) (listener : Nat) :
    ∃ τ, Follows σ (s.callListener react i listener package).journal τ ∧
      Fits τ (s.callListener react i listener package).session ∧
      Steady (σ.set i ⟨c, some ⟨.ok e, failure? (s.callListener react i listener package).result⟩⟩)
        τ := by
  have hself : σ.set i ⟨c, some ⟨.ok e, none⟩⟩ = σ := put_self hcell
  unfold callListener
  split
  · exact ⟨σ, .nil, hfits, by rw [Done.ok, failure?, hself]; exact .refl σ⟩
  · rename_i l hlistener
    split
    · have hallows : Allows σ (.notified i l.name package none) σ := by
        have h : Allows σ (.notified i l.name package none)
            (σ.set i ⟨c, some ⟨.ok e, none⟩⟩) := .notified hcell hnotify nofun
        rwa [hself] at h
      exact ⟨σ, .single hallows, hfits, by rw [failure?, hself]; exact .refl σ⟩
    · rename_i reaction rest hreactions
      obtain ⟨hreplays, hlast⟩ := hreact (some package) reaction
        { s with listeners := s.listeners.set listener { l with reactions := rest } }
      dsimp only
      generalize react (some package) reaction
        { s with listeners := s.listeners.set listener { l with reactions := rest } } = r
        at hreplays hlast
      have hallows : Allows σ (.notified i l.name package (some r.attempts))
          (σ.set i ⟨c, some ⟨.ok e, r.fault⟩⟩) :=
        .notified hcell hnotify fun f hf => ⟨r.attempts, rfl, hlast f hf⟩
      obtain ⟨τ, hfollows, hfits', hsteady⟩ := hreplays _ (hfits.put hcell)
      refine ⟨τ, .cons hallows hfollows, hfits', ?_⟩
      cases hfault : r.fault <;> simpa [failure?, hfault] using hsteady

theorem tell_replays (hreact : react.Sound) {i : Nat} {c : Change} {e : Effect}
    (hfits : Fits σ s) (hcell : σ[i]? = some ⟨c, some ⟨.ok e, none⟩⟩) (listener : Option Nat) :
    ∃ τ, Follows σ (s.tell react i listener e.notify).journal τ ∧
      Fits τ (s.tell react i listener e.notify).session ∧
      Steady (σ.set i ⟨c, some ⟨.ok e, failure? (s.tell react i listener e.notify).result⟩⟩) τ := by
  unfold tell
  split
  · rename_i l package hnotify
    exact callListener_replays hreact hfits hcell hnotify l
  · refine ⟨σ, .nil, hfits, ?_⟩
    rw [Done.ok, failure?, put_self hcell]
    exact .refl σ

/-! ## Sinks -/

theorem chains_replays : Chains Replays where
  still _ := .same rfl
  trans := Replays.trans

/-- The clock and the sinks are no part of what the journal is read on. -/
theorem delivers_replays (supply : Supply) (i : Nat) : Delivers supply Replays i where
  toChains := chains_replays
  written _ logger _ _ _ _ _ _ := .note (fun _ => .written) (by cases logger.clock <;> rfl)
  delivered _ logger _ _ _ _ _ _ := .note (fun _ => .delivered) (by cases logger.clock <;> rfl)

/-! ## Mutations -/

/-- **A mutation.** Its body is the stretch between `opened` and `closed`; the events go out after
that. -/
theorem mutate_replays (hreact : react.Sound) (i : Nat) (m : Mutation) (s : Session) :
    (s.mutate supply react i m).Replays s := by
  cases hslot : s.slots[i]? with
  | none => rw [mutate_of_none hslot]; exact Done.replays_fail s _
  | some slot =>
    intro σ hfits
    obtain ⟨⟨c, body⟩, hcell, rfl⟩ := hfits.getElem? hslot
    cases body with
    | some b =>
      rw [mutate_of_mutating hslot]
      exact ⟨σ, .single (.refused hcell), hfits, .refl σ⟩
    | none =>
      cases heffect : c.apply m with
      | error error =>
        rw [mutate_of_error hslot heffect]
        -- a mutation that fails by itself ends as soon as it is let in
        have hopened : Allows σ (.opened i m) (σ.set i ⟨c, some ⟨.error error, none⟩⟩) := by
          have h := Allows.opened (m := m) hcell
          rwa [Change.after_of_error heffect, heffect] at h
        have hclosed : Allows (σ.set i ⟨c, some ⟨.error error, none⟩⟩)
            (.closed i (.error (.change error))) σ := by
          have hput : (σ.set i ⟨c, some ⟨.error error, none⟩⟩)[i]? =
              some ⟨c, some ⟨.error error, none⟩⟩ := getElem?_put_self hcell _
          have h := Allows.closed hput
          rw [List.set_set, put_self hcell] at h
          exact h
        exact ⟨σ, .cons hopened (.single hclosed), hfits, .refl σ⟩
      | ok e =>
        rw [mutate_of_ok hslot heffect]
        have hopened : Allows σ (.opened i m) (σ.set i ⟨e.change, some ⟨.ok e, none⟩⟩) := by
          have h := Allows.opened (m := m) hcell
          rwa [Change.after_of_ok heffect, heffect] at h
        have hfits₁ : Fits (σ.set i ⟨e.change, some ⟨.ok e, none⟩⟩)
            (s.setSlot i ⟨e.change, true⟩) := hfits.setSlot
        obtain ⟨τ, htold, hfits₂, hsteady⟩ :=
          tell_replays hreact hfits₁ (getElem?_put_self hcell _) e.change.listener
        change Follows _ (s.announce react i e).journal τ at htold
        change Fits τ (s.announce react i e).session at hfits₂
        change Steady (List.set _ i ⟨e.change, some ⟨.ok e,
          failure? (s.announce react i e).result⟩⟩) τ at hsteady
        generalize s.announce react i e = told at htold hfits₂ hsteady
        rw [List.set_set] at hsteady
        -- whatever the listener did, the change and its body are where they were
        have hcell₂ : τ[i]? = some ⟨e.change, some ⟨.ok e, failure? told.result⟩⟩ := by
          rw [(hsteady i).2 (by simp [body?, getElem?_put_self hcell]), getElem?_put_self hcell]
        have hclosed : Allows τ (.closed i (told.result.map fun _ => e.answer))
            (τ.set i ⟨e.change, none⟩) := by
          have h := Allows.closed hcell₂
          cases hresult : told.result <;> rw [hresult] at h <;> exact h
        obtain ⟨υ, hdelivered, hfits₃, hsteady'⟩ :=
          (delivers_replays supply i).deliver (fun notified? reaction t => (hreact notified? reaction t).1)
            e.events _ _ (hfits₂.release hcell₂)
        exact ⟨υ, .cons hopened (htold.append (.cons hclosed hdelivered)), hfits₃,
          (hsteady.ended hcell hcell₂).trans hsteady'⟩

/-! ## Runs -/

/-- A reaction fails with the failure of the last command that was tried. -/
theorem runSteps_fault (run : Command → Session → Done Answer) (reaction : Reaction) (s : Session)
    (f : Fault) (hfault : (runSteps run reaction s).fault = some f) :
    (runSteps run reaction s).attempts.getLast? = some (.error f) := by
  induction reaction generalizing s with
  | nil => cases hfault
  | cons step rest ih =>
    revert hfault
    unfold runSteps
    dsimp only
    split
    · rintro ⟨⟩
      rfl
    · intro hfault
      rw [List.getLast?_cons, ih _ hfault]
      rfl

theorem react_fault (supply : Supply) (depth : Nat) (notified? : Option String)
    (reaction : Reaction) (s : Session) (f : Fault)
    (hfault : (Session.react supply depth notified? reaction s).fault = some f) :
    (Session.react supply depth notified? reaction s).attempts.getLast? = some (.error f) := by
  cases depth with
  | zero => cases hfault
  | succ depth => exact runSteps_fault _ reaction s f hfault

/-- What is read of mutations is read of whatever consists of them. -/
theorem composes_replays (supply : Supply) : Composes supply Replays where
  toChains := chains_replays
  stored _ _ _ := .same rfl
  reached s := by
    intro σ hfits
    rw [hfits.changes]
    exact ⟨σ, .single .reached, hfits, .refl σ⟩
  mutate depth i m s hreact :=
    mutate_replays (fun notified? reaction t => ⟨hreact notified? reaction t,
      react_fault supply depth notified? reaction t⟩) i m s

/-- **Reactions behave,** however deep they nest. -/
theorem react_sound (supply : Supply) (depth : Nat) : (Session.react supply depth).Sound :=
  fun notified? reaction s => ⟨(composes_replays supply).react depth notified? reaction s,
    react_fault supply depth notified? reaction s⟩

/-! ## One command after the other -/

/-- The session after some commands. -/
def afterAll (supply : Supply) (commands : List Command) (s : Session) : Session :=
  commands.foldl (fun s c => (s.perform supply c).session) s

/-- The journal of some commands. -/
def journalOf (supply : Supply) (commands : List Command) (s : Session) : List Happening :=
  (s.performAll supply commands).flatMap (·.journal)

theorem journalOf_append (supply : Supply) (first second : List Command) (s : Session) :
    s.journalOf supply (first ++ second) =
      s.journalOf supply first ++ (s.afterAll supply first).journalOf supply second := by
  induction first generalizing s with
  | nil => rfl
  | cons c first ih =>
    have hcons : ∀ commands, s.journalOf supply (c :: commands) =
        (s.perform supply c).journal ++ (s.perform supply c).session.journalOf supply commands :=
      fun _ => rfl
    rw [List.cons_append, hcons, hcons, ih, List.append_assoc]
    rfl

/-- **What holds of stretches holds of whole runs.** -/
theorem performAll_composes {R : Session → List Happening → Session → Prop}
    (h : Composes supply R) (commands : List Command) (s : Session) :
    R s (s.journalOf supply commands) (s.afterAll supply commands) := by
  induction commands generalizing s with
  | nil => exact h.still s
  | cons c rest ih =>
    have hrun := h.trans (h.perform c s) (ih _)
    simpa [journalOf, afterAll, performAll] using hrun

theorem performAll_replays (supply : Supply) (commands : List Command) (s : Session) :
    Replays s (s.journalOf supply commands) (s.afterAll supply commands) :=
  performAll_composes (composes_replays supply) commands s

end Session

/-! ## What a stretch of a run leaves in a slot -/

/-- Some cells fit a session, be mutations running or not. -/
theorem exists_fits (s : Session) : ∃ σ, Fits σ s := by
  refine ⟨s.slots.map fun slot =>
    ⟨slot.change, if slot.mutating then some ⟨.ok { change := slot.change }, none⟩ else none⟩, ?_⟩
  refine List.ext_getElem? fun i => ?_
  rw [List.getElem?_map, List.getElem?_map]
  cases s.slots[i]? with
  | none => rfl
  | some slot =>
    obtain ⟨c, mutating⟩ := slot
    cases mutating <;> rfl

namespace Replays

variable {s s' : Session} {journal : List Happening} {i : Nat}

/-- **A change is what was let in makes of it, and its mark stays.** -/
theorem getElem?_slots (h : Replays s journal s') (i : Nat) :
    s'.slots[i]? =
      s.slots[i]?.map fun slot => ⟨slot.change.run (openedOf i journal), slot.mutating⟩ := by
  obtain ⟨σ, hfits⟩ := exists_fits s
  obtain ⟨τ, hfollows, hfits', hsteady⟩ := h σ hfits
  have hchange := hfollows.change i
  have hbody := (hsteady i).1
  rw [hfits', hfits, List.getElem?_map, List.getElem?_map, Option.map_map]
  rw [body?, body?] at hbody
  cases hτ : τ[i]? with
  | none =>
    rw [hτ] at hchange
    cases hσ : σ[i]? with
    | none => rfl
    | some cell =>
      rw [hσ] at hchange
      cases hchange
  | some cell =>
    rw [hτ] at hchange
    obtain ⟨old, hσ, hold⟩ := Option.map_eq_some_iff.1 hchange.symm
    rw [hσ, hτ] at hbody
    rw [hσ]
    have hbody' : cell.body = old.body := hbody
    have hold' : old.change.run (openedOf i journal) = cell.change := hold
    rw [Option.map_some, Option.map_some, hbody', hold'.symm]
    rfl

/-- A slot has been one with the same mark all along. -/
theorem exists_slot (h : Replays s journal s') {d : Change} {mutating : Bool}
    (hslot : s'.slots[i]? = some ⟨d, mutating⟩) :
    ∃ c, s.slots[i]? = some ⟨c, mutating⟩ ∧ d = c.run (openedOf i journal) := by
  rw [h.getElem?_slots] at hslot
  obtain ⟨⟨c, mutating⟩, hc, heq⟩ := Option.map_eq_some_iff.1 hslot
  cases heq
  exact ⟨c, hc, rfl⟩

theorem change? (h : Replays s journal s') (i : Nat) :
    s'.change? i = (s.change? i).map (·.run (openedOf i journal)) := by
  rw [Session.change?, h.getElem?_slots, Session.change?, Option.map_map, Option.map_map]
  rfl

/-- **What is being mutated is left alone.** -/
theorem slots_of_mutating (h : Replays s journal s') {c : Change}
    (hslot : s.slots[i]? = some ⟨c, true⟩) : s'.slots[i]? = some ⟨c, true⟩ := by
  obtain ⟨σ, hfits⟩ := exists_fits s
  obtain ⟨τ, -, hfits', hsteady⟩ := h σ hfits
  obtain ⟨⟨c', body⟩, hcell, heq⟩ := hfits.getElem? hslot
  obtain ⟨rfl, hbody⟩ := Slot.mk.inj heq
  have hsame := (hsteady i).2 (by rw [body?, hcell]; exact hbody.symm)
  rw [hfits', List.getElem?_map, hsame, hcell, hbody]
  rfl

end Replays

end ChangeGate
