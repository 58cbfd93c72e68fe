import ChangeGate.Proofs.Session.Covered
import ChangeGate.Proofs.Session.Notice
/-!
# Logging-only changes

There are four ways for an override to get into a change: to set it, to reconcile a package that
has a raw one, to load a snapshot, and to load the state file. A logging-only change is closed to
all of them, at three different places: setting is refused, a snapshot with an entry is refused,
and reconciling finds no raw override that could decide anything, so that its own check is never
reached. What is left are mutations without effect, and these tell no listener.

`loggingOnly_stays_empty` says so of every run, whatever the callbacks do: the change stays as its
definition made it (`AsMade`), and all that it shows is what it showed then (`Shows`).
-/

namespace ChangeGate

/-- **A mutation that answers** whether there was something to decide or to remove. -/
def Mutation.Answers : Mutation → Prop
  | .recheck _ _ _ => True
  | .removeRawOverride _ _ _ => True
  | _ => False

namespace Change

/-- **A change that is as it was,** but for its listener. -/
structure AsMade (origin c : Change) : Prop where
  profile : c.profile = origin.profile
  maps : c.maps = origin.maps

variable {origin c : Change} {e : Effect} {m : Mutation}

theorem AsMade.refl (c : Change) : c.AsMade c :=
  ⟨rfl, rfl⟩

/-- A definition makes a change without overrides. -/
theorem ofDefinition_empty {d : Definition} (h : ofDefinition d = .ok c) :
    c.maps = .empty ∧ c.profile.loggingOnly = d.loggingOnly := by
  obtain ⟨profile, hprofile, rfl⟩ := ofDefinition_ok h
  obtain ⟨id, -, rfl⟩ := Option.map_eq_some_iff.1 hprofile
  exact ⟨rfl, rfl⟩

/-! ## Where there are no overrides -/

theorem apply_of_answers (hempty : c.maps = .empty) (hm : m.Answers) :
    c.apply m = .ok { change := c, answer := some false } := by
  cases m with
  | recheck package verdict version => exact reconcile_empty hempty package verdict version
  | removeRawOverride name verdict version =>
    exact removeRawOverride_empty hempty name verdict version
  | registerListener | setRawOverride | clearOverrides | loadOverrides => exact hm.elim

/-! ## A logging-only change -/

/-- **Whatever a logging-only change lets through tells nothing.** -/
theorem notify_of_loggingOnly (hlogging : c.profile.loggingOnly = true) (hempty : c.maps = .empty)
    (h : c.apply m = .ok e) : e.notify = none := by
  cases m with
  | registerListener listener => rw [registerListener_ok h]
  | setRawOverride name override verdict version =>
    rw [(setRawOverride_ok h).1] at hlogging
    cases hlogging
  | recheck package verdict version =>
    rw [apply_of_answers (m := .recheck package verdict version) hempty trivial] at h
    cases h
    rfl
  | removeRawOverride name verdict version =>
    rw [apply_of_answers (m := .removeRawOverride name verdict version) hempty trivial] at h
    cases h
    rfl
  | clearOverrides =>
    cases h
    rfl
  | loadOverrides s =>
    obtain ⟨maps, -, ⟨-, rfl⟩ | ⟨-, rfl⟩⟩ := loadOverrides_ok h <;> rfl

/-- **And leaves it as it was.** -/
theorem AsMade.after (h : origin.AsMade c) (hlogging : origin.profile.loggingOnly = true)
    (hempty : origin.maps = .empty) (m : Mutation) : origin.AsMade (c.after m) where
  profile := (after_profile c m).trans h.profile
  maps := by
    have hconsistent := (consistent_of_empty (h.maps.trans hempty)).after m
    rw [hconsistent.silent (by rw [after_profile, h.profile, hlogging]), hempty]

theorem AsMade.run (h : origin.AsMade c) (hlogging : origin.profile.loggingOnly = true)
    (hempty : origin.maps = .empty) (ms : List Mutation) : origin.AsMade (c.run ms) :=
  run_induction (fun _ hd m _ => hd.after hlogging hempty m) h

end Change

/-! ## What it shows -/

/-- **A call that finds nothing,** and does nothing. In the middle of a mutation of the change it is
refused. -/
structure FindsNothing (s : Session) (slot : Slot) (d : Done Answer) : Prop where
  session : d.session = s
  result : d.result =
    if slot.mutating then .error (.reentrant slot.change.profile.id) else .ok (.flag false)

/-- **What a change shows that never had an override:** nothing to save, the policy that it was
made with, nothing that reconciling could set, and nothing found by a call, whoever makes it. -/
structure Change.Shows (origin c : Change) : Prop where
  empty : c.maps = .empty
  unsaved : c.snapshot? = none
  isEnabled : ∀ app platformSdk, c.isEnabled app platformSdk = origin.isEnabled app platformSdk
  willBeEnabled : ∀ package, c.willBeEnabled package = origin.willBeEnabled package
  text : c.text = origin.text
  unset : ∀ name verdict version, c.reconciled? name verdict version = none
  recheck : ∀ supply react notified? (s : Session) i slot package verdict version,
    s.slots[i]? = some slot → slot.change = c →
    FindsNothing s slot (s.performWith supply react notified? (.recheck i package verdict version))
  remove : ∀ supply react notified? (s : Session) i slot package verdict version,
    s.slots[i]? = some slot → slot.change = c →
    FindsNothing s slot
      (s.performWith supply react notified? (.removeRawOverride i package verdict version))

namespace Session

variable {supply : Supply} {react : Reactor} {s s' s'' : Session} {i : Nat} {c origin : Change}
  {journal later : List Happening}

/-- A mutation that is let in and leaves its change as it was leaves the session as it was. -/
theorem release_setSlot_self (hslot : s.slots[i]? = some ⟨c, false⟩) :
    (s.setSlot i ⟨c, true⟩).release i = s := by
  have hslots : ((s.setSlot i ⟨c, true⟩).release i).slots = s.slots := by
    rw [release_setSlot, put_self hslot]
  calc (s.setSlot i ⟨c, true⟩).release i
      = { s with slots := ((s.setSlot i ⟨c, true⟩).release i).slots } := rfl
    _ = s := by rw [hslots]

/-- **A call about a package of a change without overrides** finds nothing. -/
theorem mutateFlag_of_answers {slot : Slot} {m : Mutation} (hslot : s.slots[i]? = some slot)
    (hempty : slot.change.maps = .empty) (hm : m.Answers) :
    FindsNothing s slot (s.mutateFlag supply react i m) := by
  obtain ⟨c, _ | _⟩ := slot
  · have happly := Change.apply_of_answers hempty hm
    unfold mutateFlag
    rw [mutate_of_ok hslot happly]
    -- there is nobody to tell and nothing to deliver
    have htold : s.announce react i { change := c, answer := some false } =
        .ok (s.setSlot i ⟨c, true⟩) () := by
      unfold announce tell
      cases c.listener <;> rfl
    rw [htold]
    exact ⟨release_setSlot_self hslot, rfl⟩
  · unfold mutateFlag
    rw [mutate_of_mutating hslot]
    exact ⟨rfl, rfl⟩

/-- **A change as it was made shows what it showed then.** -/
theorem shows_of_asMade (h : origin.AsMade c) (hempty : origin.maps = .empty) :
    origin.Shows c := by
  have hmaps : c.maps = .empty := h.maps.trans hempty
  exact {
    empty := hmaps
    unsaved := by
      rw [Change.snapshot?, hmaps]
      rfl
    isEnabled := by
      intro app platformSdk
      unfold Change.isEnabled
      rw [h.maps, h.profile]
    willBeEnabled := by
      intro package
      unfold Change.willBeEnabled
      rw [h.maps, h.profile]
    text := by
      unfold Change.text Change.textParts
      rw [h.maps, h.profile]
    unset := by
      intro name verdict version
      rw [Change.reconciled?, Change.decision?_of_empty hmaps]
      rfl
    recheck := by
      rintro supply react notified? s i slot package verdict version hslot rfl
      exact mutateFlag_of_answers hslot hmaps trivial
    remove := by
      rintro supply react notified? s i slot package verdict version hslot rfl
      unfold performWith
      dsimp only
      split
      · exact mutateFlag_of_answers hslot hmaps trivial
      · exact mutateFlag_of_answers hslot hmaps trivial }

end Session

/-! ## What happens in a run -/

/-- **Each mutation of a change that is let in ends at once,** before anything else happens; and if
it answers, the answer is no. -/
def AtOnce (i : Nat) (journal : List Happening) : Prop :=
  ∀ before m later, journal = before ++ .opened i m :: later →
    ∃ outcome rest, later = .closed i outcome :: rest ∧ (m.Answers → outcome = .ok (some false))

/-- **A stretch in which a change stays as it was made.** Its listener is told nothing, and whoever
looks at it sees it so. -/
structure Uneventful (i : Nat) (origin : Change) (mutating : Bool) (journal : List Happening)
    (s' : Session) : Prop where
  slot : ∃ c, s'.slots[i]? = some ⟨c, mutating⟩ ∧ origin.AsMade c
  reached : ∀ changes, .reached changes ∈ journal → ∃ c, changes[i]? = some c ∧ origin.AsMade c
  untold : noticesOf i journal = []
  atOnce : AtOnce i journal

/-- A stretch that begins with a change as it was made, and is uneventful. -/
def StaysAsMade (i : Nat) (origin : Change) (s : Session) (journal : List Happening)
    (s' : Session) : Prop :=
  ∀ c mutating, s.slots[i]? = some ⟨c, mutating⟩ → origin.AsMade c →
    Uneventful i origin mutating journal s'

variable {supply : Supply} {s s' s'' : Session} {journal later : List Happening} {i j : Nat}
  {c origin : Change}

namespace AtOnce

theorem of_openedOf (h : openedOf i journal = []) : AtOnce i journal := by
  rintro before m later rfl
  have hmem : m ∈ openedOf i (before ++ .opened i m :: later) := mem_openedOf.2 (by simp)
  rw [h] at hmem
  exact absurd hmem List.not_mem_nil

theorem append (hfirst : AtOnce i journal) (hlater : AtOnce i later) :
    AtOnce i (journal ++ later) := by
  intro before m after heq
  rcases List.append_eq_append_iff.1 heq with ⟨middle, rfl, hmiddle⟩ | ⟨middle, rfl, hmiddle⟩
  · exact hlater middle m after hmiddle
  · cases middle with
    | nil => exact hlater [] m after hmiddle.symm
    | cons h middle =>
      obtain ⟨rfl, hafter⟩ := List.cons.inj hmiddle
      obtain ⟨outcome, rest, rfl, houtcome⟩ := hfirst before m middle rfl
      exact ⟨outcome, rest ++ later, hafter, houtcome⟩

/-- A mutation that ends as soon as it is let in. -/
theorem pair {m : Mutation} {outcome : Except Fault (Option Bool)}
    (houtcome : m.Answers → outcome = .ok (some false)) :
    AtOnce i [.opened i m, .closed i outcome] := by
  intro before n after heq
  cases before with
  | nil =>
    obtain ⟨hopened, rfl⟩ := List.cons.inj heq
    cases hopened
    exact ⟨outcome, [], rfl, houtcome⟩
  | cons h before =>
    obtain ⟨-, htail⟩ := List.cons.inj heq
    cases before with
    | nil => cases htail
    | cons h before => simp at htail

end AtOnce

namespace StaysAsMade

theorem trans (hfirst : StaysAsMade i origin s journal s')
    (hlater : StaysAsMade i origin s' later s'') :
    StaysAsMade i origin s (journal ++ later) s'' := by
  intro c mutating hslot hmade
  obtain ⟨⟨d, hslot', hmade'⟩, hreached, huntold, hatOnce⟩ := hfirst c mutating hslot hmade
  obtain ⟨hslot'', hreached', huntold', hatOnce'⟩ := hlater d mutating hslot' hmade'
  refine ⟨hslot'', fun changes hmem => ?_, ?_, hatOnce.append hatOnce'⟩
  · rcases List.mem_append.1 hmem with hmem | hmem
    · exact hreached changes hmem
    · exact hreached' changes hmem
  · rw [noticesOf_append, huntold, huntold']
    rfl

/-- What neither touches the slot nor is about it. -/
theorem note {h : Happening} (hslots : s'.slots[i]? = s.slots[i]?)
    (hreached : ∀ changes, h ≠ .reached changes) (huntold : noticesOf i [h] = [])
    (hopened : openedOf i [h] = []) : StaysAsMade i origin s [h] s' := by
  intro c mutating hslot hmade
  exact {
    slot := ⟨c, hslots.trans hslot, hmade⟩
    reached := fun changes hmem => absurd (List.mem_singleton.1 hmem).symm (hreached changes)
    untold := huntold
    atOnce := .of_openedOf hopened }

theorem still (hslots : s'.slots = s.slots) : StaysAsMade i origin s [] s' := by
  intro c mutating hslot hmade
  exact {
    slot := ⟨c, hslots ▸ hslot, hmade⟩
    reached := fun _ hmem => absurd hmem List.not_mem_nil
    untold := rfl
    atOnce := .of_openedOf rfl }

theorem chains (i : Nat) (origin : Change) : Chains (StaysAsMade i origin) where
  still _ := still rfl
  trans := trans

/-- What goes out says nothing of the change itself. -/
theorem delivers (supply : Supply) (i : Nat) (origin : Change) (j : Nat) :
    Delivers supply (StaysAsMade i origin) j where
  toChains := chains i origin
  written _ logger _ _ _ _ _ _ := by
    cases logger.clock <;> exact note rfl (by simp) rfl rfl
  delivered _ logger _ _ _ _ _ _ := by
    cases logger.clock <;> exact note rfl (by simp) rfl rfl

end StaysAsMade

namespace Session

/-- **A mutation of another change** leaves this one alone, and so do those that it sets off. -/
theorem mutate_other (hji : j ≠ i) (m : Mutation) {react : Reactor}
    (hreact : react.Within (StaysAsMade i origin)) (hslot : s.slots[j]? = some ⟨c, false⟩) :
    (s.mutate supply react j m).Within (StaysAsMade i origin) s := by
  have hopened : ∀ slot, StaysAsMade i origin s [.opened j m] (s.setSlot j slot) :=
    fun _ => .note (List.getElem?_set_ne hji) (by simp) rfl (by simp [openedOf, hji])
  cases happly : c.apply m with
  | error error =>
    have hsame : s.setSlot j ⟨c, false⟩ = s := by rw [setSlot, put_self hslot]
    have hended : StaysAsMade i origin s [.closed j (.error (.change error))] s :=
      .note rfl (by simp) rfl rfl
    rw [mutate_of_error hslot happly]
    exact (hsame ▸ hopened ⟨c, false⟩).trans hended
  | ok e =>
    have htold := (StaysAsMade.chains i origin).tell (i := j)
      (fun _ _ _ _ _ => .note rfl (by simp) (by simp [noticesOf, hji]) rfl) hreact e.change.listener
      e.notify (s.setSlot j ⟨e.change, true⟩)
    rw [mutate_of_ok hslot happly]
    change StaysAsMade i origin _ (s.announce react j e).journal (s.announce react j e).session
      at htold
    generalize s.announce react j e = told at htold
    have hclosed : ∀ outcome,
        StaysAsMade i origin told.session [.closed j outcome] (told.session.release j) :=
      fun _ => .note (by simp [release, hji]) (by simp) rfl rfl
    have hdelivered := (StaysAsMade.delivers supply i origin j).deliver hreact e.events
      (told.session.release j)
    exact ((hopened _).trans htold).trans ((hclosed _).trans hdelivered)

/-- **A mutation of the change itself** has no effect that its listener could be told of. -/
theorem mutate_own (hlogging : origin.profile.loggingOnly = true) (hempty : origin.maps = .empty)
    (m : Mutation) {react : Reactor} (hreact : react.Within (StaysAsMade i origin))
    (hslot : s.slots[i]? = some ⟨c, false⟩) (hmade : origin.AsMade c) :
    Uneventful i origin false (s.mutate supply react i m).journal
      (s.mutate supply react i m).session := by
  have hmaps : c.maps = .empty := hmade.maps.trans hempty
  cases happly : c.apply m with
  | error error =>
    rw [mutate_of_error hslot happly]
    refine ⟨⟨c, hslot, hmade⟩, fun changes hmem => by simp at hmem, rfl, .pair fun hm => ?_⟩
    rw [Change.apply_of_answers hmaps hm] at happly
    cases happly
  | ok e =>
    have hmade' : origin.AsMade e.change := by
      rw [← Change.after_of_ok happly]
      exact hmade.after hlogging hempty m
    have hanswer : m.Answers → e.answer = some false := by
      intro hm
      rw [Change.apply_of_answers hmaps hm] at happly
      cases happly
      rfl
    have htold : s.announce react i e = .ok (s.setSlot i ⟨e.change, true⟩) () := by
      have hnotify := Change.notify_of_loggingOnly (by rw [hmade.profile, hlogging]) hmaps happly
      unfold announce tell
      rw [hnotify]
      cases e.change.listener <;> rfl
    have hslot' :
        ((s.setSlot i ⟨e.change, true⟩).release i).slots[i]? = some ⟨e.change, false⟩ := by
      rw [release_setSlot, getElem?_put_self hslot]
    have hdelivered := (StaysAsMade.delivers supply i origin i).deliver hreact e.events
      ((s.setSlot i ⟨e.change, true⟩).release i) e.change false hslot' hmade'
    have hbody : AtOnce i [.opened i m, .closed i (.ok e.answer)] :=
      .pair fun hm => congrArg Except.ok (hanswer hm)
    rw [mutate_of_ok hslot happly, htold]
    refine ⟨hdelivered.slot, fun changes hmem => ?_, hdelivered.untold,
      hbody.append hdelivered.atOnce⟩
    exact hdelivered.reached changes (by simpa [Done.ok] using hmem)

/-- **Whatever is called back,** a logging-only change stays as it was made. -/
theorem composes_staysAsMade (supply : Supply) (i : Nat)
    (hlogging : origin.profile.loggingOnly = true) (hempty : origin.maps = .empty) :
    Composes supply (StaysAsMade i origin) where
  toChains := StaysAsMade.chains i origin
  stored _ _ _ := .still rfl
  reached s c mutating hslot hmade := by
    have hc : s.changes[i]? = some c := by rw [changes, List.getElem?_map, hslot]; rfl
    refine ⟨⟨c, hslot, hmade⟩, fun changes hmem => ?_, rfl, .of_openedOf rfl⟩
    cases List.mem_singleton.1 hmem
    exact ⟨c, hc, hmade⟩
  mutate depth j m s hreact := by
    cases hslot : s.slots[j]? with
    | none => rw [mutate_of_none hslot]; exact .still rfl
    | some slot =>
      obtain ⟨d, _ | _⟩ := slot
      · by_cases hji : j = i
        · subst hji
          intro c mutating hslot' hmade
          rw [hslot] at hslot'
          cases hslot'
          exact mutate_own hlogging hempty m hreact hslot hmade
        · exact mutate_other hji m hreact hslot
      · rw [mutate_of_mutating hslot]
        exact .note rfl (by simp) rfl rfl

/-! ## A run -/

/-- **A run that leaves a change as it was made.** It is so at the end, in every state that the
journal passes through, and whenever a command of a reaction is reached; its listener is never
called, and each mutation of it ends as soon as it is let in. -/
structure LeavesAsMade (i : Nat) (origin : Change) (s : Session) (journal : List Happening)
    (s' : Session) : Prop where
  ended : ∃ c, s'.slots[i]? = some ⟨c, false⟩ ∧ origin.Shows c
  passed : ∀ σ before later, Fits σ s → journal = before ++ later →
    ∃ τ cell, Follows σ before τ ∧ τ[i]? = some cell ∧ origin.Shows cell.change
  reached : ∀ changes, .reached changes ∈ journal → ∃ c, changes[i]? = some c ∧ origin.Shows c
  untold : ∀ listener package reaction, .notified i listener package reaction ∉ journal
  atOnce : AtOnce i journal

/-- **A logging-only change stays empty** in every run, whatever the listeners and the sinks do. -/
theorem loggingOnly_stays_empty (supply : Supply) (commands : List Command) {s : Session} {i : Nat}
    {d : Definition} {origin : Change} (hd : Change.ofDefinition d = .ok origin)
    (hlogging : d.loggingOnly = true) (hslot : s.slots[i]? = some ⟨origin, false⟩) :
    LeavesAsMade i origin s (s.journalOf supply commands) (s.afterAll supply commands) := by
  obtain ⟨hempty, hprofile⟩ := Change.ofDefinition_empty hd
  have hlogging' : origin.profile.loggingOnly = true := hprofile.trans hlogging
  obtain ⟨⟨c, hslot', hmade⟩, hreached, huntold, hatOnce⟩ :=
    performAll_composes (composes_staysAsMade supply i hlogging' hempty) commands s origin false
      hslot (.refl origin)
  refine ⟨⟨c, hslot', shows_of_asMade hmade hempty⟩, ?_, fun changes hmem => ?_, ?_, hatOnce⟩
  · intro σ before later hfits hjournal
    obtain ⟨τ, hfollows, -, -⟩ := performAll_replays supply commands s σ hfits
    rw [hjournal] at hfollows
    obtain ⟨ρ, hbefore, -⟩ := hfollows.split
    -- what is passed through is what was let in so far makes of the change
    obtain ⟨cell, hcell, heq⟩ := hfits.getElem? hslot
    have horigin : cell.change = origin := (Slot.mk.inj heq).1.symm
    have hchange := hbefore.change i
    rw [hcell, Option.map_some, horigin] at hchange
    obtain ⟨cell', hcell', heq'⟩ := Option.map_eq_some_iff.1 hchange
    refine ⟨ρ, cell', hbefore, hcell', ?_⟩
    rw [heq']
    exact shows_of_asMade ((Change.AsMade.refl origin).run hlogging' hempty _) hempty
  · obtain ⟨c, hc, hmade⟩ := hreached changes hmem
    exact ⟨c, hc, shows_of_asMade hmade hempty⟩
  · intro listener package reaction hmem
    have hnotice : package ∈ noticesOf i (s.journalOf supply commands) :=
      List.mem_filterMap.2 ⟨_, hmem, if_pos rfl⟩
    rw [huntold] at hnotice
    exact absurd hnotice List.not_mem_nil

/-- A definition that allows overrides of a change that is for logging only. -/
def observed : Definition where
  id := .ofSafeInt .one
  loggingOnly := true
  overridable := true

def observedChange : Change where
  profile := ⟨.one, none, none, false, true, none, true⟩

/-- Its sink asks for an override to be removed and then fails, its listener would clear it, and the
state file has a snapshot of it without entries. -/
def observing : Session where
  slots := [{ change := observedChange }]
  loggers := [{ sink := some (.script [] [[
    { command := .removeRawOverride 0 (.named "app") .allowed none },
    { command := .raise "sink" }]]) }]
  listeners := [{ name := "watch", reactions := [[{ command := .clearOverrides 0 }]] }]
  storage := ((Storage.memory {}).writeJson Store.defaultFilename
    (StateFile.toJson ⟨[{ changeId := .ofSafeInt .one }]⟩)).1

/-- All four ways to override it, and a clear. -/
def overrideObserved : List Command :=
  [.registerListener 0 0,
    .setRawOverride 0 (.named "app") { enabled := true } .allowed (some noGate),
    .recheck 0 (.named "app") .allowed (some noGate),
    .loadOverrides 0 { changeId := .ofSafeInt .one, validated := some [⟨"app", true⟩] },
    .load [0] Store.defaultFilename,
    .clearOverrides 0]

theorem observing_stays_empty :
    Change.ofDefinition observed = .ok observedChange ∧ observed.loggingOnly = true ∧
    observing.slots[0]? = some ⟨observedChange, false⟩ ∧
    LeavesAsMade 0 observedChange observing (observing.journalOf default overrideObserved)
      (observing.afterAll default overrideObserved) := by
  have hdefined : Change.ofDefinition observed = .ok observedChange := by
    simp [Change.ofDefinition, Definition.profile?, Definition.gate, observed, observedChange]
  exact ⟨hdefined, rfl, rfl,
    loggingOnly_stays_empty default overrideObserved hdefined rfl rfl⟩

end Session

end ChangeGate
