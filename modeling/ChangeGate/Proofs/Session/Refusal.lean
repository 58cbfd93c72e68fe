import ChangeGate.Proofs.Change.Notice
import ChangeGate.Proofs.Change.Refusal
import ChangeGate.Proofs.Session.Delivery
/-!
# Calls that leave no trace

A call that fails on its own account, be it because its change is being mutated or because the change
refuses it, leaves the session exactly as it was, and nobody gets to know of it but the caller
(`Rejects.traceless`).

So a listener that makes such a call does what it would have done without it
(`Rejects.undisturbed`): the mutation that told it ends in the same session, with the same
events logged at the same times, and with the same result if the listener guards the call.
-/

namespace ChangeGate

/-- What happens within a session: no callback is called, nothing goes out, and no clock is read. -/
def Happening.Inner : Happening → Prop
  | .opened _ _ => True
  | .refused _ _ => True
  | .closed _ _ => True
  | _ => False

/-- **A call that leaves nothing but its failure.** The session has the maps and the listener of each
change, what is left of every callback, the count of clock readings and the storage. -/
structure Traceless {α : Type} (s : Session) (f : Fault) (d : Done α) : Prop where
  session : d.session = s
  inner : ∀ h ∈ d.journal, h.Inner
  result : d.result = .error f

/-- What is left of a reaction behind what has already happened in it. -/
def Reacted.behind (r : Reacted) (journal : List Happening)
    (attempts : List Attempt) : Reacted :=
  { r with journal := journal ++ r.journal, attempts := attempts ++ r.attempts }

namespace Session

/-- **A call that fails on its own account:** its change is being mutated, or refuses the mutation;
or it is a check of a snapshot that the change would refuse. -/
inductive Rejects (s : Session) (notified? : Option String) : Command → Fault → Prop
  | reentrant {command : Command} {i : Nat} {m : Mutation} {c : Change} :
      command.mutation? notified? = some (i, m) → s.Marked i c →
      Rejects s notified? command (.reentrant c.profile.id)
  | refused {command : Command} {i : Nat} {m : Mutation} {c : Change} {error : ChangeError} :
      command.mutation? notified? = some (i, m) → s.slots[i]? = some ⟨c, false⟩ →
      c.Refuses m error → Rejects s notified? command (.change error)
  | check {i : Nat} {snapshot : Snapshot} {c : Change} {error : ChangeError} :
      s.change? i = some c → c.RefusesSnapshot snapshot error →
      Rejects s notified? (.checkOverrides i snapshot) (.change error)

variable {supply : Supply} {reactor : Reactor} {s t : Session} {notified? : Option String}
  {command : Command} {f : Fault}

theorem Rejects.traceless (h : Rejects s notified? command f) :
    Traceless s f (s.performWith supply reactor notified? command) := by
  cases h with
  | @reentrant _ i m c hcall hmarked =>
    obtain ⟨answer, hperform⟩ : ∃ answer, s.performWith supply reactor notified? command =
        (s.mutate supply reactor i m).map answer := performWith_of_mutation? hcall
    rw [hperform, mutate_of_mutating hmarked]
    exact ⟨rfl, fun h hmem => List.mem_singleton.1 hmem ▸ trivial, rfl⟩
  | @refused _ i m c error hcall hslot hrefuses =>
    obtain ⟨answer, hperform⟩ : ∃ answer, s.performWith supply reactor notified? command =
        (s.mutate supply reactor i m).map answer := performWith_of_mutation? hcall
    rw [hperform, mutate_of_error hslot hrefuses.apply_eq]
    refine ⟨rfl, fun h hmem => ?_, rfl⟩
    rcases List.mem_cons.1 hmem with rfl | hmem
    · trivial
    · exact List.mem_singleton.1 hmem ▸ trivial
  | check hc hrefuses =>
    unfold performWith
    dsimp only
    rw [hc]
    dsimp only
    rw [Change.checkSnapshot_eq_error_iff.2 hrefuses]
    exact ⟨rfl, fun h hmem => absurd hmem List.not_mem_nil, rfl⟩

/-! ## Reactions -/

/-- **Two ends of a reaction that differ by a call that failed with `f`.** -/
structure Alike (guarded : Bool) (f : Fault) (r r' : Reacted) : Prop where
  session : r.session = r'.session
  stamps : stampsOf r.journal = stampsOf r'.journal
  fault : r.fault = if guarded then r'.fault else some f

theorem stampsOf_of_inner {journal : List Happening} (h : ∀ h ∈ journal, h.Inner) :
    stampsOf journal = [] := by
  refine List.filterMap_eq_nil_iff.2 fun happening hmem => ?_
  have hinner := h happening hmem
  cases happening with
  | delivered | written => exact absurd hinner id
  | _ => rfl

section Reactions

variable (run : Command → Session → Done Answer) (step : Step) (rest : Reaction)

/-- A command that fails unguarded ends the reaction. -/
theorem runSteps_cons_of_error (hfail : (run step.command s).result = .error f)
    (hguarded : step.guarded = false) :
    runSteps run (step :: rest) s = {
      session := (run step.command s).session
      journal := .reached s.changes :: (run step.command s).journal
      attempts := [.error f]
      fault := some f } := by
  unfold runSteps
  dsimp only
  rw [hfail, hguarded]

/-- The reaction goes on behind any other command. -/
theorem runSteps_cons (hgoes : ∀ f, (run step.command s).result = .error f → step.guarded = true) :
    runSteps run (step :: rest) s = (runSteps run rest (run step.command s).session).behind
      (.reached s.changes :: (run step.command s).journal) [(run step.command s).result] := by
  rw [runSteps]
  dsimp only
  split
  · rename_i g hfail hguarded
    rw [hgoes g hfail] at hguarded
    cases hguarded
  · rfl

/-- **A reaction goes on behind commands that did not end it.** -/
theorem runSteps_append (first : Reaction) (hfault : (runSteps run first s).fault = none) :
    runSteps run (first ++ rest) s = (runSteps run rest (runSteps run first s).session).behind
      (runSteps run first s).journal (runSteps run first s).attempts := by
  induction first generalizing s with
  | nil => rfl
  | cons step first ih =>
    have hgoes : ∀ f, (run step.command s).result = .error f → step.guarded = true := by
      intro f hfail
      cases hguarded : step.guarded with
      | true => rfl
      | false =>
        rw [runSteps_cons_of_error run step first hfail hguarded] at hfault
        cases hfault
    rw [runSteps_cons run step first hgoes] at hfault
    rw [List.cons_append, runSteps_cons run step _ hgoes, runSteps_cons run step first hgoes,
      ih hfault]
    simp [Reacted.behind]

/-- **A command that leaves no trace might as well be left out,** with what follows it if it ends
the reaction. -/
theorem runSteps_of_traceless (first : Reaction) (hfault : (runSteps run first s).fault = none)
    (htrace : Traceless (runSteps run first s).session f
      (run step.command (runSteps run first s).session)) :
    Alike step.guarded f (runSteps run (first ++ step :: rest) s)
      (runSteps run (first ++ if step.guarded then rest else []) s) := by
  rw [runSteps_append run _ first hfault, runSteps_append run _ first hfault]
  generalize (runSteps run first s).session = t at htrace
  obtain ⟨hsession, hinner, hresult⟩ := htrace
  have hinner' : stampsOf (run step.command t).journal = [] := stampsOf_of_inner hinner
  have hstamps : stampsOf (.reached t.changes :: (run step.command t).journal) = [] := hinner'
  cases hguarded : step.guarded with
  | true =>
    rw [runSteps_cons run step rest fun _ _ => hguarded, hsession]
    refine ⟨rfl, ?_, rfl⟩
    simp only [Reacted.behind, stampsOf_append, hstamps, List.nil_append, if_true]
  | false =>
    rw [runSteps_cons_of_error run step rest hresult hguarded, hsession]
    refine ⟨rfl, ?_, rfl⟩
    simp only [Reacted.behind, stampsOf_append, hstamps]
    rfl

end Reactions

/-! ## The mutation that told the listener -/

/-- A session with a listener that has certain reactions still to come. -/
def listening (s : Session) (l : Nat) (name : String) (reactions : List Reaction) : Session :=
  { s with listeners := s.listeners.set l ⟨name, reactions⟩ }

/-- **A mutation tells a listener,** whose reaction gets as far as the session `t` with the commands
`first`. -/
structure Leads (supply : Supply) (depth i : Nat) (m : Mutation) (c : Change) (e : Effect) (l : Nat)
    (name package : String) (first : Reaction) (rest : List Reaction) (s t : Session) : Prop where
  slot : s.slots[i]? = some ⟨c, false⟩
  applied : c.apply m = .ok e
  listener : e.change.listener = some l
  notify : e.notify = some package
  known : l < s.listeners.length
  goes : (react supply (depth + 1) (some package) first
    ((s.listening l name rest).setSlot i ⟨e.change, true⟩)).fault = none
  reached : (react supply (depth + 1) (some package) first
    ((s.listening l name rest).setSlot i ⟨e.change, true⟩)).session = t

/-- **Two ends of a mutation whose listener made a call that failed with `f` or did not.** Even what
the clock showed is the same; and so is the result, unless the failure has left the listener. -/
structure Undisturbed (guarded : Bool) (f : Fault) (id : SafeInt) (d d' : Done (Option Bool)) :
    Prop where
  session : d.session = d'.session
  stamps : stampsOf d.journal = stampsOf d'.journal
  result : ∃ body delivery, d'.result = conclude id body delivery ∧
    d.result = conclude id (if guarded then body else .error f) delivery

variable {depth i l : Nat} {m : Mutation} {c : Change} {e : Effect} {name package : String}
  {first later : Reaction} {rest : List Reaction} {guarded : Bool}

/-- The listener's call is its next reaction. -/
theorem announce_listening (hknown : l < s.listeners.length) (hlistener : e.change.listener = some l)
    (hnotify : e.notify = some package) (reaction : Reaction) :
    (s.listening l name (reaction :: rest)).announce reactor i e =
      let r := reactor (some package) reaction
        ((s.listening l name rest).setSlot i ⟨e.change, true⟩)
      { session := r.session
        journal := .notified i name package (some r.attempts) :: r.journal
        result := match r.fault with
          | none => .ok ()
          | some f => .error f } := by
  have hnext : (s.listening l name (reaction :: rest)).listeners[l]? =
      some ⟨name, reaction :: rest⟩ := by
    rw [listening, List.getElem?_set_self hknown]
  have hused : (s.listening l name (reaction :: rest)).listeners.set l ⟨name, rest⟩ =
      (s.listening l name rest).listeners := List.set_set _
  unfold announce tell
  rw [hlistener, hnotify]
  dsimp only
  unfold callListener
  dsimp only [setSlot]
  rw [hnext]
  dsimp only
  rw [hused]
  rfl

/-- **The mutation that told the listener is not disturbed** by a call that fails on its own
account: neither by what it does nor by what it is told. -/
theorem Rejects.undisturbed (h : Rejects t (some package) command f)
    (hleads : Leads supply depth i m c e l name package first rest s t) (guarded : Bool)
    (later : Reaction) :
    Undisturbed guarded f c.profile.id
      ((s.listening l name ((first ++ ⟨command, guarded⟩ :: later) :: rest)).mutate supply
        (react supply (depth + 1)) i m)
      ((s.listening l name ((first ++ if guarded then later else []) :: rest)).mutate supply
        (react supply (depth + 1)) i m) := by
  obtain ⟨hslot, happly, hlistener, hnotify, hknown, hgoes, rfl⟩ := hleads
  have halike : Alike guarded f _ _ := runSteps_of_traceless
    (performWith supply (react supply depth) (some package)) ⟨command, guarded⟩ later first
    hgoes h.traceless
  have hmutate : ∀ reactions, (s.listening l name reactions).mutate supply
      (react supply (depth + 1)) i m = _ := fun reactions =>
    mutate_of_ok (s := s.listening l name reactions) hslot happly
  rw [hmutate, hmutate, announce_listening hknown hlistener hnotify,
    announce_listening hknown hlistener hnotify]
  dsimp only [react]
  generalize runSteps (performWith supply (react supply depth) (some package))
    (first ++ ⟨command, guarded⟩ :: later) _ = r at halike
  generalize runSteps (performWith supply (react supply depth) (some package))
    (first ++ if guarded then later else []) _ = r' at halike
  obtain ⟨hsession, hstamps, hfault⟩ := halike
  rw [hsession]
  -- the events go out in one and the same session
  generalize deliver supply _ i e.events (r'.session.release i) = delivered
  refine ⟨rfl, ?_, _, delivered.result, rfl, ?_⟩
  · change stampsOf (r.journal ++ .closed i _ :: delivered.journal) =
      stampsOf (r'.journal ++ .closed i _ :: delivered.journal)
    rw [stampsOf_append, stampsOf_append, hstamps]
    rfl
  · rw [hfault]
    cases guarded <;> rfl

/-- **Rejected calls leave no trace.** A call that fails on its own account, outermost or not, leaves
the session as it was. If a listener makes it, the mutation that told the listener is not
disturbed, and more than that: whatever the listeners make of it, each mutation that encloses the
call is upheld. A change refuses nothing for other reasons than those that make a call fail so. -/
theorem performWith_rejected (supply : Supply) {t : Session} {notified? : Option String}
    {command : Command} {f : Fault} (h : Rejects t notified? command f) :
    (∀ reactor, Traceless t f (t.performWith supply reactor notified? command)) ∧
    (∀ depth i m c e l name package first rest s, notified? = some package →
      Leads supply depth i m c e l name package first rest s t → ∀ guarded later,
      Undisturbed guarded f c.profile.id
        ((s.listening l name ((first ++ ⟨command, guarded⟩ :: later) :: rest)).mutate supply
          (react supply (depth + 1)) i m)
        ((s.listening l name ((first ++ if guarded then later else []) :: rest)).mutate supply
          (react supply (depth + 1)) i m)) ∧
    (∀ depth i m (c : Change) (s : Session), s.slots[i]? = some ⟨c, false⟩ → ∃ told body,
      Upheld supply depth i c m s (s.mutate supply (react supply depth) i m) told body) ∧
    ∀ (c : Change) m error, c.Consistent → (c.apply m = .error error ↔ c.Refuses m error) := by
  refine ⟨fun _ => h.traceless, ?_, fun depth _ m _ _ hslot => upheld supply depth m hslot,
    fun _ _ _ hc => Change.apply_eq_error_iff hc⟩
  rintro depth i m c e l name package first rest s rfl hleads guarded later
  exact h.undisturbed hleads guarded later

/-- A change with a listener, and another one. -/
def heeded : Change where
  profile := ⟨.one, none, none, false, false, none, true⟩
  listener := some 0

def unheeded : Change where
  profile := ⟨.minusOne, none, none, false, false, none, true⟩

def meddled : Session where
  slots := [{ change := heeded }, { change := unheeded }]
  loggers := [{ sink := some (.script [] []) }, { sink := some (.script [] []) }]
  listeners := [{ name := "meddler" }]

/-- A range, and bounds that are none. -/
def soundEntry : RawEntry where
  packageName := "app"
  enabled := true

def brokenEntry : RawEntry where
  packageName := "lib"
  min := some (.ofSafeInt .one)
  max := some noGate
  enabled := true

/-- A snapshot of the other one. -/
def spoiled : Snapshot where
  changeId := noGate
  raw := some [soundEntry, brokenEntry]

/-- The first change is overridden. Its listener looks at it and then loads that snapshot into the
other one, in vain. -/
theorem meddled_rejected :
    let m : Mutation := .setRawOverride "app" (.unconditional true) .allowed (some noGate)
    let first : Reaction := [{ command := .query 0 .hasOverrides }]
    let load : Command := .loadOverrides 1 spoiled
    let f : Fault := .change (.bounds (.inverted .one .minusOne))
    ∃ e t, Leads default 0 0 m heeded e 0 "meddler" "app" first [] meddled t ∧
      Rejects t (some "app") load f ∧
      Traceless t f (t.performWith default (react default 0) (some "app") load) ∧
      Undisturbed false f heeded.profile.id
        ((meddled.listening 0 "meddler" [first ++ [⟨load, false⟩]]).mutate default
          (react default 1) 0 m)
        ((meddled.listening 0 "meddler" [first]).mutate default (react default 1) 0 m) := by
  intro m first load f
  obtain ⟨e, he⟩ : ∃ e, heeded.apply m = .ok e :=
    Change.exists_setRawOverride rfl "app" (.unconditional true) .allowed (some noGate)
  have hnotify : e.notify = some "app" := by
    rw [← Change.notice?_of_ok he]
    decide +kernel
  have hleads : Leads default 0 0 m heeded e 0 "meddler" "app" first [] meddled
      ((meddled.listening 0 "meddler" []).setSlot 0 ⟨e.change, true⟩) :=
    ⟨rfl, he, Change.listener_of_apply rfl he, hnotify, by decide, rfl, rfl⟩
  have hentries : spoiled.rawEntries = [soundEntry] ++ brokenEntry :: [] := rfl
  have hsound : ∀ entry ∈ [soundEntry], ∃ p, entry.override = .ok p := fun entry hmem =>
    List.mem_singleton.1 hmem ▸ ⟨_, rfl⟩
  have hbroken : brokenEntry.override = .error (.inverted .one .minusOne) := by decide +kernel
  have hrejects : Rejects ((meddled.listening 0 "meddler" []).setSlot 0 ⟨e.change, true⟩)
      (some "app") load f :=
    .refused rfl rfl (.snapshot (.range (Change.same_idNumber unheeded) hentries hsound hbroken))
  obtain ⟨htraceless, hundisturbed, -⟩ := performWith_rejected default hrejects
  exact ⟨e, _, hleads, hrejects, htraceless _,
    hundisturbed 0 0 m heeded e 0 "meddler" "app" first [] meddled rfl hleads false []⟩

end Session

end ChangeGate
