import ChangeGate.Proofs.Change.Settled
import ChangeGate.Proofs.Session.Delivery
import ChangeGate.Proofs.Session.Independent
import ChangeGate.Proofs.Session.Load
import ChangeGate.Proofs.Session.Notice
/-!
# What a mutation leaves behind

A mutation that is let in does what it does alone before anybody is called back, and a failure of
the listener or of the sink undoes none of it (`Leaves`). What a recheck, a raw override that is
set and one that is removed do to a change is said of the change alone in `Change.Rechecked`,
`Change.Recorded` and `Change.LeftWith`; here it is what calls in a session come to.
-/

namespace ChangeGate

namespace Session

/-- The delivery of what a mutation has queued, once its body has ended. -/
def delivery (supply : Supply) (depth i : Nat) (c : Change) (m : Mutation) (s : Session) :
    Done Unit :=
  (s.afterBody supply depth i c m).deliver supply (react supply depth) i (c.queued m)

/-- **What a mutation leaves behind,** be its callbacks what they are and whether they fail or not.
While the listener is told, the change is as the mutation has made it, and so it is in the end
unless the sink calls it again. The call returns the mutation's own answer or fails, and it does
not fail if neither of the two does. -/
structure Leaves (supply : Supply) (depth i : Nat) (c : Change) (m : Mutation) (s : Session)
    (e : Effect) (told : List Happening) (body : Except Fault (Option Bool)) : Prop
    extends Upheld supply depth i c m s (s.mutate supply (react supply depth) i m) told body where
  effect : c.apply m = .ok e
  alone : openedOf i told = []
  view : ∀ changes, .reached changes ∈ told → changes[i]? = some e.change
  slot : (s.mutate supply (react supply depth) i m).session.slots[i]? =
    some ⟨e.change.run (openedOf i (s.delivery supply depth i c m).journal), false⟩
  silent : s.Silent [i] → (s.mutate supply (react supply depth) i m).session.slots[i]? =
    some ⟨e.change, false⟩
  answered : ∀ a, (s.mutate supply (react supply depth) i m).result = .ok a → a = e.answer
  returns : (∀ f, ¬ ListenerFailed i told f) →
    (s.delivery supply depth i c m).result = .ok () →
    (s.mutate supply (react supply depth) i m).result = .ok e.answer

variable {supply : Supply} {depth i : Nat} {s : Session} {c : Change} {m : Mutation} {e : Effect}
  {told : List Happening} {body : Except Fault (Option Bool)}

/-- A mutation returns a value exactly if its body does and the delivery does not fail. -/
theorem conclude_eq_ok_iff {α : Type} {id : SafeInt} {body : Except Fault α}
    {delivery : Except Fault Unit} {a : α} :
    conclude id body delivery = .ok a ↔ body = .ok a ∧ delivery = .ok () := by
  cases body <;> cases delivery <;> simp [conclude]

/-- Whatever gets to a command while the listener is told finds the change as it is then. -/
theorem Told.view {listener : Option Nat} {package? : Option String} {d : Done Unit}
    (h : Told i c s listener package? d) (changes : List Change)
    (hmem : .reached changes ∈ d.journal) : changes[i]? = some c := by
  rcases h.journal with ⟨hjournal, -⟩ | ⟨name, package, reaction, later, hjournal, -, hspares, -⟩
  · rw [hjournal] at hmem
    cases hmem
  · rw [hjournal] at hmem
    rcases List.mem_cons.1 hmem with heq | hmem
    · cases heq
    · exact hspares _ hmem

/-- What happens while the listener is told is the listener's own call. -/
theorem Upheld.told_eq (h : Upheld supply depth i c m s (s.mutate supply (react supply depth) i m)
    told body) (hslot : s.slots[i]? = some ⟨c, false⟩) (happly : c.apply m = .ok e) :
    told = (s.announce (react supply depth) i e).journal := by
  have hjournal := h.journal
  rw [Change.queued_of_ok happly, afterBody, happly, mutate_of_ok hslot happly] at hjournal
  have htails := (List.append_inj' hjournal (by simp)).1
  exact (List.cons.inj htails).2.symm

/-- A sink that does not call back mutates nothing as the events go out. -/
theorem Upheld.openedOf_delivery (h : Upheld supply depth i c m s
    (s.mutate supply (react supply depth) i m) told body) (hsilent : s.Silent [i]) :
    openedOf i (s.delivery supply depth i c m).journal = [] := by
  have hafter : (s.afterBody supply depth i c m).Silent [i] := by
    intro j hj logger hlogger
    rw [List.mem_singleton.1 hj, h.logger] at hlogger
    exact hsilent i (List.mem_singleton_self i) logger hlogger
  exact openedOf_of_logs (hafter.deliver supply (react_silent supply depth)
    (List.mem_singleton_self i) (c.queued m)).logs i

/-- **A mutation that its change takes leaves behind what it does,** whoever fails. -/
theorem mutate_leaves (supply : Supply) (depth : Nat) (hslot : s.slots[i]? = some ⟨c, false⟩)
    (happly : c.apply m = .ok e) : ∃ told body, Leaves supply depth i c m s e told body := by
  obtain ⟨told, body, h⟩ := upheld supply depth m hslot
  have hannounced := announced supply depth hslot e
  have htold := h.told_eq hslot happly
  have halone : openedOf i told = [] := by rw [htold]; exact hannounced.openedOf_eq
  have hown : body = .ok e.answer ∨ ∃ f, body = .error f ∧ ListenerFailed i told f := by
    rcases h.own with hown | ⟨f, _, hbody, hfailed, -⟩
    · exact Or.inl (by rw [hown, happly]; rfl)
    · exact Or.inr ⟨f, hbody, hfailed⟩
  -- the change is what was let in makes of it: the mutation, and what the sink's calls do after it
  have hslots : (s.mutate supply (react supply depth) i m).session.slots[i]? =
      some ⟨e.change.run (openedOf i (s.delivery supply depth i c m).journal), false⟩ := by
    have hopened : openedOf i (s.mutate supply (react supply depth) i m).journal =
        m :: openedOf i (s.delivery supply depth i c m).journal := by
      have hfirst : openedOf i [.opened i m] = [m] := by simp [openedOf]
      rw [h.journal, List.cons_append, ← List.singleton_append, openedOf_append, openedOf_append,
        halone, hfirst]
      rfl
    rw [(mutate_replays (react_sound supply depth) i m s).getElem?_slots, hslot, hopened,
      Option.map_some, Change.run_cons, Change.after_of_ok happly]
  refine ⟨told, body, {
    toUpheld := h
    effect := happly
    alone := halone
    view := fun changes hmem => hannounced.view changes (htold ▸ hmem)
    slot := hslots
    silent := fun hsilent => by rw [hslots, h.openedOf_delivery hsilent]; rfl
    answered := fun a ha => ?_
    returns := fun hlistener hsink => ?_ }⟩
  · obtain ⟨hbody, -⟩ := conclude_eq_ok_iff.1 (h.result.symm.trans ha)
    rcases hown with hvalue | ⟨f, hfailed, -⟩
    · rw [hvalue] at hbody
      exact (Except.ok.inj hbody).symm
    · rw [hfailed] at hbody
      cases hbody
  · rcases hown with hbody | ⟨f, -, hfailed⟩
    · exact h.result.trans (conclude_eq_ok_iff.2 ⟨hbody, hsink⟩)
    · exact absurd hfailed (hlistener f)

/-! ## Rechecks and raw overrides that are set -/

/-- **Reconciling is settled by the raw override, the verdict and the version.** Whatever state
mutations have led a change to, and whatever was held for the package before: a recheck succeeds and
settles the package, and so does a raw override that is set, unless the change is logging-only. No
failure of the listener or of the sink changes that, and the same recheck in whatever session the
change is next changes nothing and is answered alike. -/
theorem mutate_settles (supply : Supply) (depth : Nat) {s : Session} {i : Nat} {c : Change}
    {name : String} (hslot : s.slots[i]? = some ⟨c, false⟩) (hc : c.Reachable fun _ => True)
    (hname : name ≠ "") (verdict : Verdict) (version : Option Number) :
    (∃ e told body,
      Leaves supply depth i c (.recheck (some name) verdict version) s e told body ∧
      c.Rechecked name verdict version e ∧
      ∀ depth' (t : Session), t.slots[i]? = some ⟨e.change, false⟩ → ∃ e' told' body',
        Leaves supply depth' i e.change (.recheck (some name) verdict version) t e' told' body' ∧
        e'.change = e.change ∧ e'.answer = e.answer) ∧
    ∀ override, c.profile.loggingOnly = false → ∃ e told body,
      Leaves supply depth i c (.setRawOverride name override verdict version) s e told body ∧
      c.Recorded name override verdict version e := by
  constructor
  · obtain ⟨e, happly, hrechecked⟩ := Change.exists_recheck hc.consistent hname verdict version
    obtain ⟨told, body, hleaves⟩ := mutate_leaves supply depth hslot happly
    refine ⟨e, told, body, hleaves, hrechecked, fun depth' t hslot' => ?_⟩
    obtain ⟨e', happly', hchange, hanswer⟩ := hrechecked.again
    obtain ⟨told', body', hleaves'⟩ := mutate_leaves supply depth' hslot' happly'
    exact ⟨e', told', body', hleaves', hchange, hanswer⟩
  · intro override hlogging
    obtain ⟨e, happly, hrecorded⟩ :=
      Change.exists_record hlogging hname override verdict version
    obtain ⟨told, body, hleaves⟩ := mutate_leaves supply depth hslot happly
    exact ⟨e, told, body, hleaves, hrecorded⟩

/-- A snapshot that contradicts itself: the override of `app` is off from version one on, and its
value is on. -/
def contradictory : Snapshot where
  changeId := .ofSafeInt .one
  raw := some [{ packageName := "app", min := some (.ofSafeInt .one), enabled := false }]
  validated := some [⟨"app", true⟩]

/-- A change that has loaded it. -/
def disputed : Change :=
  hosted.after (.loadOverrides contradictory)

/-- Its listener fails, and its sink fails on values that are set. -/
def disputing : Session where
  slots := [{ change := disputed }]
  loggers := [{ sink := some (.script [.evaluatedSet] []) }]
  listeners := [{ name := "strict", reactions := [[{ command := .raise "strict" }]] }]

theorem disputing_settles :
    let verdict := Verdict.allowed
    let version := some (Number.ofSafeInt .one)
    disputing.slots[0]? = some ⟨disputed, false⟩ ∧ disputed.Reachable (fun _ => True) ∧
    disputed.maps.evaluated.get? "app" = some true ∧
    (disputing.mutate default (react default 1) 0
      (.recheck (some "app") verdict version)).result.isOk = false ∧
    ((disputing.mutate default (react default 1) 0
      (.recheck (some "app") verdict version)).session.change? 0).map
        (·.maps.evaluated.get? "app") = some (some false) ∧
    (∃ e told body,
      Leaves default 1 0 disputed (.recheck (some "app") verdict version) disputing e told body ∧
      disputed.Rechecked "app" verdict version e ∧
      ∀ depth' (t : Session), t.slots[0]? = some ⟨e.change, false⟩ → ∃ e' told' body',
        Leaves default depth' 0 e.change (.recheck (some "app") verdict version) t e' told' body' ∧
        e'.change = e.change ∧ e'.answer = e.answer) ∧
    ∀ override, disputed.profile.loggingOnly = false → ∃ e told body,
      Leaves default 1 0 disputed (.setRawOverride "app" override verdict version) disputing e told
        body ∧
      disputed.Recorded "app" override verdict version e := by
  intro verdict version
  have hreachable : disputed.Reachable fun _ => True := hosted_reachable.mutated trivial
  exact ⟨rfl, hreachable, by decide +kernel, by decide +kernel, by decide +kernel,
    mutate_settles default 1 rfl hreachable (by decide) verdict version⟩

/-! ## Raw overrides that are removed -/

/-- **A raw override that is removed is gone,** whatever state mutations have led the change to and
whoever fails. Nothing is left of its package, now or after the next load. But what is held for the
empty name stays as it was, as that is not reconciled. -/
theorem mutate_removes (supply : Supply) (depth : Nat) {s : Session} {i : Nat} {c : Change}
    {name : String} {verdict : Verdict} {version : Option Number}
    (hslot : s.slots[i]? = some ⟨c, false⟩) (hc : c.Reachable fun _ => True)
    (hresult : (s.mutate supply (react supply depth) i
      (.removeRawOverride name verdict version)).result = .ok (some true)) :
    ∃ e told body,
      Leaves supply depth i c (.removeRawOverride name verdict version) s e told body ∧
      e.change.LeftWith name (if name = "" then c.maps.evaluated.get? name else none) := by
  cases happly : c.apply (.removeRawOverride name verdict version) with
  | error error =>
    rw [mutate_of_error hslot happly] at hresult
    cases hresult
  | ok e =>
    obtain ⟨told, body, hleaves⟩ := mutate_leaves supply depth hslot happly
    have hanswer : e.answer = some true := (hleaves.answered _ hresult).symm
    exact ⟨e, told, body, hleaves, Change.leftWith_of_removal hc.consistent happly hanswer⟩

/-- A change that has loaded a value for the empty name, and an override of a package. -/
def haunted : Change :=
  hosted.after (.loadOverrides {
    changeId := .ofSafeInt .one
    raw := some [{ packageName := "app", enabled := true }]
    validated := some [⟨"", false⟩] })

theorem haunted_reachable : haunted.Reachable fun _ => True :=
  hosted_reachable.mutated trivial

/-- Its listener does nothing, and its events go nowhere. -/
def haunting : Session where
  slots := [{ change := haunted }]
  listeners := [{ name := "cache" }]

theorem haunting_result : (haunting.mutate default (react default 0) 0
    (.removeRawOverride "" .allowed none)).result = .ok (some true) :=
  eq_ok_of_toOption (by decide +kernel)

theorem haunting_removes :
    haunting.slots[0]? = some ⟨haunted, false⟩ ∧ haunted.Reachable (fun _ => True) ∧
    (haunting.mutate default (react default 0) 0
      (.removeRawOverride "" .allowed none)).result = .ok (some true) ∧
    haunted.maps.evaluated.get? "" = some false ∧
    ∃ e told body,
      Leaves default 0 0 haunted (.removeRawOverride "" .allowed none) haunting e told body ∧
      e.change.LeftWith "" (if "" = "" then haunted.maps.evaluated.get? "" else none) :=
  ⟨rfl, haunted_reachable, haunting_result, by decide +kernel,
    mutate_removes default 0 rfl haunted_reachable haunting_result⟩

/-- **So it is not true of every name that nothing is left of it,** not even where nobody is called
back. -/
theorem not_leftWith_none :
    ¬ ∀ (supply : Supply) (depth i : Nat) (s : Session) (c : Change) (name : String)
      (verdict : Verdict) (version : Option Number), s.slots[i]? = some ⟨c, false⟩ →
      c.Reachable (fun _ => True) → s.Silent s.places → s.ListenersIdle →
      (s.mutate supply (react supply depth) i
        (.removeRawOverride name verdict version)).result = .ok (some true) →
      ∃ now, (s.mutate supply (react supply depth) i
        (.removeRawOverride name verdict version)).session.change? i = some now ∧
        now.LeftWith name none := by
  intro h
  have hsilent : haunting.Silent haunting.places := by
    intro i hi logger hlogger
    cases hlogger
  have hidle : haunting.ListenersIdle := by
    intro l hl reaction hreaction
    cases List.mem_singleton.1 hl
    cases hreaction
  obtain ⟨now, hnow, hleft⟩ := h default 0 0 haunting haunted "" .allowed none rfl
    haunted_reachable hsilent hidle haunting_result
  have hstale : ((haunting.mutate default (react default 0) 0
      (.removeRawOverride "" .allowed none)).session.change? 0).bind
        (·.maps.evaluated.get? "") = some false := by decide +kernel
  rw [hnow, Option.bind_some, hleft.evaluated] at hstale
  cases hstale

end Session

end ChangeGate
