import ChangeGate.Proofs.Change.Notice
import ChangeGate.Proofs.Session.Serial
import ChangeGate.Proofs.Session.Silent
import ChangeGate.Proofs.Session.Spared
/-!
# No silent change, and no partial view

The listener of a change may look at the change, try to mutate it and fail. As long as the sink does
not call back, a call about a package tells it at most once, of that package, and exactly if the
package's evaluated override is set or removed; and whatever the listener looks at, directly or
through mutations of other changes, is what is there when the call is over.
-/

namespace ChangeGate

/-- The packages that the listener of a change is told of. -/
def noticesOf (i : Nat) (journal : List Happening) : List String :=
  journal.filterMap fun
    | .notified j _ package _ => if j = i then some package else none
    | _ => none

/-- **What a call does to a change and what its listener gets to know of it.** The change is `c`
before the call and `now` after it, and `mutating` says whether the call found it marked. -/
structure Noticed (i : Nat) (c now : Change) (mutating : Bool) (m : Mutation) (d : Done Answer) :
    Prop where
  change : d.session.change? i = some now
  entry : ∀ package? name value, m.About package? → mutating = false → name ≠ "" →
    c.finds? m name = some value → now.maps.evaluated.get? name = value
  once : ∀ package?, m.About package? → noticesOf i d.journal = [] ∨
    ∃ name, package? = some name ∧ noticesOf i d.journal = [name]
  exactly : ∀ package? name, m.About package? →
    (noticesOf i d.journal = [name] ↔ mutating = false ∧ (c.Sets m name ∨ c.Removes m name))
  answers : ∀ package? app platformSdk, m.About package? →
    now.isEnabled app platformSdk ≠ c.isEnabled app platformSdk →
    ∃ a name, app = some a ∧ a.packageName = some name ∧ package? = some name ∧
      noticesOf i d.journal = [name]
  view : ∀ changes, .reached changes ∈ d.journal → changes[i]? = some now
  untold : (∀ package?, ¬ m.About package?) ∨ mutating = true ∨
    (∃ error, c.apply m = .error error) → noticesOf i d.journal = []

variable {supply : Supply} {s s' : Session} {journal later : List Happening} {i : Nat}
  {c : Change} {m : Mutation}

theorem noticesOf_append (i : Nat) (journal later : List Happening) :
    noticesOf i (journal ++ later) = noticesOf i journal ++ noticesOf i later :=
  List.filterMap_append

theorem noticesOf_of_spares (hspares : ∀ h ∈ journal, h.Spares i c) :
    noticesOf i journal = [] := by
  refine List.filterMap_eq_nil_iff.2 fun h hmem => ?_
  have hone := hspares h hmem
  cases h with
  | notified => exact if_neg hone
  | _ => rfl

theorem noticesOf_of_logs (hlogs : ∀ h ∈ journal, h.Logs) : noticesOf i journal = [] := by
  refine List.filterMap_eq_nil_iff.2 fun h hmem => ?_
  have hone := hlogs h hmem
  cases h with
  | notified => exact absurd hone id
  | _ => rfl

theorem openedOf_of_spares (hspares : ∀ h ∈ journal, h.Spares i c) : openedOf i journal = [] := by
  refine List.filterMap_eq_nil_iff.2 fun h hmem => ?_
  have hone := hspares h hmem
  cases h with
  | opened => exact if_neg hone
  | _ => rfl

namespace Session

/-! ## What a mutation tells -/

namespace Told

variable {listener : Option Nat} {package? : Option String} {d : Done Unit}

/-- The journal of the call has nothing of the change but the call itself. -/
theorem openedOf_eq (h : Told i c s listener package? d) : openedOf i d.journal = [] := by
  rcases h.journal with ⟨hjournal, -⟩ | ⟨name, package, reaction, later, hjournal, -, hspares, -⟩
  · rw [hjournal]
    rfl
  · rw [hjournal]
    change openedOf i later = []
    exact openedOf_of_spares hspares

/-- **A listener that is there is told once,** if there is something to tell. -/
theorem noticesOf_eq (h : Told i c s listener package? d) {l : Nat} {lis : Listener}
    (hlistener : listener = some l) (hlis : s.listeners[l]? = some lis) :
    noticesOf i d.journal = package?.toList := by
  rcases h.journal with
    ⟨hjournal, -, hnone⟩ | ⟨name, package, reaction, later, hjournal, rfl, hspares, -⟩
  · cases package? with
    | none => rw [hjournal]; rfl
    | some package =>
      rw [hnone l package hlistener rfl] at hlis
      cases hlis
  · have hfirst : noticesOf i [.notified i name package reaction] = [package] := by
      simp [noticesOf]
    rw [hjournal, ← List.singleton_append, noticesOf_append, hfirst, noticesOf_of_spares hspares]
    rfl

end Told

/-- **The journal of a mutation that is let in:** it begins there, lets no other mutation of the
change in, and has what the mutation tells. -/
theorem mutate_told (supply : Supply) (depth : Nat) {l : Nat} {lis : Listener}
    (hslot : s.slots[i]? = some ⟨c, false⟩) (hc : c.listener = some l)
    (hlis : s.listeners[l]? = some lis) (hsilent : s.Silent [i]) :
    ∃ later, (s.mutate supply (react supply depth) i m).journal = .opened i m :: later ∧
      openedOf i later = [] ∧ noticesOf i later = (c.notice? m).toList := by
  cases happly : c.apply m with
  | error error =>
    rw [mutate_of_error hslot happly, Change.notice?_of_error happly]
    exact ⟨_, rfl, rfl, rfl⟩
  | ok e =>
    rw [mutate_of_ok hslot happly, Change.notice?_of_ok happly]
    have htold := announced supply depth hslot e
    generalize s.announce (react supply depth) i e = told at htold
    have hreleased : (told.session.release i).Silent [i] := by
      intro j hj logger hlogger
      rw [List.mem_singleton.1 hj] at hlogger
      exact hsilent i (List.mem_singleton_self i) logger (htold.logger ▸ hlogger)
    have hlogs := (hreleased.deliver supply (react_silent supply depth)
      (List.mem_singleton_self i) e.events).logs
    dsimp only
    generalize (told.session.release i).deliver supply (react supply depth) i e.events = delivered
      at hlogs
    refine ⟨told.journal ++ .closed i _ :: delivered.journal, rfl, ?_, ?_⟩
    · rw [openedOf_append, htold.openedOf_eq]
      exact openedOf_of_logs hlogs i
    · rw [noticesOf_append, htold.noticesOf_eq (Change.listener_of_apply hc happly) hlis]
      change _ ++ noticesOf i delivered.journal = _
      rw [noticesOf_of_logs hlogs, List.append_nil]

/-! ## What a call does, and what its listener gets to know of it -/

/-- **Each reaction in the middle of a mutation** finds the change as the mutation leaves it. -/
theorem reached_of_told (hreplays : Replays s (.opened i m :: later) s')
    (hc : s.change? i = some c) (hopened : openedOf i later = []) :
    s'.change? i = some (c.after m) ∧
      ∀ changes, .reached changes ∈ later → changes[i]? = some (c.after m) := by
  have hone : ∀ journal, openedOf i journal = [] → openedOf i (.opened i m :: journal) = [m] := by
    intro journal hnone
    rw [← List.singleton_append, openedOf_append, hnone]
    simp [openedOf]
  refine ⟨?_, fun changes hmem => ?_⟩
  · rw [hreplays.change?, hc, hone later hopened]
    rfl
  · obtain ⟨first, rest, rfl⟩ := List.append_of_mem hmem
    rw [openedOf_append] at hopened
    obtain ⟨σ, hfits⟩ := exists_fits s
    obtain ⟨τ, hfollows, -, -⟩ := hreplays σ hfits
    have hcell : σ[i]?.map (·.change) = some c := by rw [← hfits.change?, hc]
    obtain ⟨cell, hσ, rfl⟩ := Option.map_eq_some_iff.1 hcell
    have hcut : Follows σ ((.opened i m :: first) ++ .reached changes :: rest) τ := hfollows
    rw [hcut.changes_of_reached i, hσ, hone first (List.append_eq_nil_iff.1 hopened).1]
    rfl

/-- A call that is refused does nothing and tells nothing. -/
theorem noticed_of_refused (hc : s.change? i = some c) (f : Fault) :
    Noticed i c c true m { session := s, journal := [.refused i m], result := .error f } where
  change := hc
  entry _ _ _ _ h := by cases h
  once _ _ := Or.inl rfl
  exactly _ _ _ := ⟨fun h => absurd h (by simp [noticesOf]), fun h => by cases h.1⟩
  answers _ _ _ _ h := absurd rfl h
  view _ hmem := by simp at hmem
  untold _ := rfl

/-- **A call that is let in:** all is said by what the mutation tells and what it makes of the
change. -/
theorem noticed_of_told {d : Done Answer} (hnow : d.session.change? i = some (c.after m))
    (hnotices : noticesOf i d.journal = (c.notice? m).toList)
    (hview : ∀ changes, .reached changes ∈ d.journal → changes[i]? = some (c.after m)) :
    Noticed i c (c.after m) false m d where
  change := hnow
  entry _ _ _ hm _ hname hfinds := Change.get?_of_finds? hm hname hfinds
  once package? hm := by
    rw [hnotices]
    cases hnotice : c.notice? m with
    | none => exact Or.inl rfl
    | some name => exact Or.inr ⟨name, Change.about_of_notice? hm hnotice, rfl⟩
  exactly package? name hm := by
    rw [hnotices, ← Change.notice?_eq_some_iff hm]
    cases c.notice? m <;> simp
  answers package? app platformSdk hm hne := by
    obtain ⟨a, name, happ, hname, hpackage, hnotice⟩ := Change.notice_of_isEnabled_ne hm hne
    exact ⟨a, name, happ, hname, hpackage, by rw [hnotices, hnotice]; rfl⟩
  view := hview
  untold huntold := by
    have hnone : c.notice? m = none := by
      rcases huntold with hm | hmarked | ⟨error, happly⟩
      · exact Change.notice?_of_not_about hm
      · cases hmarked
      · exact Change.notice?_of_error happly
    rw [hnotices, hnone]
    rfl

/-- **A mutation,** with whatever answer is made of its own. -/
theorem mutate_noticed (supply : Supply) (depth : Nat) {mutating : Bool} {l : Nat} {lis : Listener}
    (hslot : s.slots[i]? = some ⟨c, mutating⟩) (hc : c.listener = some l)
    (hlis : s.listeners[l]? = some lis) (hsilent : s.Silent [i]) (answer : Option Bool → Answer) :
    ∃ now, Noticed i c now mutating m
      ((s.mutate supply (react supply depth) i m).map answer) := by
  have hchange : s.change? i = some c := by rw [change?, hslot]; rfl
  cases mutating with
  | true =>
    rw [mutate_of_mutating hslot]
    exact ⟨c, noticed_of_refused hchange _⟩
  | false =>
    obtain ⟨later, hjournal, hopened, hnotices⟩ := mutate_told supply depth hslot hc hlis hsilent
      (m := m)
    have hreplays : Replays s (s.mutate supply (react supply depth) i m).journal
        (s.mutate supply (react supply depth) i m).session :=
      mutate_replays (react_sound supply depth) i m s
    generalize s.mutate supply (react supply depth) i m = d at hjournal hreplays
    rw [hjournal] at hreplays
    obtain ⟨hnow, hview⟩ := reached_of_told hreplays hchange hopened
    refine ⟨c.after m, noticed_of_told hnow ?_ fun changes hmem => ?_⟩
    · change noticesOf i d.journal = _
      rw [hjournal, ← hnotices]
      rfl
    · change _ ∈ d.journal at hmem
      rw [hjournal] at hmem
      rcases List.mem_cons.1 hmem with heq | hmem
      · cases heq
      · exact hview changes hmem

/-- **No silent change and no partial view.** A call of a mutation, outermost or nested, of a change
with a listener that does whatever it likes, and with a sink that fails whenever it likes but does
not call back. To check a snapshot tells nothing either. -/
theorem performWith_noticed (supply : Supply) (depth : Nat) (notified? : Option String)
    (command : Command) {s : Session} {i : Nat} {c : Change} {mutating : Bool} {m : Mutation}
    {l : Nat} {lis : Listener} (hcall : command.mutation? notified? = some (i, m))
    (hslot : s.slots[i]? = some ⟨c, mutating⟩) (hc : c.listener = some l)
    (hlis : s.listeners[l]? = some lis) (hsilent : s.Silent [i]) :
    (∃ now, Noticed i c now mutating m
      (s.performWith supply (react supply depth) notified? command)) ∧
    ∀ snapshot, (s.performWith supply (react supply depth) notified?
      (.checkOverrides i snapshot)).journal = [] := by
  obtain ⟨answer, hperform⟩ : ∃ answer, s.performWith supply (react supply depth) notified?
      command = (s.mutate supply (react supply depth) i m).map answer :=
    performWith_of_mutation? hcall
  refine ⟨?_, fun snapshot => ?_⟩
  · rw [hperform]
    exact mutate_noticed supply depth hslot hc hlis hsilent answer
  · unfold performWith
    dsimp only
    split
    · rfl
    · split <;> rfl

/-- A change that is off, whose listener looks at it and then tries in vain to clear it, and whose
sink fails on raw overrides. -/
def watched : Change where
  profile := ⟨.one, none, none, true, false, none, true⟩
  listener := some 0

def watching : Session where
  slots := [{ change := watched }]
  loggers := [{ sink := some (.script [.rawSet] []) }]
  listeners := [{ name := "watch", reactions := [[
    { command := .query 0 (.isEnabled (some ⟨some "app", noGate⟩) noGate) },
    { command := .clearOverrides 0 }]] }]

/-- Switches it on for a package. -/
def switchOn : Command :=
  .setRawOverride 0 (.named "app") { enabled := true } .allowed (some noGate)

theorem watching_noticed :
    let m : Mutation := .setRawOverride "app" (.unconditional true) .allowed (some noGate)
    let d := watching.performWith default (react default 1) none switchOn
    watched.isEnabled (some ⟨some "app", noGate⟩) noGate = false ∧
    (watched.after m).isEnabled (some ⟨some "app", noGate⟩) noGate = true ∧
    noticesOf 0 d.journal = ["app"] ∧
    (∃ now, Noticed 0 watched now false m d) ∧
    ∀ snapshot, (watching.performWith default (react default 1) none
      (.checkOverrides 0 snapshot)).journal = [] := by
  intro m d
  have hsilent : watching.Silent [0] := by
    intro i hi logger hlogger
    rw [List.mem_singleton.1 hi] at hlogger
    cases hlogger
    exact fun _ hmem => absurd hmem List.not_mem_nil
  exact ⟨by decide +kernel, by decide +kernel, by decide +kernel,
    performWith_noticed default 1 none switchOn rfl rfl rfl rfl hsilent⟩

end Session

end ChangeGate
