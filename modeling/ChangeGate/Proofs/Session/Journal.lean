import ChangeGate.Proofs.Change.Run
import ChangeGate.Proofs.Lists
import ChangeGate.Session.Basic
/-!
# Journals

A journal can be read without the session that it comes from. `Follows` does so on the changes
alone: a change carries the mutation of it that is running, `opened` puts one there, `closed`
takes it off, and `refused` is for a change that has one. What a listener or a sink does in
between is in the journal as well, so that a call needs no reading of its own.

What is proved here holds of every journal that can be read so. That the journal of a run is one
is the matter of `ChangeGate.Proofs.Session.Replay`.
-/

namespace ChangeGate

/-- **A mutation that is running:** what it did by itself, and the failure of the listener that
it told. -/
structure Body where
  own : Except ChangeError Effect
  listenerFault : Option Fault := none

/-- How a body ends by itself. -/
def ownOutcome : Except ChangeError Effect → Except Fault (Option Bool)
  | .ok e => .ok e.answer
  | .error e => .error (.change e)

/-- **How a body ends.** The failure of the listener stands before its own answer. -/
def Body.outcome (b : Body) : Except Fault (Option Bool) :=
  match b.listenerFault with
  | some f => .error f
  | none => ownOutcome b.own

/-- A change with the mutation of it that is running, if there is one. -/
structure Cell where
  change : Change
  body : Option Body := none

/-- A reaction that ended with this failure. -/
def FailedWith (reaction : Option (List Attempt)) (f : Fault) : Prop :=
  ∃ attempts, reaction = some attempts ∧ attempts.getLast? = some (.error f)

/-- **What may happen next,** and what becomes of the changes. -/
inductive Allows (σ : List Cell) : Happening → List Cell → Prop
  | opened {i : Nat} {c : Change} {m : Mutation} :
      σ[i]? = some ⟨c, none⟩ → Allows σ (.opened i m) (σ.set i ⟨c.after m, some ⟨c.apply m, none⟩⟩)
  | refused {i : Nat} {c : Change} {b : Body} {m : Mutation} :
      σ[i]? = some ⟨c, some b⟩ → Allows σ (.refused i m) σ
  | notified {i : Nat} {c : Change} {e : Effect} {listener package : String}
      {reaction : Option (List Attempt)} {fault : Option Fault} :
      σ[i]? = some ⟨c, some ⟨.ok e, none⟩⟩ → e.notify = some package →
      (∀ f, fault = some f → FailedWith reaction f) →
      Allows σ (.notified i listener package reaction) (σ.set i ⟨c, some ⟨.ok e, fault⟩⟩)
  | closed {i : Nat} {c : Change} {b : Body} :
      σ[i]? = some ⟨c, some b⟩ → Allows σ (.closed i b.outcome) (σ.set i ⟨c, none⟩)
  | reached : Allows σ (.reached (σ.map (·.change))) σ
  | delivered {i : Nat} {e : StampedEvent} {reaction : Option (List Attempt)} :
      Allows σ (.delivered i e reaction) σ
  | written {i : Nat} {e : StampedEvent} : Allows σ (.written i e) σ

/-- **A journal read on the changes alone.** -/
inductive Follows (σ : List Cell) : List Happening → List Cell → Prop
  | nil : Follows σ [] σ
  | snoc {journal : List Happening} {ρ τ : List Cell} {h : Happening} :
      Follows σ journal ρ → Allows ρ h τ → Follows σ (journal ++ [h]) τ

/-- The mutations of a change that were let in, in order. -/
def openedOf (i : Nat) (journal : List Happening) : List Mutation :=
  journal.filterMap fun h =>
    match h with
    | .opened j m => if j = i then some m else none
    | _ => none

/-- **A mutation of the change is running** at the end of the journal: it was let in, and its body
has not ended since. -/
def Running (i : Nat) (journal : List Happening) : Prop :=
  ∃ before m during, journal = before ++ .opened i m :: during ∧
    ∀ outcome, .closed i outcome ∉ during

/-- A listener of the change failed so in the journal. -/
def ListenerFailed (i : Nat) (journal : List Happening) (f : Fault) : Prop :=
  ∃ listener package reaction, .notified i listener package reaction ∈ journal ∧
    FailedWith reaction f

theorem ListenerFailed.append_right {journal later : List Happening} {i : Nat} {f : Fault}
    (hfailed : ListenerFailed i journal f) : ListenerFailed i (journal ++ later) f := by
  obtain ⟨listener, package, reaction, hmem, hreaction⟩ := hfailed
  exact ⟨listener, package, reaction, List.mem_append_left _ hmem, hreaction⟩

theorem ListenerFailed.append_left {journal later : List Happening} {i : Nat} {f : Fault}
    (hfailed : ListenerFailed i later f) : ListenerFailed i (journal ++ later) f := by
  obtain ⟨listener, package, reaction, hmem, hreaction⟩ := hfailed
  exact ⟨listener, package, reaction, List.mem_append_right _ hmem, hreaction⟩

/-- The body of the mutation that is running at a place. -/
def body? (σ : List Cell) (i : Nat) : Option Body :=
  σ[i]?.bind (·.body)

variable {σ ρ τ : List Cell} {h : Happening} {journal later : List Happening} {i : Nat}

theorem openedOf_append (i : Nat) (journal later : List Happening) :
    openedOf i (journal ++ later) = openedOf i journal ++ openedOf i later :=
  List.filterMap_append

/-! ## One happening -/

/-- **Only what is let in acts on a change.** -/
theorem Allows.change (hallows : Allows σ h τ) (i : Nat) :
    τ[i]?.map (·.change) = σ[i]?.map fun cell => cell.change.run (openedOf i [h]) := by
  cases hallows with
  | @opened j c m hcell =>
    rw [getElem?_put hcell]
    split
    · rename_i hji
      subst hji
      simp [hcell, openedOf]
    · rename_i hji
      simp [openedOf, hji]
  | @notified j c e _ _ _ fault hcell =>
    rw [getElem?_put hcell]
    split
    · rename_i hji
      subst hji
      simp [hcell, openedOf]
    · simp [openedOf]
  | @closed j c b hcell =>
    rw [getElem?_put hcell]
    split
    · rename_i hji
      subst hji
      simp [hcell, openedOf]
    · simp [openedOf]
  | refused | reached | delivered | written => simp [openedOf]

/-- **A body that has not ended stays,** and if its listener fails then the journal says how. -/
theorem Allows.body {c : Change} {b : Body} (hallows : Allows σ h τ)
    (hcell : σ[i]? = some ⟨c, some b⟩) (hopen : ∀ outcome, h ≠ .closed i outcome) :
    ∃ b', τ[i]? = some ⟨c, some b'⟩ ∧ b'.own = b.own ∧
      ∀ f, b'.listenerFault = some f →
        b.listenerFault = some f ∨ (∃ e, b.own = .ok e) ∧ ListenerFailed i [h] f := by
  cases hallows with
  | @opened j _ m hidle =>
    -- a change that has a body lets nothing in
    have hji : j ≠ i := by
      rintro rfl
      rw [hcell] at hidle
      cases hidle
    exact ⟨b, by rw [getElem?_put hidle, if_neg hji, hcell], rfl, fun f hf => Or.inl hf⟩
  | @notified j _ e listener package reaction fault hrunning hnotify hfault =>
    by_cases hji : j = i
    · subst hji
      rw [hcell] at hrunning
      cases hrunning
      refine ⟨⟨.ok e, fault⟩, getElem?_put_self hcell _, rfl, fun f hf => ?_⟩
      exact Or.inr ⟨⟨e, rfl⟩, listener, package, reaction, List.mem_singleton_self _, hfault f hf⟩
    · exact ⟨b, by rw [getElem?_put hrunning, if_neg hji, hcell], rfl, fun f hf => Or.inl hf⟩
  | @closed j _ _ hrunning =>
    have hji : j ≠ i := by
      rintro rfl
      exact hopen _ rfl
    exact ⟨b, by rw [getElem?_put hrunning, if_neg hji, hcell], rfl, fun f hf => Or.inl hf⟩
  | refused | reached | delivered | written =>
    exact ⟨b, hcell, rfl, fun f hf => Or.inl hf⟩

/-- **A body is there because it was let in.** -/
theorem Allows.body?_isSome (hallows : Allows σ h τ) (hbody : (body? τ i).isSome = true) :
    (∃ m, h = .opened i m) ∨ (body? σ i).isSome = true ∧ ∀ outcome, h ≠ .closed i outcome := by
  cases hallows with
  | @opened j c m hcell =>
    by_cases hji : j = i
    · exact Or.inl ⟨m, by rw [hji]⟩
    · rw [body?, getElem?_put hcell, if_neg hji] at hbody
      exact Or.inr ⟨hbody, nofun⟩
  | @notified j c e _ _ _ fault hcell =>
    refine Or.inr ⟨?_, nofun⟩
    rw [body?, getElem?_put hcell] at hbody
    split at hbody
    · rename_i hji
      simp [body?, ← hji, hcell]
    · exact hbody
  | @closed j c b hcell =>
    rw [body?, getElem?_put hcell] at hbody
    split at hbody
    · cases hbody
    · rename_i hji
      refine Or.inr ⟨hbody, fun outcome houtcome => ?_⟩
      cases houtcome
      exact hji rfl
  | refused | reached | delivered | written => exact Or.inr ⟨hbody, nofun⟩

/-! ## Whole journals -/

namespace Follows

theorem single (hallows : Allows σ h τ) : Follows σ [h] τ :=
  .snoc .nil hallows

theorem append (hfirst : Follows σ journal ρ) (hlater : Follows ρ later τ) :
    Follows σ (journal ++ later) τ := by
  induction hlater with
  | nil => simpa using hfirst
  | snoc _ hallows ih =>
    rw [← List.append_assoc]
    exact .snoc ih hallows

theorem cons (hallows : Allows σ h ρ) (hlater : Follows ρ later τ) : Follows σ (h :: later) τ :=
  (single hallows).append hlater

theorem of_snoc (hfollows : Follows σ (journal ++ [h]) τ) :
    ∃ ρ, Follows σ journal ρ ∧ Allows ρ h τ := by
  generalize hwhole : journal ++ [h] = whole at hfollows
  cases hfollows with
  | nil => simp at hwhole
  | snoc hinit hallows =>
    obtain ⟨rfl, hlast⟩ := List.append_inj' hwhole rfl
    cases hlast
    exact ⟨_, hinit, hallows⟩

/-- **A journal can be cut anywhere.** -/
theorem split (hfollows : Follows σ (journal ++ later) τ) :
    ∃ ρ, Follows σ journal ρ ∧ Follows ρ later τ := by
  generalize hwhole : journal ++ later = whole at hfollows
  induction hfollows generalizing later with
  | nil =>
    obtain ⟨rfl, rfl⟩ := List.append_eq_nil_iff.1 hwhole
    exact ⟨_, .nil, .nil⟩
  | snoc hinit hallows ih =>
    rcases List.eq_nil_or_concat later with rfl | ⟨init, last, rfl⟩
    · rw [List.append_nil] at hwhole
      subst hwhole
      exact ⟨_, .snoc hinit hallows, .nil⟩
    · rw [List.concat_eq_append, ← List.append_assoc] at hwhole
      obtain ⟨rfl, hlast⟩ := List.append_inj' hwhole rfl
      cases hlast
      obtain ⟨ρ, hfirst, hlater⟩ := ih rfl
      rw [List.concat_eq_append]
      exact ⟨ρ, hfirst, .snoc hlater hallows⟩

/-- The changes before a happening and after it. -/
theorem split_cons (hfollows : Follows σ (journal ++ h :: later) τ) :
    ∃ ρ ρ', Follows σ journal ρ ∧ Allows ρ h ρ' ∧ Follows ρ' later τ := by
  rw [← List.singleton_append, ← List.append_assoc] at hfollows
  obtain ⟨ρ', hfirst, hlater⟩ := split hfollows
  obtain ⟨ρ, hinit, hallows⟩ := of_snoc hfirst
  exact ⟨ρ, ρ', hinit, hallows, hlater⟩

/-! ## What a journal says of a change -/

/-- **Each change is what the mutations that were let in make of it,** one after the other. -/
theorem change (hfollows : Follows σ journal τ) (i : Nat) :
    τ[i]?.map (·.change) = σ[i]?.map fun cell => cell.change.run (openedOf i journal) := by
  induction hfollows with
  | nil => rfl
  | snoc _ hallows ih =>
    rename_i journal ρ τ h hinit
    have hlast := hallows.change i
    rw [← Function.comp_def (fun c : Change => c.run _), ← Option.map_map, ih] at hlast
    rw [hlast, openedOf_append, Option.map_map]
    congr 1
    funext cell
    exact (Change.run_append _ _ _).symm

/-- **A body stays until it ends.** -/
theorem body {c : Change} {b : Body} (hfollows : Follows σ journal τ)
    (hcell : σ[i]? = some ⟨c, some b⟩) (hopen : ∀ outcome, .closed i outcome ∉ journal) :
    ∃ b', τ[i]? = some ⟨c, some b'⟩ ∧ b'.own = b.own ∧
      ∀ f, b'.listenerFault = some f →
        b.listenerFault = some f ∨ (∃ e, b.own = .ok e) ∧ ListenerFailed i journal f := by
  induction hfollows with
  | nil => exact ⟨b, hcell, rfl, fun f hf => Or.inl hf⟩
  | @snoc journal ρ τ h hinit hallows ih =>
    have hopenInit : ∀ outcome, .closed i outcome ∉ journal := fun outcome hmem =>
      hopen outcome (List.mem_append_left _ hmem)
    obtain ⟨b₁, hcell₁, hown₁, hfault₁⟩ := ih hopenInit
    have hopenLast : ∀ outcome, h ≠ .closed i outcome := fun outcome heq =>
      hopen outcome (by simp [heq])
    obtain ⟨b₂, hcell₂, hown₂, hfault₂⟩ := hallows.body hcell₁ hopenLast
    refine ⟨b₂, hcell₂, hown₂.trans hown₁, fun f hf => ?_⟩
    rcases hfault₂ f hf with hearlier | ⟨⟨e, he⟩, hfailed⟩
    · rcases hfault₁ f hearlier with horigin | ⟨hok, hfailed⟩
      · exact Or.inl horigin
      · exact Or.inr ⟨hok, hfailed.append_right⟩
    · exact Or.inr ⟨⟨e, hown₁ ▸ he⟩, hfailed.append_left⟩

/-- **Where nothing was running, a body is there if and only if the journal lets one in that has
not ended.** -/
theorem running_iff (hfollows : Follows σ journal τ) (hidle : body? σ i = none) :
    (body? τ i).isSome = true ↔ Running i journal := by
  refine ⟨fun hbody => ?_, ?_⟩
  · -- the last happening let the body in, or it was there before and has not ended
    induction hfollows with
    | nil => simp [hidle] at hbody
    | @snoc journal ρ τ h hinit hallows ih =>
      rcases hallows.body?_isSome hbody with ⟨m, rfl⟩ | ⟨hbefore, hopen⟩
      · exact ⟨journal, m, [], rfl, fun _ => List.not_mem_nil⟩
      · obtain ⟨before, m, during, rfl, hduring⟩ := ih hbefore
        refine ⟨before, m, during ++ [h], by simp, fun outcome hmem => ?_⟩
        rcases List.mem_append.1 hmem with hmem | hmem
        · exact hduring outcome hmem
        · exact hopen outcome (List.mem_singleton.1 hmem).symm
  · rintro ⟨before, m, during, rfl, hduring⟩
    obtain ⟨ρ, ρ', -, hallows, hlater⟩ := split_cons hfollows
    cases hallows with
    | opened hcell =>
      obtain ⟨b, hb, -⟩ := hlater.body (getElem?_put_self hcell _) hduring
      simp [body?, hb]

/-- **What is refused found a mutation of the change running.** -/
theorem running_of_refused {m : Mutation} (hidle : body? σ i = none)
    (hfollows : Follows σ (journal ++ .refused i m :: later) τ) : Running i journal := by
  obtain ⟨ρ, ρ₁, hfirst, hallows, -⟩ := split_cons hfollows
  cases hallows with
  | refused hcell => exact (hfirst.running_iff hidle).1 (by simp [body?, hcell])

/-- **What is let in did not.** -/
theorem not_running_of_opened {m : Mutation} (hidle : body? σ i = none)
    (hfollows : Follows σ (journal ++ .opened i m :: later) τ) : ¬ Running i journal := by
  obtain ⟨ρ, ρ₁, hfirst, hallows, -⟩ := split_cons hfollows
  cases hallows with
  | opened hcell =>
    intro hrunning
    have hbody := (hfirst.running_iff hidle).2 hrunning
    simp [body?, hcell] at hbody

/-- **A body ends as its mutation does by itself** on the change as the mutations before it left
it, unless a listener that it told has failed. -/
theorem outcome_of_closed {m : Mutation} {during : List Happening}
    {outcome : Except Fault (Option Bool)}
    (hfollows : Follows σ (journal ++ .opened i m :: (during ++ .closed i outcome :: later)) τ)
    (hduring : ∀ outcome', .closed i outcome' ∉ during) :
    ∃ cell, σ[i]? = some cell ∧
      (outcome = ownOutcome ((cell.change.run (openedOf i journal)).apply m) ∨
        ∃ f e, outcome = .error f ∧ ListenerFailed i during f ∧
          (cell.change.run (openedOf i journal)).apply m = .ok e) := by
  obtain ⟨ρ, ρ₁, hfirst, hopened, hrest⟩ := split_cons hfollows
  obtain ⟨ρ₂, ρ₃, hmiddle, hclosed, -⟩ := split_cons hrest
  cases hopened with
  | @opened _ c _ hcell =>
    have hc : σ[i]?.map (fun cell => cell.change.run (openedOf i journal)) = some c := by
      rw [← hfirst.change i, hcell]
      rfl
    obtain ⟨cell, hσ, rfl⟩ := Option.map_eq_some_iff.1 hc
    refine ⟨cell, hσ, ?_⟩
    -- the body that ends is the one that was let in, with what its listener added
    obtain ⟨b, hb, hown, hfault⟩ := hmiddle.body (getElem?_put_self hcell _) hduring
    cases hclosed with
    | closed hcell₂ =>
      rw [hb] at hcell₂
      cases hcell₂
      cases hf : b.listenerFault with
      | none => exact Or.inl (by rw [Body.outcome, hf, hown])
      | some f =>
        rcases hfault f hf with hnever | ⟨⟨e, he⟩, hfailed⟩
        · cases hnever
        · exact Or.inr ⟨f, e, by rw [Body.outcome, hf], hfailed, he⟩

/-- **A command of a reaction finds each change as the mutations before it left it,** also in the
middle of one. -/
theorem changes_of_reached {changes : List Change}
    (hfollows : Follows σ (journal ++ .reached changes :: later) τ) (i : Nat) :
    changes[i]? = σ[i]?.map fun cell => cell.change.run (openedOf i journal) := by
  obtain ⟨ρ, ρ₁, hfirst, hallows, -⟩ := split_cons hfollows
  cases hallows with
  | reached => rw [← hfirst.change i, List.getElem?_map]

end Follows

end ChangeGate
