import ChangeGate.Proofs.Change.Independent
import ChangeGate.Proofs.Session.Restart
import ChangeGate.Proofs.Session.Untroubled
/-!
# Packages do not interfere

The calls of a run on one change may be about many packages. Where nothing disturbs the run, what it
comes to for a package, its two entries and the outcome of each call about it, is what the run
without the calls about other packages comes to, with all clears and loads still in their places.
And two neighbouring calls about different packages may change places: nobody can tell afterwards
(`mutateEach_independent`).
-/

namespace ChangeGate

open Mutation

/-- **What calls on the change at a place come to:** how each of them ended, and the session. -/
abbrev Outcomes := List (Except Fault (Option Bool)) × Session

/-- **Runs of the calls `ms` and `ns` that come to the same for a package.** Its entries are the same
in the end, and the calls about it are the same and ended alike, be it with the same error. -/
structure SameFor (p : String) (i : Nat) (ms ns : List Mutation) (r r' : Outcomes) : Prop where
  raw : (r'.2.change? i).map (·.maps.raw.get? p) = (r.2.change? i).map (·.maps.raw.get? p)
  evaluated : (r'.2.change? i).map (·.maps.evaluated.get? p) =
    (r.2.change? i).map (·.maps.evaluated.get? p)
  calls : callsOn p ns r'.1 = callsOn p ms r.1

/-- **Sessions that cannot be told apart by their changes.** They have the same changes, and whatever
is asked about one is answered alike, which goes for its maps, its snapshot and its text. What is
saved is the same, given the same storage; and whatever storages the two have, the text is the
same. -/
structure Indistinguishable (t t' : Session) : Prop where
  slots : t'.slots = t.slots
  answers : ∀ supply react notified? j query,
    (t'.performWith supply react notified? (.query j query)).result =
      (t.performWith supply react notified? (.query j query)).result
  saves : ∀ storage places filename,
    (Session.save places filename { t' with storage }).result =
        (Session.save places filename { t with storage }).result ∧
      (Session.save places filename { t' with storage }).session.storage =
        (Session.save places filename { t with storage }).session.storage
  texts : ∀ places filename n n', (t.save places filename).result = .ok n →
    (t'.save places filename).result = .ok n' → n' = n ∧
      (t'.save places filename).session.storage.readText filename =
        (t.save places filename).session.storage.readText filename

/-- **Two calls that may change places** in a run: they end as they did, all other calls do, and the
sessions afterwards cannot be told apart. -/
structure Interchangeable (supply : Supply) (s : Session) (i : Nat) (before later : List Mutation)
    (m n : Mutation) : Prop where
  outcomes : ∃ first a b rest, first.length = before.length ∧
    (s.mutateEach supply i (before ++ m :: n :: later)).1 = first ++ a :: b :: rest ∧
    (s.mutateEach supply i (before ++ n :: m :: later)).1 = first ++ b :: a :: rest
  sessions : Indistinguishable (s.mutateEach supply i (before ++ m :: n :: later)).2
    (s.mutateEach supply i (before ++ n :: m :: later)).2

/-- **A run in which packages do not interfere.** -/
structure Independent (supply : Supply) (s : Session) (i : Nat) (ms : List Mutation) : Prop where
  without : ∀ p, SameFor p i ms (without p ms) (s.mutateEach supply i ms)
    (s.mutateEach supply i (without p ms))
  swap : ∀ before m n later p q, ms = before ++ m :: n :: later →
    m.About (some p) → n.About (some q) → p ≠ q → Interchangeable supply s i before later m n

namespace Session

variable {supply : Supply} {s t t' : Session} {i : Nat} {c : Change} {ms : List Mutation}

/-! ## What can be told of the changes -/

/-- **Sessions with the same changes** cannot be told apart by them. -/
theorem indistinguishable_of_slots (h : t'.slots = t.slots) : Indistinguishable t t' := by
  have hchange : t'.change? = t.change? := by
    funext j
    rw [change?, h, change?]
  exact {
    slots := h
    answers := fun supply react notified? j query => by
      unfold performWith
      dsimp only
      rw [hchange]
      cases t.change? j <;> rfl
    saves := fun storage places filename => by
      have hgiven : change? { t' with storage } = change? { t with storage } := hchange
      unfold save
      rw [hgiven]
      exact ⟨rfl, rfl⟩
    texts := fun places filename n n' hn hn' => by
      obtain ⟨hcount, htext⟩ := text_of_save hn
      obtain ⟨hcount', htext'⟩ := text_of_save hn'
      rw [htext, htext', hcount, hcount', hchange]
      exact ⟨rfl, rfl⟩ }

/-! ## Runs -/

/-- Who may be told in a run may be told in any with the same calls, or fewer. -/
theorem Untroubled.subset {ns : List Mutation}
    (h : s.Untroubled i fun l => c.listener = some l ∨ .registerListener l ∈ ms)
    (hsubset : ns ⊆ ms) :
    s.Untroubled i fun l => c.listener = some l ∨ .registerListener l ∈ ns where
  logger := h.logger
  listener l lis hl := h.listener l lis (hl.imp id fun hmem => hsubset hmem)

/-- **The run without the calls about other packages** comes to the same for a package. -/
theorem sameFor_without (p : String) (hslot : s.slots[i]? = some ⟨c, false⟩) (hc : c.Consistent)
    (hs : s.Untroubled i fun l => c.listener = some l ∨ .registerListener l ∈ ms) :
    SameFor p i ms (without p ms) (s.mutateEach supply i ms)
      (s.mutateEach supply i (without p ms)) := by
  obtain ⟨houtcomes, hslots⟩ := hs.mutateEach supply hslot ms fun _ => id
  obtain ⟨houtcomes', hslots'⟩ := (hs.subset List.filter_sublist.subset).mutateEach supply hslot
    (without p ms) fun _ => id
  obtain ⟨halike, hcalls⟩ := (Change.AlikeFor.refl p c).run hc hc ms
  have hnow : (s.mutateEach supply i ms).2.change? i = some (c.run ms) := by
    rw [change?, hslots, getElem?_put_self hslot]
    rfl
  have hnow' : (s.mutateEach supply i (without p ms)).2.change? i =
      some (c.run (without p ms)) := by
    rw [change?, hslots', getElem?_put_self hslot]
    rfl
  exact {
    raw := by rw [hnow, hnow', Option.map_some, Option.map_some, halike.raw]
    evaluated := by rw [hnow, hnow', Option.map_some, Option.map_some, halike.evaluated]
    calls := by rw [houtcomes, houtcomes', callsOn_map, callsOn_map, hcalls] }

/-- **Neighbouring calls about different packages** may change places. -/
theorem interchangeable {before later : List Mutation} {m n : Mutation} {p q : String}
    (hslot : s.slots[i]? = some ⟨c, false⟩) (hc : c.Consistent)
    (hs : s.Untroubled i fun l =>
      c.listener = some l ∨ .registerListener l ∈ before ++ m :: n :: later)
    (hm : m.About (some p)) (hn : n.About (some q)) (hpq : p ≠ q) :
    Interchangeable supply s i before later m n := by
  have hbefore := hc.run before
  have hcomm := Change.after_comm hbefore hm hn hpq
  have hsubset : before ++ n :: m :: later ⊆ before ++ m :: n :: later :=
    ((List.Perm.swap m n later).append_left before).subset
  obtain ⟨houtcomes, hslots⟩ := hs.mutateEach supply hslot _ fun _ => id
  obtain ⟨houtcomes', hslots'⟩ := (hs.subset hsubset).mutateEach supply hslot _ fun _ => id
  refine ⟨⟨(c.replies before).map (·.mapError .change), ((c.run before).reply m).mapError .change,
    ((c.run before).reply n).mapError .change,
    ((((c.run before).after m).after n).replies later).map (·.mapError .change), by simp, ?_, ?_⟩,
    indistinguishable_of_slots ?_⟩
  · rw [houtcomes, Change.replies_append, Change.replies, Change.replies,
      Change.reply_after hbefore hn hm hpq.symm, List.map_append, List.map_cons, List.map_cons]
  · rw [houtcomes', Change.replies_append, Change.replies, Change.replies,
      Change.reply_after hbefore hm hn hpq, hcomm, List.map_append, List.map_cons, List.map_cons]
  · rw [hslots, hslots', Change.run_append, Change.run_append, Change.run_cons, Change.run_cons,
      Change.run_cons, Change.run_cons, hcomm]

/-- **Packages do not interfere.** Whatever state mutations have led a change to, and whatever calls
are made on it, as long as nothing disturbs them: for each package the calls about the others might
as well not have been made, and neighbouring calls about different packages may change places. -/
theorem mutateEach_independent (supply : Supply) {s : Session} {i : Nat} {c : Change}
    {ms : List Mutation} (hslot : s.slots[i]? = some ⟨c, false⟩)
    (hc : Change.Reachable (fun _ => True) c)
    (hs : s.Untroubled i fun l => c.listener = some l ∨ .registerListener l ∈ ms) :
    Independent supply s i ms where
  without p := sameFor_without p hslot hc.consistent hs
  swap before m n later p q heq hm hn hpq := by
    subst heq
    exact interchangeable hslot hc.consistent hs hm hn hpq

/-- A change with a listener. -/
def hosted : Change :=
  Change.after { profile := ⟨.one, none, none, false, false, none, true⟩ } (.registerListener 0)

theorem hosted_reachable : hosted.Reachable fun _ => True := by
  refine .mutated (.defined (d := {
    id := .ofSafeInt .one
    overridable := true }) ?_) trivial
  simp [Change.ofDefinition, Definition.profile?, Definition.gate]

/-- Its listener does nothing and its events go to a file. There is another change, whose sink fails,
and another listener, which fails as well. -/
def hosting : Session where
  slots := [{ change := hosted }, { change :=
    { profile := ⟨.minusOne, none, none, false, false, none, true⟩, listener := some 1 } }]
  loggers := [{ sink := some (.file Logger.defaultFilename) },
    { sink := some (.script [.cleared] []) }]
  listeners := [{ name := "cache", reactions := [[], []] },
    { name := "strict", reactions := [[{ command := .raise "strict" }]] }]

/-- Calls about two packages, with a load and a clear in between. -/
def visits : List Mutation := [
  .setRawOverride "app" (.unconditional true) .allowed (some noGate),
  .setRawOverride "lib" (.unconditional false) .allowed none,
  .loadOverrides { changeId := .ofSafeInt .one, validated := some [⟨"lib", true⟩] },
  .recheck (some "lib") .deferred (some noGate),
  .removeRawOverride "app" .allowed none,
  .clearOverrides,
  .recheck (some "app") .allowed (some noGate)]

theorem untroubled_hosting :
    hosting.Untroubled 0 fun l => hosted.listener = some l ∨ .registerListener l ∈ visits where
  logger logger hlogger := by
    cases hlogger
    exact Storage.takesLines_memory {} Logger.defaultFilename
  listener l lis hl hlis := by
    obtain hl | hl := hl
    · cases hl
      cases hlis
      simp
    · simp [visits] at hl

theorem hosting_independent :
    hosting.slots[0]? = some ⟨hosted, false⟩ ∧ hosted.Reachable (fun _ => True) ∧
    hosting.Untroubled 0 (fun l => hosted.listener = some l ∨ .registerListener l ∈ visits) ∧
    (without "app" visits).length = 5 ∧
    Independent default hosting 0 visits :=
  ⟨rfl, hosted_reachable, untroubled_hosting, by decide +kernel,
    mutateEach_independent default rfl hosted_reachable untroubled_hosting⟩

end Session

end ChangeGate
