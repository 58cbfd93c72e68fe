import ChangeGate.Proofs.Change.Events
import ChangeGate.Proofs.Session.Silent
import Mathlib.Data.List.Induction
/-!
# The log in a journal

A journal shows which events went out, and with it `Ledger` keeps account of those that are due. A
mutation that is let in queues its events; when its body ends they are owed; an event that goes out
is taken off what is owed; and as soon as something else happens, what is still owed is dropped.
`Ledger.Reads` says that nothing goes out that is not the next one owed, and, of a log without
losses, that nothing is dropped.

What follows is proved of any journal that is read so. Each event that goes out is the next one of
the mutation whose body ended last (`Reads.origin`). Without losses, what went out of a change in a
stretch between two of its mutations is what the mutations of the stretch have queued
(`Reads.loggedOf_eq`), and the events of one mutation go out together (`Reads.block`).
-/

namespace ChangeGate

/-! ## The log -/

/-- The event that goes out to a sink or to a file, with the place of its change. -/
def Happening.logged? : Happening → Option (Nat × StampedEvent)
  | .delivered i e _ => some (i, e)
  | .written i e => some (i, e)
  | _ => none

/-- The events that went out, with their time stamps. -/
def stampsOf (journal : List Happening) : List (Nat × StampedEvent) :=
  journal.filterMap Happening.logged?

/-- **The log,** in which the events of all changes stand in one line. -/
def logOf (journal : List Happening) : List (Nat × Event) :=
  (stampsOf journal).map fun entry => (entry.1, entry.2.event)

/-- The logged events of a change. -/
def loggedOf (i : Nat) (journal : List Happening) : List Event :=
  (logOf journal).filterMap fun entry => if entry.1 = i then some entry.2 else none

/-- **A change is between two of its mutations** at a point of a journal: none is running, and no
event of it goes out next. -/
def Between (i : Nat) (before later : List Happening) : Prop :=
  ¬ Running i before ∧ ∀ h ∈ later.head?, ∀ e, h.logged? ≠ some (i, e)

variable {journal later : List Happening} {h : Happening} {i : Nat} {e : StampedEvent}

theorem stampsOf_append (journal later : List Happening) :
    stampsOf (journal ++ later) = stampsOf journal ++ stampsOf later :=
  List.filterMap_append

theorem logOf_append (journal later : List Happening) :
    logOf (journal ++ later) = logOf journal ++ logOf later := by
  rw [logOf, stampsOf_append, List.map_append]
  rfl

theorem loggedOf_append (i : Nat) (journal later : List Happening) :
    loggedOf i (journal ++ later) = loggedOf i journal ++ loggedOf i later := by
  rw [loggedOf, logOf_append, List.filterMap_append]
  rfl

theorem logOf_of_logged (hlogged : h.logged? = some (i, e)) : logOf [h] = [(i, e.event)] := by
  simp [logOf, stampsOf, hlogged]

theorem logOf_of_not_logged (hlogged : h.logged? = none) : logOf [h] = [] := by
  simp [logOf, stampsOf, hlogged]

/-! ## Ledgers -/

/-- **What is due:** the changes, the events that the running mutation of each has queued, and
those that are owed since the last body ended, which was at `place`. -/
structure Ledger where
  changes : Nat → Option Change
  queue : Nat → List Event := fun _ => []
  place : Nat := 0
  owed : List Event := []

namespace Ledger

/-- **The ledger after a happening.** -/
def note (b : Ledger) : Happening → Ledger
  | .opened i m => { b with
      changes := fun j => if i = j then (b.changes j).map (·.after m) else b.changes j
      queue := fun j => if i = j then (b.changes j).elim [] (·.queued m) else b.queue j
      owed := [] }
  | .closed i _ => { b with
      queue := fun j => if i = j then [] else b.queue j
      place := i
      owed := b.queue i }
  | .delivered _ _ _ => { b with owed := b.owed.tail }
  | .written _ _ => { b with owed := b.owed.tail }
  | .reached _ => b
  | .refused _ _ => { b with owed := [] }
  | .notified _ _ _ _ => { b with owed := [] }

/-- The ledger after a journal. -/
def after (b : Ledger) (journal : List Happening) : Ledger :=
  journal.foldl note b

/-- **What may happen next:** what goes out is the next event that is owed, nothing else happens
before all of them are out if the log is without losses, and a mutation is let in only if there is
no other one of the change that has queued something. -/
structure Permits (lossless : Prop) (b : Ledger) (h : Happening) : Prop where
  posted : ∀ i e, h.logged? = some (i, e) → b.place = i ∧ ∃ rest, b.owed = e.event :: rest
  paid : lossless → h.logged? = none → b.owed = []
  free : ∀ i m, h = .opened i m → b.queue i = []

/-- **A journal that the ledger permits** from its beginning to its end. -/
def Reads (lossless : Prop) (b : Ledger) : List Happening → Prop
  | [] => True
  | h :: rest => b.Permits lossless h ∧ (b.note h).Reads lossless rest

/-- All that is still due from a change: what is owed, if it is from there, and what is queued. -/
def due (b : Ledger) (i : Nat) : List Event :=
  (if b.place = i then b.owed else []) ++ b.queue i

variable {lossless : Prop} {b : Ledger} {c : Change}

theorem due_of_owed (howed : b.owed = []) : b.due i = b.queue i := by
  rw [due, howed]
  split <;> rfl

theorem after_append (b : Ledger) (journal later : List Happening) :
    b.after (journal ++ later) = (b.after journal).after later :=
  List.foldl_append

theorem after_snoc (b : Ledger) (journal : List Happening) (h : Happening) :
    b.after (journal ++ [h]) = (b.after journal).note h :=
  b.after_append journal [h]

theorem reads_append :
    b.Reads lossless (journal ++ later) ↔
      b.Reads lossless journal ∧ (b.after journal).Reads lossless later := by
  induction journal generalizing b with
  | nil => simp [Reads, after]
  | cons h journal ih =>
    rw [List.cons_append, Reads, ih, Reads, and_assoc]
    rfl

/-- What the ledger permits at each point of a journal. -/
theorem Reads.permits (hreads : b.Reads lossless (journal ++ h :: later)) :
    (b.after journal).Permits lossless h :=
  (reads_append.1 hreads).2.1

/-! ### What a happening does -/

theorem note_of_logged (hlogged : h.logged? = some (i, e)) :
    b.note h = { b with owed := b.owed.tail } := by
  cases h with
  | delivered => rfl
  | written => rfl
  | _ => cases hlogged

/-- Only what is let in acts on a change. -/
theorem note_changes (b : Ledger) (h : Happening) (i : Nat) :
    (b.note h).changes i = (b.changes i).map (·.run (openedOf i [h])) := by
  have hsame : ∀ o : Option Change, o = o.map (·.run []) := fun o => by cases o <;> rfl
  cases h with
  | opened j m =>
    by_cases hji : j = i
    · simp only [note, openedOf, hji, if_true, List.filterMap_cons, List.filterMap_nil]
      rfl
    · simp only [note, openedOf, hji, if_false, List.filterMap_cons, List.filterMap_nil]
      exact hsame _
  | _ => exact hsame _

theorem after_changes (b : Ledger) (journal : List Happening) (i : Nat) :
    (b.after journal).changes i = (b.changes i).map (·.run (openedOf i journal)) := by
  induction journal generalizing b with
  | nil => cases hc : b.changes i <;> simp [after, hc, openedOf]
  | cons h journal ih =>
    change ((b.note h).after journal).changes i = _
    have hcut : openedOf i (h :: journal) = openedOf i [h] ++ openedOf i journal :=
      openedOf_append i [h] journal
    rw [ih, note_changes, Option.map_map, hcut]
    congr 1
    funext c
    exact (Change.run_append _ _ _).symm

/-- **What a change queues is all that becomes due from it,** and what goes out is taken off. -/
theorem Permits.balance (hpermits : b.Permits True h) (hc : b.changes i = some c) :
    loggedOf i [h] ++ (b.note h).due i = b.due i ++ c.queuedAll (openedOf i [h]) := by
  cases hlogged : h.logged? with
  | some entry =>
    obtain ⟨j, e⟩ := entry
    obtain ⟨rfl, rest, howed⟩ := hpermits.posted j e hlogged
    have hopened : openedOf i [h] = [] := by
      cases h with
      | delivered => rfl
      | written => rfl
      | _ => cases hlogged
    rw [loggedOf, logOf_of_logged hlogged, note_of_logged hlogged, hopened, Ledger.due, Ledger.due,
      howed]
    by_cases hplace : b.place = i <;> simp [hplace, Change.queuedAll]
  | none =>
    have howed := hpermits.paid trivial hlogged
    rw [loggedOf, logOf_of_not_logged hlogged, due_of_owed howed]
    cases h with
    | opened j m =>
      have hfree := hpermits.free j m rfl
      rw [due_of_owed rfl]
      by_cases hji : j = i
      · subst hji
        simp [note, openedOf, hc, hfree, Change.queuedAll]
      · simp [note, openedOf, hji, Change.queuedAll]
    | closed j outcome =>
      by_cases hji : j = i
      · subst hji
        simp [due, note, openedOf, Change.queuedAll]
      · simp [due, note, openedOf, hji, Change.queuedAll]
    | refused | notified => rw [due_of_owed rfl]; exact (List.append_nil _).symm
    | reached => exact (due_of_owed howed).trans (List.append_nil _).symm
    | delivered | written => cases hlogged

/-- **The balance of a stretch.** -/
theorem Reads.balance (hreads : b.Reads True journal) (hc : b.changes i = some c) :
    loggedOf i journal ++ (b.after journal).due i =
      b.due i ++ c.queuedAll (openedOf i journal) := by
  induction journal generalizing b c with
  | nil => exact (List.append_nil _).symm
  | cons h journal ih =>
    obtain ⟨hpermits, hrest⟩ := hreads
    have hnext : (b.note h).changes i = some (c.run (openedOf i [h])) := by
      rw [note_changes, hc]
      rfl
    calc loggedOf i (h :: journal) ++ (b.after (h :: journal)).due i
        = loggedOf i [h] ++ (loggedOf i journal ++ ((b.note h).after journal).due i) := by
          rw [← List.append_assoc, ← loggedOf_append, List.singleton_append]
          rfl
      _ = (loggedOf i [h] ++ (b.note h).due i) ++
            (c.run (openedOf i [h])).queuedAll (openedOf i journal) := by
          rw [ih hrest hnext, List.append_assoc]
      _ = b.due i ++ c.queuedAll (openedOf i (h :: journal)) := by
          rw [hpermits.balance hc, List.append_assoc, ← Change.queuedAll_append,
            ← openedOf_append, List.singleton_append]

/-- **A delivery takes its events off what is owed,** in their order. -/
theorem reads_of_logs {sent dropped : List Event} (hlogs : ∀ h ∈ journal, h.Logs)
    (hlog : logOf journal = sent.map (i, ·)) (hplace : b.place = i)
    (howed : b.owed = sent ++ dropped)
    (hlossless : lossless → ∀ h ∈ journal, h.logged?.isSome = true) :
    b.Reads lossless journal ∧ b.after journal = { b with owed := dropped } := by
  induction journal generalizing b sent with
  | nil =>
    cases sent with
    | nil => exact ⟨trivial, by rw [← show b.owed = dropped from howed]; rfl⟩
    | cons e sent => cases hlog
  | cons h journal ih =>
    have hrest : ∀ h ∈ journal, h.Logs := fun h hmem => hlogs h (List.mem_cons_of_mem _ hmem)
    have hlossless' : lossless → ∀ h ∈ journal, h.logged?.isSome = true :=
      fun hl h hmem => hlossless hl h (List.mem_cons_of_mem _ hmem)
    have hsplit : logOf (h :: journal) = logOf [h] ++ logOf journal := logOf_append [h] journal
    cases hlogged : h.logged? with
    | none =>
      have hreached : b.note h = b := by
        have hone := hlogs h List.mem_cons_self
        cases h with
        | reached => rfl
        | delivered | written => cases hlogged
        | _ => exact absurd hone id
      rw [hsplit, logOf_of_not_logged hlogged] at hlog
      obtain ⟨hreads, hafter⟩ := ih hrest hlog hplace howed hlossless'
      refine ⟨⟨⟨?_, ?_, ?_⟩, by rwa [hreached]⟩, ?_⟩
      · intro j e heq
        rw [hlogged] at heq
        cases heq
      · intro hl _
        have hsome := hlossless hl h List.mem_cons_self
        rw [hlogged] at hsome
        cases hsome
      · rintro j m rfl
        exact absurd (hlogs _ List.mem_cons_self) id
      · change (b.note h).after journal = _
        rwa [hreached]
    | some entry =>
      obtain ⟨j, e⟩ := entry
      rw [hsplit, logOf_of_logged hlogged] at hlog
      cases sent with
      | nil => cases hlog
      | cons first sent =>
        obtain ⟨hfirst, hlater⟩ := List.cons.inj hlog
        obtain ⟨rfl, rfl⟩ := Prod.mk.inj hfirst
        have hnote := note_of_logged (b := b) hlogged
        obtain ⟨hreads, hafter⟩ := @ih { b with owed := sent ++ dropped } sent hrest hlater
          hplace rfl hlossless'
        rw [howed] at hnote
        refine ⟨⟨⟨?_, ?_, ?_⟩, ?_⟩, ?_⟩
        · intro j' e' heq
          rw [hlogged] at heq
          cases heq
          exact ⟨hplace, _, howed⟩
        · intro _ heq
          rw [hlogged] at heq
          cases heq
        · rintro j' m rfl
          cases hlogged
        · rw [hnote]
          exact hreads
        · change (b.note h).after journal = _
          rw [hnote]
          exact hafter

/-! ### Where what is due comes from -/

/-- **What is queued was queued by the mutation that is running.** -/
theorem queue_origin (hqueue : b.queue i = []) (hsome : (b.after journal).queue i ≠ []) :
    ∃ before m during c, journal = before ++ .opened i m :: during ∧
      (∀ outcome, .closed i outcome ∉ during) ∧ b.changes i = some c ∧
      (b.after journal).queue i = (c.run (openedOf i before)).queued m := by
  induction journal using List.reverseRecOn with
  | nil => exact absurd hqueue hsome
  | append_singleton journal h ih =>
    rw [after_snoc] at hsome ⊢
    -- what neither lets a mutation of the change in nor ends one leaves its queue alone
    have hearlier : ((b.after journal).note h).queue i = (b.after journal).queue i →
        (∀ outcome, h ≠ .closed i outcome) →
        ∃ before m during c, journal ++ [h] = before ++ .opened i m :: during ∧
          (∀ outcome, .closed i outcome ∉ during) ∧ b.changes i = some c ∧
          ((b.after journal).note h).queue i = (c.run (openedOf i before)).queued m := by
      intro hsame hopen
      obtain ⟨before, m, during, c, rfl, hduring, hc, heq⟩ := ih (hsame ▸ hsome)
      refine ⟨before, m, during ++ [h], c, by simp, fun outcome hmem => ?_, hc, hsame.trans heq⟩
      rcases List.mem_append.1 hmem with hmem | hmem
      · exact hduring outcome hmem
      · exact hopen outcome (List.mem_singleton.1 hmem).symm
    cases h with
    | opened j m =>
      by_cases hji : j = i
      · subst hji
        have hchanges := b.after_changes journal j
        simp only [note, if_true] at hsome ⊢
        cases hc : b.changes j with
        | none => simp [hchanges, hc] at hsome
        | some c =>
          refine ⟨journal, m, [], c, rfl, fun _ => List.not_mem_nil, rfl, ?_⟩
          rw [hchanges, hc]
          rfl
      · exact hearlier (by simp [note, hji]) nofun
    | closed j outcome =>
      by_cases hji : j = i
      · simp [note, hji] at hsome
      · exact hearlier (by simp [note, hji]) fun _ heq => hji (Happening.closed.inj heq).1
    | _ => exact hearlier rfl nofun

/-- A change that has something queued is in the middle of a mutation. -/
theorem running_of_queue (hqueue : b.queue i = []) (hsome : (b.after journal).queue i ≠ []) :
    Running i journal := by
  obtain ⟨before, m, during, c, heq, hduring, -⟩ := queue_origin hqueue hsome
  exact ⟨before, m, during, heq, hduring⟩

/-- **What is owed was queued by the mutation whose body ended last,** and nothing but its first
events has gone out since. -/
theorem Reads.owed_origin (hreads : b.Reads lossless journal) (howed : b.owed = [])
    (hsome : (b.after journal).owed ≠ []) :
    ∃ before outcome block sent,
      journal = before ++ .closed (b.after journal).place outcome :: block ∧
      (∀ h ∈ block, h.Logs) ∧ logOf block = sent.map ((b.after journal).place, ·) ∧
      (b.after before).queue (b.after journal).place = sent ++ (b.after journal).owed := by
  induction journal using List.reverseRecOn with
  | nil => exact absurd howed hsome
  | append_singleton journal h ih =>
    obtain ⟨hinit, hpermits, -⟩ := reads_append.1 hreads
    rw [after_snoc] at hsome ⊢
    -- what is owed after an event has gone out, or a command has been reached, was owed before
    have hearlier : ∀ gone, h.Logs → logOf [h] = gone.map ((b.after journal).place, ·) →
        ((b.after journal).note h).place = (b.after journal).place →
        (b.after journal).owed = gone ++ ((b.after journal).note h).owed →
        ∃ before outcome block sent,
          journal ++ [h] = before ++ .closed ((b.after journal).note h).place outcome :: block ∧
          (∀ h ∈ block, h.Logs) ∧
          logOf block = sent.map (((b.after journal).note h).place, ·) ∧
          (b.after before).queue ((b.after journal).note h).place =
            sent ++ ((b.after journal).note h).owed := by
      intro gone hlogs hgone hplace hrest
      obtain ⟨before, outcome, block, sent, heq, hblock, hsent, hqueue⟩ := ih hinit fun hnil => by
        rw [hnil] at hrest
        exact hsome (List.append_eq_nil_iff.1 hrest.symm).2
      refine ⟨before, outcome, block ++ [h], sent ++ gone, ?_, fun h' hmem => ?_, ?_, ?_⟩
      · rw [hplace, ← List.cons_append, ← List.append_assoc, ← heq]
      · rcases List.mem_append.1 hmem with hmem | hmem
        · exact hblock h' hmem
        · exact List.mem_singleton.1 hmem ▸ hlogs
      · rw [logOf_append, hsent, hgone, hplace, List.map_append]
      · rw [hplace, hqueue, hrest, List.append_assoc]
    cases h with
    | closed i outcome =>
      exact ⟨journal, outcome, [], [], rfl, fun _ hmem => absurd hmem List.not_mem_nil, rfl, rfl⟩
    | reached changes => exact hearlier [] trivial rfl rfl rfl
    | delivered i e reaction =>
      obtain ⟨hplace, rest, hrest⟩ := hpermits.posted i e rfl
      refine hearlier [e.event] trivial (by rw [hplace]; rfl) rfl ?_
      rw [hrest, note, hrest]
      rfl
    | written i e =>
      obtain ⟨hplace, rest, hrest⟩ := hpermits.posted i e rfl
      refine hearlier [e.event] trivial (by rw [hplace]; rfl) rfl ?_
      rw [hrest, note, hrest]
      rfl
    | opened | refused | notified => exact absurd rfl hsome

/-- **Each event that goes out is the next one of the mutation whose body ended last:** it goes out
once, behind the events of the same mutation that went out before it, and nothing else goes out in
between. -/
theorem Reads.origin (hreads : b.Reads lossless (journal ++ h :: later))
    (hlogged : h.logged? = some (i, e)) (howed : b.owed = []) (hqueue : b.queue i = []) :
    ∃ before m during outcome block c sent rest,
      journal = before ++ .opened i m :: (during ++ .closed i outcome :: block) ∧
      (∀ outcome', .closed i outcome' ∉ during) ∧ (∀ h ∈ block, h.Logs) ∧
      b.changes i = some c ∧ logOf block = sent.map (i, ·) ∧
      (c.run (openedOf i before)).queued m = sent ++ e.event :: rest := by
  obtain ⟨hinit, hpermits, -⟩ := reads_append.1 hreads
  obtain ⟨hplace, rest, hrest⟩ := hpermits.posted i e hlogged
  obtain ⟨before, outcome, block, sent, heq, hblock, hsent, hsource⟩ :=
    hinit.owed_origin howed (by rw [hrest]; exact List.cons_ne_nil _ _)
  rw [hplace] at heq hsent hsource
  rw [hrest] at hsource
  obtain ⟨earlier, m, during, c, rfl, hduring, hc, hqueued⟩ :=
    queue_origin hqueue (by rw [hsource]; simp)
  refine ⟨earlier, m, during, outcome, block, c, sent, rest, ?_, hduring, hblock, hc, hsent, ?_⟩
  · rw [heq, List.append_assoc, List.cons_append]
  · rw [← hqueued, hsource]

/-! ### While a mutation is running -/

/-- What a mutation queued stays queued until it ends. -/
theorem queue_of_open (hclosed : ∀ outcome, .closed i outcome ∉ journal)
    (hopened : ∀ m, .opened i m ∉ journal) : (b.after journal).queue i = b.queue i := by
  induction journal generalizing b with
  | nil => rfl
  | cons h journal ih =>
    have hrest := @ih (b.note h) (fun outcome hmem => hclosed outcome (List.mem_cons_of_mem _ hmem))
      fun m hmem => hopened m (List.mem_cons_of_mem _ hmem)
    refine hrest.trans ?_
    cases h with
    | opened j m =>
      have hji : j ≠ i := fun hji => hopened m (hji ▸ List.mem_cons_self)
      simp [note, hji]
    | closed j outcome =>
      have hji : j ≠ i := fun hji => hclosed outcome (hji ▸ List.mem_cons_self)
      simp [note, hji]
    | _ => rfl

/-- **Nothing goes out of a change from which nothing is owed** until a body of it ends. -/
theorem Reads.loggedOf_of_open (hreads : b.Reads lossless journal)
    (hclosed : ∀ outcome, .closed i outcome ∉ journal) (hnothing : b.place = i → b.owed = []) :
    loggedOf i journal = [] := by
  induction journal generalizing b with
  | nil => rfl
  | cons h journal ih =>
    obtain ⟨hpermits, hrest⟩ := hreads
    have hsplit : loggedOf i (h :: journal) = loggedOf i [h] ++ loggedOf i journal :=
      loggedOf_append i [h] journal
    have hlater := @ih (b.note h) hrest fun outcome hmem =>
      hclosed outcome (List.mem_cons_of_mem _ hmem)
    cases hlogged : h.logged? with
    | some entry =>
      obtain ⟨hplace, rest, howed⟩ := hpermits.posted entry.1 entry.2 hlogged
      have hne : entry.1 ≠ i := by
        rintro rfl
        rw [hnothing hplace] at howed
        cases howed
      rw [hsplit, loggedOf, logOf_of_logged hlogged, hlater fun hsame => ?_]
      · simp [hne]
      · rw [note_of_logged hlogged] at hsame
        exact absurd (hplace.symm.trans hsame) hne
    | none =>
      rw [hsplit, loggedOf, logOf_of_not_logged hlogged, hlater fun hsame => ?_]
      · rfl
      · cases h with
        | closed j outcome => exact absurd (hsame ▸ List.mem_cons_self) (hclosed outcome)
        | reached => exact hnothing hsame
        | delivered | written => cases hlogged
        | opened | refused | notified => rfl

/-! ### A log without losses -/

/-- **What is owed goes out at once,** before anything else happens. -/
theorem Reads.block (hreads : b.Reads True journal) (hpaid : (b.after journal).owed = []) :
    ∃ block later, journal = block ++ later ∧ (∀ h ∈ block, h.logged?.isSome = true) ∧
      logOf block = b.owed.map (b.place, ·) := by
  generalize howed : b.owed = owed
  induction owed generalizing b journal with
  | nil => exact ⟨[], journal, rfl, fun _ hmem => absurd hmem List.not_mem_nil, rfl⟩
  | cons event owed ih =>
    cases journal with
    | nil =>
      rw [show b.owed = [] from hpaid] at howed
      cases howed
    | cons h journal =>
      obtain ⟨hpermits, hrest⟩ := hreads
      cases hlogged : h.logged? with
      | none =>
        rw [hpermits.paid trivial hlogged] at howed
        cases howed
      | some entry =>
        obtain ⟨hplace, rest, hfirst⟩ := hpermits.posted entry.1 entry.2 hlogged
        rw [howed] at hfirst
        obtain ⟨rfl, rfl⟩ := List.cons.inj hfirst
        have hnote := note_of_logged (b := b) hlogged
        obtain ⟨block, later, rfl, hblock, hlog⟩ :=
          @ih journal (b.note h) hrest hpaid (by rw [hnote, howed]; rfl)
        refine ⟨h :: block, later, rfl, fun h' hmem => ?_, ?_⟩
        · rcases List.mem_cons.1 hmem with rfl | hmem
          · rw [hlogged]
            rfl
          · exact hblock h' hmem
        · rw [← List.singleton_append, logOf_append, logOf_of_logged hlogged, hlog, hnote, hplace]
          rfl

/-- **Between two of its mutations nothing is due from a change.** -/
theorem Reads.due_of_between (hreads : b.Reads True (journal ++ later))
    (hpaid : (b.after (journal ++ later)).owed = []) (hqueue : b.queue i = [])
    (hbetween : Between i journal later) : (b.after journal).due i = [] := by
  obtain ⟨hidle, hnext⟩ := hbetween
  have hnothing : (b.after journal).queue i = [] :=
    Classical.not_not.1 fun hsome => hidle (running_of_queue hqueue hsome)
  rw [due, hnothing, List.append_nil]
  split
  · rename_i hplace
    -- what is owed would go out next
    cases later with
    | nil => rwa [List.append_nil] at hpaid
    | cons h later =>
      have hpermits := hreads.permits
      cases hlogged : h.logged? with
      | none => exact hpermits.paid trivial hlogged
      | some entry =>
        obtain ⟨hsame, -⟩ := hpermits.posted entry.1 entry.2 hlogged
        rw [hplace] at hsame
        exact absurd (hsame ▸ hlogged) (hnext h rfl entry.2)
  · rfl

/-- **The log of a stretch between two mutations of a change** has all the events of the mutations
of the stretch, and no others of the change. -/
theorem Reads.loggedOf_eq {before stretch : List Happening}
    (hreads : b.Reads True (before ++ (stretch ++ later)))
    (hpaid : (b.after (before ++ (stretch ++ later))).owed = []) (hqueue : b.queue i = [])
    (hc : b.changes i = some c) (hfirst : Between i before (stretch ++ later))
    (hlast : Between i (before ++ stretch) later) :
    loggedOf i stretch = (c.run (openedOf i before)).queuedAll (openedOf i stretch) := by
  have hbegin := hreads.due_of_between hpaid hqueue hfirst
  rw [← List.append_assoc] at hreads hpaid
  have hend := hreads.due_of_between hpaid hqueue hlast
  rw [after_append] at hend
  have hchange : (b.after before).changes i = some (c.run (openedOf i before)) := by
    rw [after_changes, hc]
    rfl
  have hbalance := (reads_append.1 (reads_append.1 hreads).1).2.balance hchange
  rwa [hbegin, hend, List.append_nil] at hbalance

end Ledger

end ChangeGate
