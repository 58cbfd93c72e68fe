import ChangeGate.Proofs.Session.Batch
import ChangeGate.Proofs.Session.Serial
/-!
# Every log is accounted for

The journal of a run is one that a `Ledger` reads, as long as the sinks do not call back: what a
mutation queues is owed once its body has ended, and goes out then or never. If the sinks do not
fail either, the log is without losses.

A listener may run mutations of other changes in between. They find nothing owed, since its own
mutation has not ended, and they leave the queue of that one alone, since the change is marked.
-/

namespace ChangeGate

/-- **The changes at some places have sinks that do not call back,** and that take whatever they
are given if the log is to be without losses. -/
structure Session.Heard (lossless : Prop) (s : Session) (places : List Nat) : Prop where
  silent : s.Silent places
  recording : lossless → s.Recording places

/-- **A ledger of a session:** it has its changes, all of them at the places in question, and
nothing is queued where no mutation is running. -/
structure Ledger.Matches (places : List Nat) (b : Ledger) (s : Session) : Prop where
  changes : ∀ i, b.changes i = s.change? i
  known : ∀ i c, b.changes i = some c → i ∈ places
  idle : ∀ i c, s.slots[i]? = some ⟨c, false⟩ → b.queue i = []

/-- **A stretch that a ledger reads** to its end, where all is paid again. It leaves the marked
changes alone, and their queues. -/
structure Ledger.Covers (lossless : Prop) (places : List Nat) (b : Ledger) (s : Session)
    (journal : List Happening) (s' : Session) : Prop where
  reads : b.Reads lossless journal
  matched : (b.after journal).Matches places s'
  paid : lossless → (b.after journal).owed = []
  marked : ∀ i c, s.Marked i c → s'.Marked i c ∧ (b.after journal).queue i = b.queue i

/-- **A stretch that is accounted for** by every ledger in which all is paid. -/
structure Accounted (lossless : Prop) (places : List Nat) (s : Session)
    (journal : List Happening) (s' : Session) : Prop where
  heard : s'.Heard lossless places
  covers : ∀ b : Ledger, b.Matches places s → (lossless → b.owed = []) →
    b.Covers lossless places s journal s'

/-- A stretch that begins with such sinks and is accounted for. -/
def Accounts (lossless : Prop) (places : List Nat) (s : Session) (journal : List Happening)
    (s' : Session) : Prop :=
  s.Heard lossless places → Accounted lossless places s journal s'

variable {lossless : Prop} {places : List Nat} {b : Ledger} {s s' s'' t : Session}
  {journal later : List Happening} {i : Nat} {c : Change}

namespace Session

/-! ## Sinks -/

theorem kept_silent (places : List Nat) : Kept fun s => s.Silent places where
  slots _ _ h := h
  listeners _ _ h := h
  ticks _ _ h := h
  stored _ _ _ _ h := h
  used s i logger failOn reactions hlogger hsink h := by
    intro j hj l hl
    rw [getElem?_put hlogger] at hl
    split at hl
    · rename_i hij
      subst hij
      cases hl
      have hsilent := h i hj logger hlogger
      rw [Logger.Silent, hsink] at hsilent
      exact fun reaction hmem => hsilent reaction (List.mem_of_mem_tail hmem)
    · exact h j hj l hl

theorem kept_heard (lossless : Prop) (places : List Nat) :
    Kept fun s => s.Heard lossless places where
  slots s slots h := ⟨(kept_silent places).slots s slots h.silent,
    fun hl => (kept_recording places).slots s slots (h.recording hl)⟩
  listeners s listeners h := ⟨(kept_silent places).listeners s listeners h.silent,
    fun hl => (kept_recording places).listeners s listeners (h.recording hl)⟩
  ticks s ticks h := ⟨(kept_silent places).ticks s ticks h.silent,
    fun hl => (kept_recording places).ticks s ticks (h.recording hl)⟩
  stored s storage logged hm h := ⟨(kept_silent places).stored s storage logged hm h.silent,
    fun hl => (kept_recording places).stored s storage logged hm (h.recording hl)⟩
  used s i logger failOn reactions hlogger hsink h :=
    ⟨(kept_silent places).used s i logger failOn reactions hlogger hsink h.silent,
      fun hl => (kept_recording places).used s i logger failOn reactions hlogger hsink
        (h.recording hl)⟩

/-- **A delivery pays what is owed,** as far as it gets. -/
theorem Heard.deliver (hs : s.Heard lossless places) (hi : i ∈ places) (supply : Supply)
    (depth : Nat) (hplace : b.place = i) :
    b.Reads lossless (s.deliver supply (react supply depth) i b.owed).journal ∧
      ∃ dropped, b.after (s.deliver supply (react supply depth) i b.owed).journal =
          { b with owed := dropped } ∧
        (lossless → dropped = []) := by
  obtain ⟨-, hlogs, -⟩ := hs.silent.deliver supply (react_silent supply depth) hi b.owed
  by_cases hl : lossless
  · obtain ⟨hlog, hlogged⟩ := (hs.recording hl).deliver supply depth hi b.owed
    obtain ⟨hreads, hafter⟩ := Ledger.reads_of_logs hlogs hlog hplace (List.append_nil _).symm
      fun _ => hlogged
    exact ⟨hreads, [], hafter, fun _ => rfl⟩
  · by_cases hsink : ∃ logger, s.loggers[i]? = some logger ∧ logger.sink.isSome = true
    · obtain ⟨logger, hlogger, hsink⟩ := hsink
      obtain ⟨sent, dropped, howed, hbatch⟩ := batch_of_silent supply depth hlogger hsink
        (hs.silent i hi logger hlogger) b.owed
      obtain ⟨hreads, hafter⟩ := Ledger.reads_of_logs hlogs hbatch.log hplace howed
        fun h => absurd h hl
      exact ⟨hreads, dropped, hafter, fun h => absurd h hl⟩
    · -- without a sink nothing goes out
      rw [deliver_of_no_sink supply fun logger hlogger => by
        cases hnone : logger.sink with
        | none => rfl
        | some sink => exact absurd ⟨logger, hlogger, by rw [hnone]; rfl⟩ hsink]
      exact ⟨trivial, b.owed, rfl, fun h => absurd h hl⟩

end Session

/-! ## Ledgers of sessions -/

namespace Ledger

/-- Where all is paid, anything may happen that is no delivery and lets no mutation in. -/
theorem Permits.of_paid {h : Happening} (hlogged : h.logged? = none)
    (hpaid : lossless → b.owed = []) (hfree : ∀ i m, h = .opened i m → b.queue i = []) :
    b.Permits lossless h := by
  refine ⟨fun i e heq => ?_, fun hl _ => hpaid hl, hfree⟩
  rw [hlogged] at heq
  cases heq

namespace Matches

theorem of_slots (hb : b.Matches places s) (hslots : t.slots = s.slots) :
    b.Matches places t where
  changes i := by rw [hb.changes, Session.change?, Session.change?, hslots]
  known := hb.known
  idle i c hslot := hb.idle i c (by rwa [← hslots])

theorem mem (hb : b.Matches places s) {mutating : Bool}
    (hslot : s.slots[i]? = some ⟨c, mutating⟩) : i ∈ places :=
  hb.known i c (by rw [hb.changes, Session.change?, hslot]; rfl)

/-- **A mutation is let in:** what it queues is in the ledger from then on. -/
theorem opened (hb : b.Matches places s) (hslot : s.slots[i]? = some ⟨c, false⟩) (m : Mutation) :
    (b.note (.opened i m)).Matches places (s.setSlot i ⟨c.after m, true⟩) ∧
      (b.note (.opened i m)).queue i = c.queued m := by
  have hc : b.changes i = some c := by rw [hb.changes, Session.change?, hslot]; rfl
  refine ⟨⟨fun j => ?_, fun j d hd => ?_, fun j d hd => ?_⟩, ?_⟩
  · rw [Session.change?, Session.setSlot, getElem?_put hslot]
    by_cases hij : i = j
    · subst hij
      simp [note, hc]
    · simp only [note, hij, if_false]
      exact hb.changes j
  · rw [note_changes] at hd
    obtain ⟨old, hold, -⟩ := Option.map_eq_some_iff.1 hd
    exact hb.known j old hold
  · rw [Session.setSlot, getElem?_put hslot] at hd
    by_cases hij : i = j
    · rw [if_pos hij] at hd
      cases hd
    · rw [if_neg hij] at hd
      simp only [note, hij, if_false]
      exact hb.idle j d hd
  · simp [note, hc]

/-- **A body ends:** what its mutation queued is owed. -/
theorem closed (hb : b.Matches places s) (i : Nat) (outcome : Except Fault (Option Bool)) :
    (b.note (.closed i outcome)).Matches places (s.release i) where
  changes j := by
    refine (hb.changes j).trans ?_
    rw [Session.change?, Session.change?, Session.release, List.getElem?_modify]
    cases s.slots[j]? with
    | none => rfl
    | some slot => by_cases hij : i = j <;> simp [hij]
  known := hb.known
  idle j d hd := by
    by_cases hij : i = j
    · simp [note, hij]
    · rw [Session.release, List.getElem?_modify] at hd
      simp only [note, hij, if_false]
      exact hb.idle j d (by simpa [hij] using hd)

end Matches

namespace Covers

theorem trans (hfirst : b.Covers lossless places s journal s')
    (hlater : (b.after journal).Covers lossless places s' later s'') :
    b.Covers lossless places s (journal ++ later) s'' where
  reads := reads_append.2 ⟨hfirst.reads, hlater.reads⟩
  matched := by rw [after_append]; exact hlater.matched
  paid := by rw [after_append]; exact hlater.paid
  marked i c hslot := by
    obtain ⟨hmarked, hqueue⟩ := hfirst.marked i c hslot
    obtain ⟨hmarked', hqueue'⟩ := hlater.marked i c hmarked
    exact ⟨hmarked', by rw [after_append, hqueue', hqueue]⟩

/-- One happening that neither queues anything nor has it owed. -/
theorem note {h : Happening} (hb : b.Matches places s) (hpaid : lossless → b.owed = [])
    (hlogged : h.logged? = none) (hfree : ∀ i m, h ≠ .opened i m)
    (hnote : b.note h = b ∨ b.note h = { b with owed := [] }) (hslots : s'.slots = s.slots) :
    b.Covers lossless places s [h] s' where
  reads := ⟨.of_paid hlogged hpaid fun i m heq => absurd heq (hfree i m), trivial⟩
  matched := by
    change (b.note h).Matches places s'
    rcases hnote with hnote | hnote <;> rw [hnote]
    · exact hb.of_slots hslots
    · exact ⟨(hb.of_slots hslots).changes, hb.known, (hb.of_slots hslots).idle⟩
  paid hl := by
    change (b.note h).owed = []
    rcases hnote with hnote | hnote
    · rw [hnote]
      exact hpaid hl
    · rw [hnote]
  marked i c hslot := by
    refine ⟨by rwa [Session.Marked, hslots], ?_⟩
    change (b.note h).queue i = b.queue i
    rcases hnote with hnote | hnote <;> rw [hnote]

/-- **The ledger of a mutation.** What it queues is there while its listener is told, because the
change is marked; it is owed once the body has ended, and the delivery pays it. -/
theorem mutation (hb : b.Matches places s) (hpaid : lossless → b.owed = [])
    (hslot : s.slots[i]? = some ⟨c, false⟩) {m : Mutation} {told block : List Happening}
    {outcome : Except Fault (Option Bool)}
    (htold : (b.note (.opened i m)).Covers lossless places (s.setSlot i ⟨c.after m, true⟩) told t)
    (hblock : ∀ d : Ledger, d.place = i → d.owed = c.queued m → d.Reads lossless block ∧
      ∃ dropped, d.after block = { d with owed := dropped } ∧ (lossless → dropped = []))
    (hslots : s'.slots = (t.release i).slots) :
    b.Covers lossless places s (.opened i m :: told ++ .closed i outcome :: block) s' := by
  have hmarked : (s.setSlot i ⟨c.after m, true⟩).Marked i (c.after m) :=
    getElem?_put_self hslot _
  have hqueue : ((b.note (.opened i m)).after told).queue i = c.queued m := by
    rw [(htold.marked i _ hmarked).2, (hb.opened hslot m).2]
  obtain ⟨hreads, dropped, hafter, hdropped⟩ :=
    hblock (((b.note (.opened i m)).after told).note (.closed i outcome)) rfl hqueue
  have hwhole : b.after (.opened i m :: told ++ .closed i outcome :: block) =
      { ((b.note (.opened i m)).after told).note (.closed i outcome) with owed := dropped } := by
    rw [after_append]
    exact hafter
  have hended := htold.matched.closed i outcome
  refine ⟨reads_append.2 ⟨⟨?_, htold.reads⟩, ?_, hreads⟩, ?_, ?_, ?_⟩
  · refine .of_paid rfl hpaid fun j n heq => ?_
    obtain ⟨rfl, -⟩ := Happening.opened.inj heq
    exact hb.idle i c hslot
  · exact .of_paid rfl htold.paid fun _ _ => nofun
  · rw [hwhole]
    exact ⟨(hended.of_slots hslots).changes, hended.known, (hended.of_slots hslots).idle⟩
  · rw [hwhole]
    exact hdropped
  · intro j d hj
    have hij : i ≠ j := by
      rintro rfl
      rw [Session.Marked, hslot] at hj
      cases hj
    have hj' : (s.setSlot i ⟨c.after m, true⟩).Marked j d := by
      rwa [Session.Marked, Session.setSlot, getElem?_put hslot, if_neg hij]
    obtain ⟨htold', hqueue'⟩ := htold.marked j d hj'
    refine ⟨?_, ?_⟩
    · rw [Session.Marked, hslots, Session.release, List.getElem?_modify, htold']
      simp [hij]
    · rw [hwhole]
      simp only [Ledger.note, hij, if_false] at hqueue' ⊢
      exact hqueue'

end Covers

end Ledger

/-! ## Stretches -/

namespace Accounts

theorem chains (lossless : Prop) (places : List Nat) : Chains (Accounts lossless places) where
  still _ hheard := ⟨hheard, fun _ hb hpaid => ⟨trivial, hb, hpaid, fun _ _ h => ⟨h, rfl⟩⟩⟩
  trans hfirst hlater hheard := by
    have h := hfirst hheard
    have h' := hlater h.heard
    refine ⟨h'.heard, fun b hb hpaid => ?_⟩
    have hcovers := h.covers b hb hpaid
    exact hcovers.trans (h'.covers _ hcovers.matched hcovers.paid)

/-- One happening that neither queues anything nor has it owed. -/
theorem note {h : Happening} (hkept : s.Heard lossless places → s'.Heard lossless places)
    (hlogged : h.logged? = none) (hfree : ∀ i m, h ≠ .opened i m)
    (hnote : ∀ b : Ledger, b.note h = b ∨ b.note h = { b with owed := [] })
    (hslots : s'.slots = s.slots) : Accounts lossless places s [h] s' :=
  fun hheard => ⟨hkept hheard,
    fun b hb hpaid => .note hb hpaid hlogged hfree (hnote b) hslots⟩

end Accounts

namespace Session

/-- **A mutation.** What it queues is safe while its listener is told, for the change is marked,
and is paid as soon as the body has ended. -/
theorem mutate_accounts (lossless : Prop) (places : List Nat) (supply : Supply) (depth : Nat)
    (i : Nat) (m : Mutation) (s : Session)
    (hreact : (react supply depth).Within (Accounts lossless places)) :
    (s.mutate supply (react supply depth) i m).Within (Accounts lossless places) s := by
  cases hslot : s.slots[i]? with
  | none => rw [mutate_of_none hslot]; exact (Accounts.chains lossless places).still s
  | some slot =>
    obtain ⟨c, _ | _⟩ := slot
    · intro hheard
      cases happly : c.apply m with
      | error error =>
        rw [mutate_of_error hslot happly]
        -- there is nothing queued, and the change is as it was
        refine ⟨hheard, fun b hb hpaid => ?_⟩
        have hslots : s.slots = ((s.setSlot i ⟨c.after m, true⟩).release i).slots := by
          rw [release_setSlot, Change.after_of_error happly, put_self hslot]
        have hopened := (hb.opened hslot m).1
        change b.Covers lossless places s ([.opened i m] ++ [.closed i (.error (.change error))]) s
        refine .mutation hb hpaid hslot ?_ ?_ hslots
        · exact ⟨trivial, hopened, fun _ => rfl, fun _ _ h => ⟨h, rfl⟩⟩
        · intro d _ howed
          rw [Change.queued_of_error happly] at howed
          exact ⟨trivial, [], by rw [← howed]; rfl, fun _ => rfl⟩
      | ok e =>
        rw [mutate_of_ok hslot happly]
        have hkept := kept_heard lossless places
        have hnotified : ∀ (t : Session) name package reaction listeners, Accounts lossless places t
            [.notified i name package reaction] { t with listeners } :=
          fun t _ _ _ listeners => Accounts.note (hkept.listeners t listeners) rfl
            (fun _ _ => nofun) (fun _ => Or.inr rfl) rfl
        have htell := (Accounts.chains lossless places).tell hnotified hreact e.change.listener
          e.notify (s.setSlot i ⟨e.change, true⟩) (hkept.slots s _ hheard)
        change Accounted lossless places _ (s.announce (react supply depth) i e).journal
          (s.announce (react supply depth) i e).session at htell
        generalize s.announce (react supply depth) i e = told at htell
        have hreleased := hkept.slots told.session (told.session.release i).slots htell.heard
        refine ⟨(hkept.delivers supply i).deliver (react_keeps hkept supply depth) e.events _ hreleased,
          fun b hb hpaid => ?_⟩
        have hi := hb.mem hslot
        rw [← Change.after_of_ok happly] at htell
        refine .mutation hb hpaid hslot (htell.covers _ (hb.opened hslot m).1 fun _ => rfl)
          (fun d hplace howed => ?_) ?_
        · rw [Change.queued_of_ok happly] at howed
          rw [← howed]
          exact hreleased.deliver hi supply depth hplace
        · exact (hreleased.silent.deliver supply (react_silent supply depth) hi e.events).slots
    · rw [mutate_of_mutating hslot]
      change Accounts lossless places s [.refused i m] s
      exact Accounts.note id rfl (fun _ _ => nofun) (fun _ => Or.inr rfl) rfl

/-- **Whatever a command does is accounted for.** -/
theorem composes_accounts (lossless : Prop) (places : List Nat) (supply : Supply) :
    Composes supply (Accounts lossless places) where
  toChains := Accounts.chains lossless places
  stored s storage hmemory hheard :=
    have hkept := kept_heard lossless places
    ⟨hkept.stored s storage s.logged hmemory hheard,
      fun _ hb hpaid => ⟨trivial, hb.of_slots rfl, hpaid, fun _ _ h => ⟨h, rfl⟩⟩⟩
  reached _ := Accounts.note id rfl (fun _ _ => nofun) (fun _ => Or.inl rfl) rfl
  mutate depth i m s hreact := mutate_accounts lossless places supply depth i m s hreact

end Session

end ChangeGate
