import ChangeGate.Session.Run
/-!
# The depth of callbacks

`Session.perform` nests callbacks no deeper than there are reactions left. `deepEnough`: a larger
bound makes no difference, so the bound cuts nothing short.

Every call that has a reaction uses it up, and nothing brings one back. So a reaction begins with
fewer of them left than the depth that its caller was given, which is what `Agree` asks for.
-/

namespace ChangeGate

/-- **Two reactors that a reaction cannot tell apart,** if it begins with fewer reactions left than
the bound. It leaves no more than it found. -/
structure Reactor.Agree (bound : Nat) (react react' : Reactor) : Prop where
  same : ∀ notified? reaction s, s.reactionsLeft < bound →
    react notified? reaction s = react' notified? reaction s
  used : ∀ notified? reaction s, s.reactionsLeft < bound →
    (react notified? reaction s).session.reactionsLeft ≤ s.reactionsLeft

/-- **Two runs that are one,** and leave no more reactions than they found. -/
structure Settled {α : Type} (s : Session) (d d' : Done α) : Prop where
  same : d = d'
  used : d.session.reactionsLeft ≤ s.reactionsLeft

namespace Settled

variable {α β : Type} {s t : Session} {d d' : Done α}

theorem of_session (hsession : d.session = s) : Settled s d d :=
  ⟨rfl, Nat.le_of_eq (congrArg Session.reactionsLeft hsession)⟩

theorem trans (ht : t.reactionsLeft ≤ s.reactionsLeft) (hd : Settled t d d') : Settled s d d' :=
  ⟨hd.same, Nat.le_trans hd.used ht⟩

theorem next {f f' : α → Session → Done β} (hd : Settled s d d')
    (hf : ∀ a t, t.reactionsLeft ≤ s.reactionsLeft → Settled t (f a t) (f' a t)) :
    Settled s (d.next f) (d'.next f') := by
  obtain ⟨rfl, hused⟩ := hd
  unfold Done.next
  split
  · exact ⟨rfl, hused⟩
  · rename_i a _
    obtain ⟨hsame, hused'⟩ := hf a d.session hused
    rw [hsame] at hused' ⊢
    exact ⟨rfl, Nat.le_trans hused' hused⟩

theorem map {f : α → β} (hd : Settled s d d') : Settled s (d.map f) (d'.map f) := by
  obtain ⟨rfl, hused⟩ := hd
  exact ⟨rfl, hused⟩

end Settled

/-! ## Reactions used up -/

/-- What a total loses and gains as one item takes the place of another. -/
theorem total_set {α : Type} (count : α → Nat) {items : List α} {i : Nat} {old : α}
    (hold : items[i]? = some old) (new : α) :
    total count (items.set i new) + count old = total count items + count new := by
  induction items generalizing i with
  | nil => simp at hold
  | cons item items ih =>
    cases i with
    | zero =>
      cases hold
      simp only [List.set_cons_zero, total]
      omega
    | succ i =>
      have hrest := ih (by simpa using hold)
      simp only [List.set_cons_succ, total]
      omega

namespace Session

/-- **A call of a listener uses up its reaction.** -/
theorem reactionsLeft_listener {s : Session} {i : Nat} {l : Listener} {reaction : Reaction}
    {later : List Reaction} (hlistener : s.listeners[i]? = some l)
    (hreactions : l.reactions = reaction :: later) :
    reactionsLeft { s with listeners := s.listeners.set i { l with reactions := later } } + 1 =
      s.reactionsLeft := by
  have hsum := total_set (fun l => l.reactions.length) hlistener { l with reactions := later }
  simp only [hreactions, List.length_cons] at hsum
  simp only [reactionsLeft]
  omega

/-- **So does a call of a sink,** if there is one left. -/
theorem reactionsLeft_sink {s : Session} {i : Nat} {logger : Logger} {failOn : List EventKind}
    {reactions : List Reaction} (hlogger : s.loggers[i]? = some logger)
    (hsink : logger.sink = some (.script failOn reactions)) :
    reactionsLeft { s with
      loggers := s.loggers.set i { logger with sink := some (.script failOn reactions.tail) } } +
        reactions.length = s.reactionsLeft + reactions.tail.length := by
  have hsum := total_set Logger.reactionsLeft hlogger
    { logger with sink := some (.script failOn reactions.tail) }
  simp only [Logger.reactionsLeft, hsink] at hsum
  simp only [reactionsLeft]
  omega

variable {supply : Supply} {react react' : Reactor} {bound : Nat} {s : Session}

/-! ## Callbacks -/

theorem callListener_settled (hagree : react.Agree bound react') (i listener : Nat)
    (package : String) (hbound : s.reactionsLeft ≤ bound) :
    Settled s (s.callListener react i listener package)
      (s.callListener react' i listener package) := by
  unfold callListener
  split
  · exact .of_session rfl
  · rename_i l hlistener
    split
    · exact .of_session rfl
    · rename_i reaction later hreactions
      have hleft := reactionsLeft_listener hlistener hreactions
      have hsame := hagree.same (some package) reaction
        { s with listeners := s.listeners.set listener { l with reactions := later } } (by omega)
      have hused := hagree.used (some package) reaction
        { s with listeners := s.listeners.set listener { l with reactions := later } } (by omega)
      refine ⟨by rw [hsame], ?_⟩
      dsimp only
      omega

theorem tell_settled (hagree : react.Agree bound react') (i : Nat) (listener : Option Nat)
    (package : Option String) (hbound : s.reactionsLeft ≤ bound) :
    Settled s (s.tell react i listener package) (s.tell react' i listener package) := by
  unfold tell
  split
  · exact callListener_settled hagree i _ _ hbound
  · exact .of_session rfl

theorem callSink_settled (hagree : react.Agree bound react') {i : Nat} {logger : Logger}
    {failOn : List EventKind} {reactions : List Reaction} (hlogger : s.loggers[i]? = some logger)
    (hsink : logger.sink = some (.script failOn reactions)) (e : StampedEvent)
    (hbound : s.reactionsLeft ≤ bound) :
    Settled s (s.callSink react i logger failOn reactions e)
      (s.callSink react' i logger failOn reactions e) := by
  have hleft := reactionsLeft_sink hlogger hsink
  unfold callSink
  dsimp only
  split
  · refine ⟨rfl, ?_⟩
    -- a sink that fails on the kind has used its reaction up, too
    have htail := List.length_tail (l := reactions)
    dsimp only
    omega
  · cases reactions with
    | nil => exact ⟨rfl, Nat.le_of_eq hleft⟩
    | cons reaction later =>
      simp only [List.tail_cons, List.length_cons] at hleft ⊢
      have hsame := hagree.same e.event.packageName reaction { s with
        loggers := s.loggers.set i { logger with sink := some (.script failOn later) } } (by omega)
      have hused := hagree.used e.event.packageName reaction { s with
        loggers := s.loggers.set i { logger with sink := some (.script failOn later) } } (by omega)
      refine ⟨by rw [hsame], ?_⟩
      dsimp only
      omega

/-- A clock reading leaves the callbacks alone. -/
theorem readClock_callbacks (s : Session) (supply : Supply) (clock : Clock) :
    (s.readClock supply clock).1.loggers = s.loggers ∧
      (s.readClock supply clock).1.reactionsLeft = s.reactionsLeft := by
  cases clock <;> exact ⟨rfl, rfl⟩

theorem deliverOne_settled (hagree : react.Agree bound react') (i : Nat) (e : Event)
    (hbound : s.reactionsLeft ≤ bound) :
    Settled s (s.deliverOne supply react i e) (s.deliverOne supply react' i e) := by
  unfold deliverOne
  split
  · exact .of_session rfl
  · rename_i logger hlogger
    split
    · exact .of_session rfl
    · rename_i sink hsink
      obtain ⟨hloggers, hleft⟩ := readClock_callbacks s supply logger.clock
      dsimp only
      split
      · exact ⟨rfl, Nat.le_of_eq hleft⟩
      · refine .trans (Nat.le_of_eq hleft) (callSink_settled hagree ?_ hsink _ ?_)
        · rw [hloggers, hlogger]
        · omega

theorem deliver_settled (hagree : react.Agree bound react') (supply : Supply) (i : Nat)
    (events : List Event) (hbound : s.reactionsLeft ≤ bound) :
    Settled s (s.deliver supply react i events) (s.deliver supply react' i events) := by
  induction events generalizing s with
  | nil => exact .of_session rfl
  | cons e rest ih =>
    exact (deliverOne_settled hagree i e hbound).next fun _ t ht => ih (Nat.le_trans ht hbound)

/-! ## Mutations -/

theorem mutate_settled (hagree : react.Agree bound react') (i : Nat) (m : Mutation)
    (hbound : s.reactionsLeft ≤ bound) :
    Settled s (s.mutate supply react i m) (s.mutate supply react' i m) := by
  unfold mutate
  split
  · exact .of_session rfl
  · rename_i slot _
    dsimp only
    split
    · exact .of_session rfl
    · split
      · exact .of_session rfl
      · rename_i effect _
        -- marks are no reactions
        have htold := tell_settled hagree i effect.change.listener effect.notify
          (show (s.setSlot i ⟨effect.change, true⟩).reactionsLeft ≤ bound from hbound)
        obtain ⟨hsame, hused⟩ := htold
        rw [← hsame]
        generalize (s.setSlot i ⟨effect.change, true⟩).tell react i effect.change.listener
          effect.notify = told at hused
        have hleft : (told.session.release i).reactionsLeft ≤ s.reactionsLeft := hused
        obtain ⟨hsame', hused'⟩ :=
          deliver_settled hagree supply i effect.events (Nat.le_trans hleft hbound)
        rw [← hsame']
        exact ⟨rfl, Nat.le_trans hused' hleft⟩

theorem mutateOnly_settled (hagree : react.Agree bound react') (i : Nat) (m : Mutation)
    (hbound : s.reactionsLeft ≤ bound) :
    Settled s (s.mutateOnly supply react i m) (s.mutateOnly supply react' i m) :=
  (mutate_settled hagree i m hbound).map

theorem mutateFlag_settled (hagree : react.Agree bound react') (i : Nat) (m : Mutation)
    (hbound : s.reactionsLeft ≤ bound) :
    Settled s (s.mutateFlag supply react i m) (s.mutateFlag supply react' i m) :=
  (mutate_settled hagree i m hbound).map

/-! ## Commands -/

theorem clearAll_settled (hagree : react.Agree bound react') (places : List Nat)
    (hbound : s.reactionsLeft ≤ bound) :
    Settled s (s.clearAll supply react places) (s.clearAll supply react' places) := by
  induction places generalizing s with
  | nil => exact .of_session rfl
  | cons i rest ih =>
    exact (mutate_settled hagree i _ hbound).next fun _ t ht => ih (Nat.le_trans ht hbound)

theorem loadAll_settled (hagree : react.Agree bound react') (plan : List (Nat × Snapshot))
    (hbound : s.reactionsLeft ≤ bound) :
    Settled s (s.loadAll supply react plan) (s.loadAll supply react' plan) := by
  induction plan generalizing s with
  | nil => exact .of_session rfl
  | cons head rest ih =>
    exact (mutate_settled hagree head.1 _ hbound).next fun _ t ht => ih (Nat.le_trans ht hbound)

theorem load_settled (hagree : react.Agree bound react') (places : List Nat) (filename : String)
    (hbound : s.reactionsLeft ≤ bound) :
    Settled s (s.load supply react places filename) (s.load supply react' places filename) := by
  unfold load
  split
  · exact .of_session rfl
  · dsimp only
    split
    · exact .of_session rfl
    · exact (clearAll_settled hagree _ hbound).next fun _ t ht =>
        (loadAll_settled hagree _ (Nat.le_trans ht hbound)).map

/-- The storage holds no reactions. -/
theorem performStorage_settled (command : StorageCommand) :
    Settled s (s.performStorage command) (s.performStorage command) := by
  refine ⟨rfl, ?_⟩
  cases command <;> exact Nat.le_refl _

/-- **A command** ends the same under reactors that agree. -/
theorem performWith_settled (hagree : react.Agree bound react') (notified? : Option String)
    (c : Command) (hbound : s.reactionsLeft ≤ bound) :
    Settled s (s.performWith supply react notified? c)
      (s.performWith supply react' notified? c) := by
  unfold performWith
  cases c with
  | registerListener i listener => exact mutateOnly_settled hagree i _ hbound
  | setRawOverride i package draft verdict version =>
    dsimp only
    split
    · exact .of_session rfl
    · exact mutateOnly_settled hagree i _ hbound
  | recheck i package verdict version => exact mutateFlag_settled hagree i _ hbound
  | removeRawOverride i package verdict version =>
    dsimp only
    split <;> exact mutateFlag_settled hagree i _ hbound
  | clearOverrides i => exact mutateOnly_settled hagree i _ hbound
  | loadOverrides i snapshot => exact mutateOnly_settled hagree i _ hbound
  | checkOverrides i snapshot =>
    dsimp only
    split
    · exact .of_session rfl
    · split <;> exact .of_session rfl
  | transfer i source =>
    dsimp only
    split
    · exact .of_session rfl
    · split
      · exact .of_session rfl
      · exact mutateOnly_settled hagree i _ hbound
  | query i query =>
    dsimp only
    split <;> exact .of_session rfl
  | save places filename => exact ⟨rfl, Nat.le_refl _⟩
  | load places filename => exact (load_settled hagree places filename hbound).map
  | readStore filename => exact .of_session rfl
  | storage command => exact performStorage_settled command
  | raise message => exact .of_session rfl

/-! ## Reactions -/

theorem runSteps_agree {run run' : Command → Session → Done Answer} {reaction : Reaction}
    (hrun : ∀ c t, t.reactionsLeft ≤ bound → Settled t (run c t) (run' c t))
    (hbound : s.reactionsLeft ≤ bound) :
    runSteps run reaction s = runSteps run' reaction s ∧
      (runSteps run reaction s).session.reactionsLeft ≤ s.reactionsLeft := by
  induction reaction generalizing s with
  | nil => exact ⟨rfl, Nat.le_refl _⟩
  | cons step rest ih =>
    obtain ⟨hsame, hused⟩ := hrun step.command s hbound
    obtain ⟨hrest, hused'⟩ := ih (Nat.le_trans hused hbound)
    rw [runSteps, runSteps, ← hsame, ← hrest]
    dsimp only
    split
    · exact ⟨rfl, hused⟩
    · exact ⟨rfl, Nat.le_trans hused' hused⟩

/-- **Two depths that are no less than the bound make no difference.** -/
theorem react_agree (supply : Supply) {bound depth depth' : Nat} (hdepth : bound ≤ depth)
    (hdepth' : bound ≤ depth') :
    (Session.react supply depth).Agree bound (Session.react supply depth') := by
  induction bound generalizing depth depth' with
  | zero => exact ⟨nofun, nofun⟩
  | succ bound ih =>
    -- both have a level to give away, and below it they agree up to one reaction less
    obtain ⟨depth, rfl⟩ : ∃ n, depth = n + 1 := ⟨depth - 1, by omega⟩
    obtain ⟨depth', rfl⟩ : ∃ n, depth' = n + 1 := ⟨depth' - 1, by omega⟩
    have hagree := ih (Nat.le_of_succ_le_succ hdepth) (Nat.le_of_succ_le_succ hdepth')
    have hsteps : ∀ notified? reaction s, s.reactionsLeft < bound + 1 →
        Session.react supply (depth + 1) notified? reaction s =
            Session.react supply (depth' + 1) notified? reaction s ∧
          (Session.react supply (depth + 1) notified? reaction s).session.reactionsLeft ≤
            s.reactionsLeft := fun notified? reaction s hleft =>
      runSteps_agree (fun c t ht => performWith_settled hagree notified? c ht)
        (Nat.le_of_lt_succ hleft)
    exact ⟨fun notified? reaction s hleft => (hsteps notified? reaction s hleft).1,
      fun notified? reaction s hleft => (hsteps notified? reaction s hleft).2⟩

/-- **The bound on the depth cuts nothing short:** a command runs the same under a larger one. -/
def DeepEnough (supply : Supply) (s : Session) : Prop :=
  ∀ c depth, s.reactionsLeft ≤ depth →
    s.performWith supply (Session.react supply depth) none c = s.perform supply c

theorem deepEnough (supply : Supply) (s : Session) : DeepEnough supply s :=
  fun c _ hdepth =>
    (performWith_settled (react_agree supply hdepth (Nat.le_refl _)) none c (Nat.le_refl _)).same

end Session

end ChangeGate
