import ChangeGate.Proofs.Session.Replay
/-!
# What is being mutated is spared

While a mutation of a change is running, the change is marked. Whatever callbacks then do, with
whatever sinks and listeners, nothing of it happens to that change: its slot and its logger are as
they were, no mutation of it is let in or ends, none of its events goes out, its listener is not
called again, and every reaction finds it as the mutation has made it (`react_spares`).

So the call of its own listener is in the journal once and first, and the rest of what happens
until that listener has returned spares the change (`told`).
-/

namespace ChangeGate

/-- What may happen without anything happening to a change that is marked. -/
def Happening.Spares (i : Nat) (c : Change) : Happening → Prop
  | .opened j _ => j ≠ i
  | .closed j _ => j ≠ i
  | .notified j _ _ _ => j ≠ i
  | .delivered j _ _ => j ≠ i
  | .written j _ => j ≠ i
  | .refused _ _ => True
  | .reached changes => changes[i]? = some c

/-- **A stretch that spares a change.** -/
structure Spared (i : Nat) (c : Change) (s : Session) (journal : List Happening) (s' : Session) :
    Prop where
  marked : s'.Marked i c
  logger : s'.loggers[i]? = s.loggers[i]?
  journal : ∀ h ∈ journal, h.Spares i c

/-- A stretch that spares the change at a place if it is marked. -/
def SparesMarked (i : Nat) (s : Session) (journal : List Happening) (s' : Session) : Prop :=
  ∀ c, s.Marked i c → Spared i c s journal s'

variable {supply : Supply} {s s' s'' : Session} {journal later : List Happening} {i j : Nat}
  {c : Change}

namespace Spared

theorem trans (hfirst : Spared i c s journal s') (hlater : Spared i c s' later s'') :
    Spared i c s (journal ++ later) s'' where
  marked := hlater.marked
  logger := hlater.logger.trans hfirst.logger
  journal h hmem := by
    rcases List.mem_append.1 hmem with hmem | hmem
    · exact hfirst.journal h hmem
    · exact hlater.journal h hmem

theorem still (hmarked : s.Marked i c) (hslots : s'.slots = s.slots)
    (hlogger : s'.loggers[i]? = s.loggers[i]?) : Spared i c s [] s' :=
  ⟨by rwa [Session.Marked, hslots], hlogger, fun _ hmem => absurd hmem List.not_mem_nil⟩

theorem single {h : Happening} (hmarked : s.Marked i c) (hspares : h.Spares i c)
    (hslots : s'.slots = s.slots) (hlogger : s'.loggers[i]? = s.loggers[i]?) :
    Spared i c s [h] s' :=
  ⟨by rwa [Session.Marked, hslots], hlogger, fun _ hmem => List.mem_singleton.1 hmem ▸ hspares⟩

end Spared

theorem chains_spares (i : Nat) : Chains (SparesMarked i) where
  still _ _ hmarked := .still hmarked rfl rfl
  trans hfirst hlater c hmarked :=
    have h := hfirst c hmarked
    h.trans (hlater c h.marked)

/-- A delivery at another place. -/
theorem delivers_spares (supply : Supply) (hji : j ≠ i) : Delivers supply (SparesMarked i) j where
  toChains := chains_spares i
  written _ logger _ _ _ _ _ _ _ hmarked := by
    cases logger.clock <;> exact .single hmarked hji rfl rfl
  delivered _ logger _ _ _ _ _ _ _ hmarked := by
    cases logger.clock <;> exact .single hmarked hji rfl (List.getElem?_set_ne hji)

namespace Session

/-- **What is called back spares a marked change:** a mutation of it is refused, and a mutation of
another one stays with that one. -/
theorem composes_spares (i : Nat) (supply : Supply) : Composes supply (SparesMarked i) where
  toChains := chains_spares i
  stored _ _ _ _ hmarked := .still hmarked rfl rfl
  reached s c hmarked := by
    refine .single hmarked ?_ rfl rfl
    change (s.slots.map (·.change))[i]? = some c
    rw [List.getElem?_map, show s.slots[i]? = _ from hmarked]
    rfl
  mutate depth j m s hreact := by
    intro c hmarked
    cases hslot : s.slots[j]? with
    | none => rw [mutate_of_none hslot]; exact .still hmarked rfl rfl
    | some slot =>
      obtain ⟨d, _ | _⟩ := slot
      · have hji : j ≠ i := by
          rintro rfl
          rw [show s.slots[j]? = _ from hmarked] at hslot
          cases hslot
        have hopened : Spared i c s [.opened j m] s := .single hmarked hji rfl rfl
        cases happly : d.apply m with
        | error error =>
          rw [mutate_of_error hslot happly]
          exact hopened.trans (.single hmarked hji rfl rfl)
        | ok e =>
          rw [mutate_of_ok hslot happly]
          have hset : (s.setSlot j ⟨e.change, true⟩).Marked i c := by
            rwa [Marked, setSlot, List.getElem?_set_ne hji]
          have htold := (chains_spares i).tell
            (fun _ _ _ _ _ _ hmarked => .single hmarked hji rfl rfl) hreact e.change.listener
            e.notify _ c hset
          change Spared i c _ (s.announce (react supply depth) j e).journal
            (s.announce (react supply depth) j e).session at htold
          generalize s.announce (react supply depth) j e = told at htold
          have hreleased : (told.session.release j).Marked i c := by
            have h := htold.marked
            rw [Marked] at h ⊢
            simp [release, hji, h]
          have hclosed : ∀ outcome, Spared i c told.session [.closed j outcome]
              (told.session.release j) :=
            fun _ => ⟨hreleased, rfl, fun _ hmem => List.mem_singleton.1 hmem ▸ hji⟩
          have hbody : Spared i c s told.journal told.session :=
            ⟨htold.marked, htold.logger, htold.journal⟩
          exact (hopened.trans hbody).trans ((hclosed _).trans
            ((delivers_spares supply hji).deliver hreact e.events _ c hreleased))
      · rw [mutate_of_mutating hslot]
        exact .single hmarked trivial rfl rfl

/-- **Reactions spare what is marked,** however deep they nest. -/
theorem react_spares (i : Nat) (supply : Supply) (depth : Nat) :
    (react supply depth).Within (SparesMarked i) :=
  (composes_spares i supply).react depth

/-! ## The listener's own call -/

/-- **The listener of a marked change was told of a package,** or there was none to tell. -/
structure Told (i : Nat) (c : Change) (s : Session) (listener : Option Nat)
    (package? : Option String) (d : Done Unit) : Prop where
  marked : d.session.Marked i c
  logger : d.session.loggers[i]? = s.loggers[i]?
  journal : d.journal = [] ∧ d.result = .ok () ∧
      (∀ l package, listener = some l → package? = some package → s.listeners[l]? = none) ∨
    ∃ name package reaction later, d.journal = .notified i name package reaction :: later ∧
      package? = some package ∧ (∀ h ∈ later, h.Spares i c) ∧
      ∀ f, d.result = .error f → FailedWith reaction f

theorem told (supply : Supply) (depth : Nat) (hmarked : s.Marked i c) (listener : Option Nat)
    (package? : Option String) :
    Told i c s listener package? (s.tell (react supply depth) i listener package?) := by
  unfold tell
  split
  · rename_i l package
    unfold callListener
    split
    · rename_i hnone
      refine ⟨hmarked, rfl, Or.inl ⟨rfl, rfl, fun k p hk _ => ?_⟩⟩
      rw [← Option.some.inj hk]
      exact hnone
    · rename_i lis hlis
      split
      · exact ⟨hmarked, rfl, Or.inr
          ⟨lis.name, package, none, [], rfl, rfl, fun _ hmem => absurd hmem List.not_mem_nil,
            nofun⟩⟩
      · rename_i reaction later hreactions
        have hspared := react_spares i supply depth (some package) reaction
          { s with listeners := s.listeners.set l { lis with reactions := later } } c hmarked
        have hfault := react_fault supply depth (some package) reaction
          { s with listeners := s.listeners.set l { lis with reactions := later } }
        dsimp only
        refine ⟨hspared.marked, hspared.logger, Or.inr
          ⟨lis.name, package, _, _, rfl, rfl, hspared.journal, fun f hf => ⟨_, rfl, hfault f ?_⟩⟩⟩
        dsimp only at hf
        split at hf
        · cases hf
        · rename_i f' hf'
          cases hf
          exact hf'
  · rename_i hneither
    exact ⟨hmarked, rfl, Or.inl ⟨rfl, rfl, fun l p hl hp => absurd hp (by
      rintro rfl
      exact hneither l p hl rfl)⟩⟩

/-- **A mutation that is let in marks its change** before it tells the listener. -/
theorem announced (supply : Supply) (depth : Nat) {slot : Slot} (hslot : s.slots[i]? = some slot)
    (e : Effect) :
    Told i e.change s e.change.listener e.notify (s.announce (react supply depth) i e) :=
  have hmarked : (s.setSlot i ⟨e.change, true⟩).Marked i e.change := getElem?_put_self hslot _
  have h := told supply depth hmarked e.change.listener e.notify
  ⟨h.marked, h.logger, h.journal⟩

end Session

end ChangeGate
