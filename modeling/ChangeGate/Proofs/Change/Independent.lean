import ChangeGate.Proofs.Change.Notice
import ChangeGate.Proofs.Change.Refusal
/-!
# Packages do not interfere

A call about a package reads and writes the entries of that package and no others, and a mutation
that is about none does the same to each package whatever the others have. So to a package two
changes are as good as one if they differ in the entries of other packages only (`AlikeFor`): they
stay alike whatever is done to both, and a call about another package need not be done to both.

From this come the two main statements. Calls about other packages might as well be left out of a
run (`AlikeFor.run`), and calls about two packages may change places (`after_comm`): to any package
at all one of the two does not matter.
-/

namespace ChangeGate

instance (package? : Option String) : DecidablePred (Mutation.About package?)
  | .setRawOverride name _ _ _ => inferInstanceAs (Decidable (package? = some name))
  | .recheck package _ _ => inferInstanceAs (Decidable (package? = package))
  | .removeRawOverride name _ _ => inferInstanceAs (Decidable (package? = some name))
  | .registerListener _ | .clearOverrides | .loadOverrides _ => .isFalse id

namespace Mutation

/-- **A call about another package.** -/
def Foreign (p : String) (m : Mutation) : Prop :=
  ∃ q, m.About (some q) ∧ q ≠ p

instance (p : String) : DecidablePred (Foreign p)
  | .setRawOverride name _ _ _ | .recheck (some name) _ _ | .removeRawOverride name _ _ =>
    decidable_of_iff (name ≠ p) ⟨fun h => ⟨name, rfl, h⟩, fun ⟨_, rfl, h⟩ => h⟩
  | .recheck none _ _ => .isFalse fun ⟨_, h, _⟩ => nomatch h
  | .registerListener _ | .clearOverrides | .loadOverrides _ => .isFalse fun ⟨_, h, _⟩ => h

/-- **A run without the calls about other packages.** What is about no package stays in it. -/
def without (p : String) (ms : List Mutation) : List Mutation :=
  ms.filter fun m => ¬ m.Foreign p

variable {m n : Mutation} {p q : String} {ms : List Mutation}

theorem about_unique (hp : m.About (some p)) (hq : m.About (some q)) : p = q := by
  cases m with
  | setRawOverride | recheck | removeRawOverride => exact Option.some.inj (hp.trans hq.symm)
  | registerListener | clearOverrides | loadOverrides => exact absurd hp id

theorem without_cons_of_foreign (hm : m.Foreign p) : without p (m :: ms) = without p ms := by
  simp [without, hm]

theorem without_cons (hm : ¬ m.Foreign p) : without p (m :: ms) = m :: without p ms := by
  simp [without, hm]

/-- Of two calls about different packages each package misses at most one. -/
theorem without_swap (hm : m.About (some p)) (hn : n.About (some q)) (hpq : p ≠ q) (r : String) :
    without r [m, n] = without r [n, m] := by
  by_cases hr : q = r
  · have hforeign : m.Foreign r := ⟨p, hm, hr ▸ hpq⟩
    by_cases hother : n.Foreign r <;> simp [without, hforeign, hother]
  · have hforeign : n.Foreign r := ⟨q, hn, hr⟩
    by_cases hother : m.Foreign r <;> simp [without, hforeign, hother]

/-- **The calls about a package,** each with what it came to. -/
def callsOn {α : Type} (p : String) (ms : List Mutation) (replies : List α) :
    List (Mutation × α) :=
  (ms.zip replies).filter fun call => call.1.About (some p)

variable {α β : Type} {replies : List α}

theorem callsOn_cons (hm : m.About (some p)) (a : α) :
    callsOn p (m :: ms) (a :: replies) = (m, a) :: callsOn p ms replies := by
  simp [callsOn, hm]

theorem callsOn_cons_of_not (hm : ¬ m.About (some p)) (a : α) :
    callsOn p (m :: ms) (a :: replies) = callsOn p ms replies := by
  simp [callsOn, hm]

theorem callsOn_map (f : α → β) (p : String) (ms : List Mutation) (replies : List α) :
    callsOn p ms (replies.map f) = (callsOn p ms replies).map fun call => (call.1, f call.2) := by
  rw [callsOn, List.zip_map_right, List.filter_map]
  rfl

end Mutation

namespace Change

open Mutation

/-- **Two changes that are alike to a package.** -/
structure AlikeFor (p : String) (c d : Change) : Prop where
  profile : d.profile = c.profile
  listener : d.listener = c.listener
  raw : d.maps.raw.get? p = c.maps.raw.get? p
  evaluated : d.maps.evaluated.get? p = c.maps.evaluated.get? p

variable {c d : Change} {e e' : Effect} {m n : Mutation} {p q : String}

/-- **The answer of reconciling** is whether there was a decision. -/
theorem reconcile_answer {verdict : Verdict} {version : Option Number}
    (h : c.reconcile (some p) verdict version = .ok e) :
    e.answer = some (decide (p ≠ "") && (c.decision? p verdict version).isSome) := by
  rcases reconcile_cases h with
    ⟨hempty, rfl⟩ | ⟨name, hname, hne, -, rfl⟩ | ⟨name, enabled, hname, hne, -, hsome, rfl⟩
  · simp [hempty p rfl]
  · cases hname
    simp [hne]
  · cases hname
    obtain ⟨decision, hdecision, -⟩ := Option.bind_eq_some_iff.1 hsome
    simp [hne, hdecision]

namespace AlikeFor

theorem refl (p : String) (c : Change) : AlikeFor p c c :=
  ⟨rfl, rfl, rfl, rfl⟩

theorem symm (h : AlikeFor p c d) : AlikeFor p d c :=
  ⟨h.profile.symm, h.listener.symm, h.raw.symm, h.evaluated.symm⟩

theorem trans {f : Change} (h : AlikeFor p c d) (h' : AlikeFor p d f) : AlikeFor p c f :=
  ⟨h'.profile.trans h.profile, h'.listener.trans h.listener, h'.raw.trans h.raw,
    h'.evaluated.trans h.evaluated⟩

/-- **Changes that are alike to every package are one.** -/
theorem eq (h : ∀ p, AlikeFor p c d) : d = c := by
  have hraw := NameMap.ext_get? fun name => (h name).raw
  have hevaluated := NameMap.ext_get? fun name => (h name).evaluated
  obtain ⟨hprofile, hlistener, -, -⟩ := h ""
  obtain ⟨profile, ⟨raw, evaluated⟩, listener⟩ := d
  cases hprofile
  cases hlistener
  cases hraw
  cases hevaluated
  rfl

/-! ## Calls about other packages -/

/-- Reconciling another package is nothing to this one. -/
theorem of_reconcile {package? : Option String} {verdict : Verdict} {version : Option Number}
    (hne : package? ≠ some p) (h : c.reconcile package? verdict version = .ok e) :
    AlikeFor p c e.change where
  profile := reconcile_profile h
  listener := by
    rw [reconcile_change h]
    rfl
  raw := by rw [reconcile_raw h]
  evaluated := by rw [reconcile_get? h, if_neg fun hand => hne hand.1]

theorem withRaw {raw : NameMap PackageOverride} (h : raw.get? p = c.maps.raw.get? p) :
    AlikeFor p c (c.withRaw raw) :=
  ⟨rfl, rfl, h, rfl⟩

theorem of_foreign (hm : m.Foreign p) (h : c.apply m = .ok e) : AlikeFor p c e.change := by
  obtain ⟨q, hq, hne⟩ := hm
  have hother : some q ≠ some p := fun heq => hne (Option.some.inj heq)
  cases m with
  | setRawOverride name override verdict version =>
    cases hq
    obtain ⟨-, inner, hinner, rfl⟩ := setRawOverride_ok h
    have hreconciled : AlikeFor p _ inner.change := of_reconcile hother hinner
    exact (withRaw (NameMap.get?_insert_of_ne _ override hne)).trans hreconciled
  | recheck package verdict version =>
    cases hq
    exact of_reconcile hother h
  | removeRawOverride name verdict version =>
    cases hq
    rcases removeRawOverride_ok h with ⟨-, rfl⟩ | ⟨-, -, inner, hinner, rfl⟩
    · exact refl p c
    · have hreconciled : AlikeFor p _ inner.change := of_reconcile hother hinner
      exact (withRaw (NameMap.get?_erase_of_ne _ hne)).trans hreconciled
  | registerListener | clearOverrides | loadOverrides => exact absurd hq id

/-- **A call about another package** is nothing to this one, be it refused or not. -/
theorem after_foreign (hm : m.Foreign p) (c : Change) : AlikeFor p c (c.after m) :=
  after_induction (P := AlikeFor p c) (refl p c) fun _ h => of_foreign hm h

/-! ## Calls about the package -/

/-- Calls that are let in, answered alike and with like effects. -/
theorem of_ok (hc : c.apply m = .ok e) (hd : d.apply m = .ok e')
    (h : AlikeFor p e.change e'.change ∧ e'.answer = e.answer) :
    d.reply m = c.reply m ∧ AlikeFor p (c.after m) (d.after m) := by
  rw [reply_of_ok hd, reply_of_ok hc, after_of_ok hd, after_of_ok hc, h.2]
  exact ⟨rfl, h.1⟩

section Own

variable (h : AlikeFor p c d)

include h

theorem contains_raw : d.maps.raw.contains p = c.maps.raw.contains p := by
  rw [NameMap.contains, h.raw, NameMap.contains]

theorem idNumber : d.idNumber = c.idNumber := by
  rw [Change.idNumber, h.profile, Change.idNumber]

/-- Calls that are refused for the same reason. -/
theorem of_error {error : ChangeError} (hc : c.apply m = .error error)
    (hd : d.apply m = .error error) :
    d.reply m = c.reply m ∧ AlikeFor p (c.after m) (d.after m) := by
  rw [reply_of_error hd, reply_of_error hc, after_of_error hd, after_of_error hc]
  exact ⟨rfl, h⟩

theorem reconcile {verdict : Verdict} {version : Option Number}
    (hc : c.reconcile (some p) verdict version = .ok e)
    (hd : d.reconcile (some p) verdict version = .ok e') :
    AlikeFor p e.change e'.change ∧ e'.answer = e.answer := by
  have hdecision : d.decision? p verdict version = c.decision? p verdict version := by
    unfold decision?
    rw [h.raw]
  refine ⟨{
    profile := by rw [reconcile_profile hd, reconcile_profile hc, h.profile]
    listener := by
      rw [reconcile_change hd, reconcile_change hc]
      exact h.listener
    raw := by rw [reconcile_raw hd, reconcile_raw hc, h.raw]
    evaluated := by
      rw [reconcile_get? hd, reconcile_get? hc, reconciled?_congr h.raw, h.evaluated] }, ?_⟩
  rw [reconcile_answer hd, reconcile_answer hc, hdecision]

/-- What is put in the place of the raw overrides may be alike to the package as well. -/
theorem withRaw_withRaw {raw raw' : NameMap PackageOverride} (hraw : raw'.get? p = raw.get? p) :
    AlikeFor p (c.withRaw raw) (d.withRaw raw') :=
  ⟨h.profile, h.listener, hraw, h.evaluated⟩

theorem setRawOverride (hlogging : c.profile.loggingOnly = false) (override : PackageOverride)
    (verdict : Verdict) (version : Option Number) :
    ∃ e e', c.setRawOverride p override verdict version = .ok e ∧
      d.setRawOverride p override verdict version = .ok e' ∧
      AlikeFor p e.change e'.change ∧ e'.answer = e.answer := by
  obtain ⟨e, he⟩ := exists_setRawOverride hlogging p override verdict version
  obtain ⟨e', he'⟩ := exists_setRawOverride (h.profile ▸ hlogging) p override verdict version
  refine ⟨e, e', he, he', ?_⟩
  obtain ⟨-, inner, hinner, rfl⟩ := setRawOverride_ok he
  obtain ⟨-, inner', hinner', rfl⟩ := setRawOverride_ok he'
  have hrecorded : AlikeFor p (c.withRaw (c.maps.raw.insert p override))
      (d.withRaw (d.maps.raw.insert p override)) :=
    h.withRaw_withRaw (by rw [NameMap.get?_insert_self, NameMap.get?_insert_self])
  exact ⟨(hrecorded.reconcile hinner hinner').1, rfl⟩

/-- A raw override that there is goes from both, if the verdict lets it. -/
theorem removeRawOverride (hc : c.profile.loggingOnly = true → c.maps.raw = .empty)
    (hd : d.profile.loggingOnly = true → d.maps.raw = .empty) {verdict : Verdict}
    (hcontains : c.maps.raw.contains p = true) (henforce : verdict.enforce c.idNumber p = .ok ())
    (version : Option Number) :
    ∃ e e', c.removeRawOverride p verdict version = .ok e ∧
      d.removeRawOverride p verdict version = .ok e' ∧
      AlikeFor p e.change e'.change ∧ e'.answer = e.answer := by
  have hcontains' := h.contains_raw.trans hcontains
  obtain ⟨e, he⟩ := exists_removeRawOverride hc hcontains henforce version
  obtain ⟨e', he'⟩ := exists_removeRawOverride hd hcontains' (h.idNumber ▸ henforce) version
  refine ⟨e, e', he, he', ?_⟩
  rcases removeRawOverride_ok he with ⟨hnot, -⟩ | ⟨-, -, inner, hinner, rfl⟩
  · rw [hcontains] at hnot
    cases hnot
  rcases removeRawOverride_ok he' with ⟨hnot, -⟩ | ⟨-, -, inner', hinner', rfl⟩
  · rw [hcontains'] at hnot
    cases hnot
  have hremoved : AlikeFor p (c.withRaw (c.maps.raw.erase p)) (d.withRaw (d.maps.raw.erase p)) :=
    h.withRaw_withRaw (by rw [NameMap.get?_erase_self, NameMap.get?_erase_self])
  exact ⟨(hremoved.reconcile hinner hinner').1, rfl⟩

/-- Two logging-only changes have no entries to differ in. -/
theorem eq_of_loggingOnly (hc : c.Consistent) (hd : d.Consistent)
    (hlogging : c.profile.loggingOnly = true) : d = c := by
  have hmaps : d.maps = c.maps := by
    rw [hd.silent (h.profile ▸ hlogging), hc.silent hlogging]
  exact AlikeFor.eq fun name => ⟨h.profile, h.listener, by rw [hmaps], by rw [hmaps]⟩

/-- **A call about the package** is answered alike, and leaves the changes alike. -/
theorem own (hc : c.Consistent) (hd : d.Consistent) (hm : m.About (some p)) :
    d.reply m = c.reply m ∧ AlikeFor p (c.after m) (d.after m) := by
  cases hlogging : c.profile.loggingOnly with
  | true =>
    -- a failure tells of the whole change, but here there is only one
    rw [h.eq_of_loggingOnly hc hd hlogging]
    exact ⟨rfl, refl p _⟩
  | false =>
    have hraw : c.profile.loggingOnly = true → c.maps.raw = .empty := fun htrue => by
      rw [hlogging] at htrue
      cases htrue
    have hraw' : d.profile.loggingOnly = true → d.maps.raw = .empty := fun htrue => by
      rw [h.profile, hlogging] at htrue
      cases htrue
    cases m with
    | setRawOverride name override verdict version =>
      cases hm
      obtain ⟨e, e', he, he', halike⟩ := h.setRawOverride hlogging override verdict version
      exact of_ok he he' halike
    | recheck package verdict version =>
      cases hm
      obtain ⟨e, he⟩ := exists_reconcile (some p) verdict version hraw
      obtain ⟨e', he'⟩ := exists_reconcile (some p) verdict version hraw'
      exact of_ok he he' (h.reconcile he he')
    | removeRawOverride name verdict version =>
      cases hm
      cases hcontains : c.maps.raw.contains p with
      | false =>
        have hcontains' := h.contains_raw.trans hcontains
        have hnothing : ∀ {f : Change}, f.maps.raw.contains p = false →
            f.apply (.removeRawOverride p verdict version) =
              .ok { change := f, answer := some false } := fun hf => by
          rw [Change.apply, Change.removeRawOverride, if_neg (by simp [hf])]
        exact of_ok (hnothing hcontains) (hnothing hcontains') ⟨h, rfl⟩
      | true =>
        cases henforce : verdict.enforce c.idNumber p with
        | error denial =>
          have hcontains' := h.contains_raw.trans hcontains
          exact h.of_error (Refuses.denied hcontains henforce).apply_eq
            (Refuses.denied hcontains' (h.idNumber ▸ henforce)).apply_eq
        | ok _ =>
          obtain ⟨e, e', he, he', halike⟩ :=
            h.removeRawOverride hraw hraw' hcontains henforce version
          exact of_ok he he' halike
    | registerListener | clearOverrides | loadOverrides => exact absurd hm id

end Own

/-! ## Mutations of the whole change -/

/-- **A mutation that is about no package** leaves the changes alike to each. -/
theorem whole (h : AlikeFor p c d) (hm : ∀ q, ¬ m.About (some q)) :
    AlikeFor p (c.after m) (d.after m) := by
  cases m with
  | registerListener listener =>
    have hsame : d.listener.isSome = c.listener.isSome := by rw [h.listener]
    cases hlistener : c.listener.isSome with
    | true =>
      rw [after_of_error (Refuses.registered hlistener).apply_eq,
        after_of_error (Refuses.registered (hsame.trans hlistener)).apply_eq]
      exact h
    | false =>
      have hregistered : ∀ {f : Change}, f.listener.isSome = false →
          f.after (.registerListener listener) = { f with listener := some listener } :=
        fun hf => by rw [after, Change.apply, Change.registerListener, if_neg (by simp [hf])]
      rw [hregistered hlistener, hregistered (hsame.trans hlistener)]
      exact ⟨h.profile, rfl, h.raw, h.evaluated⟩
  | recheck package verdict version =>
    cases package with
    | none => exact h
    | some q => exact absurd rfl (hm q)
  | clearOverrides => exact ⟨h.profile, h.listener, rfl, rfl⟩
  | loadOverrides s =>
    cases hfold : c.foldSnapshot s with
    | error error =>
      have hfold' : ∃ error', d.foldSnapshot s = .error error' := by
        cases hother : d.foldSnapshot s with
        | error error' => exact ⟨error', rfl⟩
        | ok maps =>
          rw [foldSnapshot_of_profile h.profile.symm hother] at hfold
          cases hfold
      obtain ⟨error', hfold'⟩ := hfold'
      rw [after_of_error (Refuses.snapshot (foldSnapshot_eq_error_iff.1 hfold)).apply_eq,
        after_of_error (Refuses.snapshot (foldSnapshot_eq_error_iff.1 hfold')).apply_eq]
      exact h
    | ok maps =>
      have hfold' := foldSnapshot_of_profile h.profile hfold
      rw [after_of_ok (apply_loadOverrides hfold), after_of_ok (apply_loadOverrides hfold')]
      -- a merge looks at one name at a time
      exact ⟨h.profile, h.listener,
        by simp only [OverrideMaps.merge, NameMap.get?_merge, h.raw],
        by simp only [OverrideMaps.merge, NameMap.get?_merge, h.evaluated]⟩
  | setRawOverride | removeRawOverride => exact absurd rfl (hm _)

/-! ## Runs -/

/-- **Calls about other packages might as well be left out:** the changes stay alike, and each call
about the package is answered as it is without them. -/
theorem run (h : AlikeFor p c d) (hc : c.Consistent) (hd : d.Consistent) (ms : List Mutation) :
    AlikeFor p (c.run ms) (d.run (without p ms)) ∧
      callsOn p (without p ms) (d.replies (without p ms)) = callsOn p ms (c.replies ms) := by
  induction ms generalizing c d with
  | nil => exact ⟨h, rfl⟩
  | cons m ms ih =>
    by_cases hforeign : m.Foreign p
    · have hmissed := (after_foreign hforeign c).symm.trans h
      have hnot : ¬ m.About (some p) := fun hown =>
        have ⟨_, hq, hne⟩ := hforeign
        hne (about_unique hq hown)
      rw [without_cons_of_foreign hforeign, run_cons, replies, callsOn_cons_of_not hnot]
      exact ih hmissed (hc.after m) hd
    · rw [without_cons hforeign, run_cons, run_cons, replies, replies]
      by_cases hown : m.About (some p)
      · obtain ⟨hreply, hafter⟩ := h.own hc hd hown
        obtain ⟨hrun, hcalls⟩ := ih hafter (hc.after m) (hd.after m)
        rw [callsOn_cons hown, callsOn_cons hown, hreply, hcalls]
        exact ⟨hrun, rfl⟩
      · have hwhole : ∀ q, ¬ m.About (some q) := by
          intro q hq
          by_cases hqp : q = p
          · exact hown (hqp ▸ hq)
          · exact hforeign ⟨q, hq, hqp⟩
        rw [callsOn_cons_of_not hown, callsOn_cons_of_not hown]
        exact ih (h.whole hwhole) (hc.after m) (hd.after m)

end AlikeFor

/-! ## Calls that change places -/

/-- **Calls about different packages commute.** There is no package to which both of them
matter. -/
theorem after_comm (hc : c.Consistent) (hm : m.About (some p)) (hn : n.About (some q))
    (hpq : p ≠ q) : (c.after n).after m = (c.after m).after n := by
  refine AlikeFor.eq fun r => ?_
  have hfirst := ((AlikeFor.refl r c).run hc hc [m, n]).1
  have hsecond := ((AlikeFor.refl r c).run hc hc [n, m]).1
  rw [← without_swap hm hn hpq r] at hsecond
  exact hfirst.trans hsecond.symm

/-- And neither of them is answered otherwise. -/
theorem reply_after (hc : c.Consistent) (hm : m.About (some p)) (hn : n.About (some q))
    (hpq : p ≠ q) : (c.after n).reply m = c.reply m :=
  ((AlikeFor.after_foreign ⟨q, hn, hpq.symm⟩ c).own hc (hc.after n) hm).1

end Change

end ChangeGate
