import ChangeGate.Proofs.Session.Load
import ChangeGate.Proofs.Session.Log
/-!
# Loads of changes that share an id

A load knows the given changes by their ids, so of those with one id it gets to see the last one
only (`load_lastAt`). That one is cleared and has what the snapshots of the id bring; the others
are left as they were, with all overrides that they had (`load_replaces_last`).
-/

namespace ChangeGate

/-- **All overrides of a change come from snapshots of its id** among those of a file. -/
structure Change.DrawnFrom (c : Change) (snapshots : List Snapshot) : Prop where
  raw : ∀ name override, c.maps.raw.get? name = some override → ∃ t ∈ snapshots,
    t.changeId = c.idNumber ∧ ∃ maps, t.fold = .ok maps ∧ maps.raw.get? name = some override
  evaluated : ∀ name enabled, c.maps.evaluated.get? name = some enabled → ∃ t ∈ snapshots,
    t.changeId = c.idNumber ∧ ∃ maps, t.fold = .ok maps ∧ maps.evaluated.get? name = some enabled

/-- **What is merged in comes from one of the snapshots,** or was there before. -/
theorem OverrideMaps.get?_mergeAll {α : Type} (view : OverrideMaps → NameMap α)
    (hview : ∀ m n : OverrideMaps, view (m.merge n) = (view m).merge (view n)) {name : String}
    {value : α} {m merged : OverrideMaps} {snapshots : List Snapshot}
    (h : m.mergeAll snapshots = .ok merged) (hget : (view merged).get? name = some value) :
    (view m).get? name = some value ∨
      ∃ t ∈ snapshots, ∃ maps, t.fold = .ok maps ∧ (view maps).get? name = some value := by
  induction snapshots generalizing m with
  | nil =>
    cases h
    exact Or.inl hget
  | cons s snapshots ih =>
    unfold mergeAll at h
    split at h
    · cases h
    · rename_i maps hfold
      rcases ih h with hmerged | ⟨t, ht, hmaps⟩
      · rw [hview, NameMap.get?_merge, Option.or_eq_some_iff] at hmerged
        rcases hmerged with hbrought | ⟨-, hbefore⟩
        · exact Or.inr ⟨s, List.mem_cons_self, maps, hfold, hbrought⟩
        · exact Or.inl hbefore
      · exact Or.inr ⟨t, List.mem_cons_of_mem _ ht, hmaps⟩

/-- A change that has what the snapshots of its id bring, and nothing else. -/
theorem Change.drawnFrom_of_mergeAll {c : Change} {maps : OverrideMaps}
    {snapshots : List Snapshot}
    (h : OverrideMaps.empty.mergeAll (snapshots.filter fun t => t.changeId = c.idNumber) =
      .ok maps) : DrawnFrom { c with maps } snapshots where
  raw name override hget := by
    rcases OverrideMaps.get?_mergeAll (·.raw) (fun _ _ => rfl) h hget with
      hnone | ⟨t, ht, hmaps⟩
    · cases hnone
    · obtain ⟨hmem, hid⟩ := List.mem_filter.1 ht
      exact ⟨t, hmem, of_decide_eq_true hid, hmaps⟩
  evaluated name enabled hget := by
    rcases OverrideMaps.get?_mergeAll (·.evaluated) (fun _ _ => rfl) h hget with
      hnone | ⟨t, ht, hmaps⟩
    · cases hnone
    · obtain ⟨hmem, hid⟩ := List.mem_filter.1 ht
      exact ⟨t, hmem, of_decide_eq_true hid, hmaps⟩

namespace Session

/-- **The change `c` at place `i` is the last one of its id** among the given ones. -/
def IsLast (s : Session) (places : List Nat) (i : Nat) (c : Change) : Prop :=
  ∃ before after, places = before ++ i :: after ∧
    ∀ j ∈ after, ∀ d, s.change? j = some d → d.profile.id ≠ c.profile.id

/-- **The places that a load gets to see:** those of its targets. -/
def lastAt (s : Session) (places : List Nat) : List Nat :=
  (Store.targets (s.targets places)).map (·.key)

/-- **What a load does to the given change `c` at place `i`.** If it is the last one of its id, it
is cleared and its snapshots are loaded; and if the sinks do not call back, it has nothing but what
these bring, merged in the order of the file. If it is not, it is as it was. -/
structure LoadedInto (s : Session) (places : List Nat) (snapshots : List Snapshot) (i : Nat)
    (c : Change) (d : Done Store.Loaded) : Prop where
  change : d.session.change? i = some (c.run (openedOf i d.journal))
  opened : s.IsLast places i c → (.clearOverrides ::
    (snapshots.filter fun t => t.changeId = c.idNumber).map .loadOverrides).Sublist
      (openedOf i d.journal)
  last : s.Silent places → s.IsLast places i c → ∃ now, d.session.change? i = some now ∧
    OverrideMaps.empty.mergeAll (snapshots.filter fun t => t.changeId = c.idNumber) =
      .ok now.maps ∧ now.DrawnFrom snapshots
  shadowed : s.Silent places → ¬ s.IsLast places i c → d.session.change? i = some c

variable {supply : Supply} {react : Reactor} {s : Session} {places : List Nat}
  {filename : String} {i : Nat} {c : Change}

/-! ## The changes that a load gets to see -/

/-- Targets are looked up at their places. -/
theorem targets_map_key {ts : List (Store.Target Nat)}
    (h : ∀ t ∈ ts, s.change? t.key = some t.change) : s.targets (ts.map (·.key)) = ts := by
  induction ts with
  | nil => rfl
  | cons t ts ih =>
    have hrest := ih fun u hu => h u (List.mem_cons_of_mem _ hu)
    rw [targets] at hrest
    rw [targets, List.map_cons, List.filterMap_cons, h t List.mem_cons_self, hrest]
    rfl

theorem change?_of_mem_targets {t : Store.Target Nat}
    (ht : t ∈ Store.targets (s.targets places)) :
    t.key ∈ places ∧ s.change? t.key = some t.change := by
  obtain ⟨before, after, heq, -⟩ := Store.mem_targets.1 ht
  exact Restart.mem_targets.1 (heq ▸ by simp)

theorem targets_lastAt (s : Session) (places : List Nat) :
    s.targets (s.lastAt places) = Store.targets (s.targets places) :=
  targets_map_key fun _ ht => (change?_of_mem_targets ht).2

theorem mem_places_of_mem_lastAt (hi : i ∈ s.lastAt places) : i ∈ places := by
  obtain ⟨t, ht, rfl⟩ := List.mem_map.1 hi
  exact (change?_of_mem_targets ht).1

/-- No two of them share an id. -/
theorem distinct_lastAt (s : Session) (places : List Nat) : s.Distinct (s.lastAt places) := by
  have hids : ((s.lastAt places).filterMap s.change?).map (·.profile.id) =
      (Store.targets (s.targets places)).map (·.change.profile.id) := by
    rw [← Restart.map_change_targets, List.map_map, targets_lastAt]
    rfl
  rw [Distinct, hids]
  exact Store.nodup_targets _

/-- **A load of some changes is a load of the last ones of their ids.** -/
theorem load_lastAt (supply : Supply) (react : Reactor) (places : List Nat) (filename : String)
    (s : Session) :
    s.load supply react places filename = s.load supply react (s.lastAt places) filename := by
  have htargets : Store.targets (s.targets (s.lastAt places)) =
      Store.targets (s.targets places) := by
    rw [Store.targets_of_nodup (distinct_lastAt s places).nodup_targets, targets_lastAt]
  unfold load
  rw [htargets]

/-- It gets to see exactly the last ones of their ids. -/
theorem mem_lastAt (hc : s.change? i = some c) :
    i ∈ s.lastAt places ↔ s.IsLast places i c := by
  constructor
  · intro hi
    obtain ⟨t, ht, rfl⟩ := List.mem_map.1 hi
    have hchange := (change?_of_mem_targets ht).2
    rw [hc] at hchange
    cases hchange
    obtain ⟨before, after, hsplit, hafter⟩ := Store.mem_targets.1 ht
    obtain ⟨first, rest, rfl, -, hrest⟩ := List.filterMap_eq_append_iff.1 hsplit
    obtain ⟨skipped, j, later, rfl, -, hj, rfl⟩ := List.filterMap_eq_cons_iff.1 hrest
    obtain ⟨_, -, rfl⟩ := Option.map_eq_some_iff.1 hj
    refine ⟨first ++ skipped, later, by rw [List.append_assoc], fun k hk d hd => ?_⟩
    exact hafter ⟨k, d⟩ (Restart.mem_targets.2 ⟨hk, hd⟩)
  · rintro ⟨before, after, rfl, hafter⟩
    have hsplit : s.targets (before ++ i :: after) =
        s.targets before ++ ⟨i, c⟩ :: s.targets after := by
      rw [targets, List.filterMap_append, List.filterMap_cons, hc]
      rfl
    refine List.mem_map.2 ⟨⟨i, c⟩, Store.mem_targets.2 ⟨_, _, hsplit, fun u hu => ?_⟩, rfl⟩
    obtain ⟨hkey, hchange⟩ := Restart.mem_targets.1 hu
    exact hafter u.key hkey u.change hchange

/-! ## Loads -/

/-- **A load that succeeds has made its calls,** in their order; and if the sinks do not call back,
nothing else was let in. -/
structure Made (s : Session) (places : List Nat) (snapshots : List Snapshot)
    (d : Done Store.Loaded) : Prop where
  takes : s.Takes places snapshots
  opened : ∀ i, (callsOf i (s.loadCalls places snapshots)).Sublist (openedOf i d.journal)
  alone : s.Silent places → ∀ i, openedOf i d.journal = callsOf i (s.loadCalls places snapshots)

theorem made_of_load {loaded : Store.Loaded} (supply : Supply) (depth : Nat)
    (hdistinct : s.Distinct places)
    (hok : (s.load supply (Session.react supply depth) places filename).result = .ok loaded) :
    ∃ snapshots, Store.read s.storage filename = .ok snapshots ∧
      Made s places snapshots (s.load supply (Session.react supply depth) places filename) := by
  obtain ⟨snapshots, hread, htakes⟩ := takes_of_load hdistinct hok
  refine ⟨snapshots, hread, ?_⟩
  rw [load_eq_callAll supply _ hdistinct hread htakes] at hok ⊢
  obtain ⟨made, later, hcut⟩ := callAll_cut supply (react_sound supply depth)
    (bulk_of_mem_loadCalls hdistinct htakes)
  obtain ⟨_, hresult, -⟩ := Done.map_eq_ok hok
  have hmade : s.loadCalls places snapshots = made := by
    rw [hcut.split, hcut.completed hresult, List.append_nil]
  exact {
    takes := htakes
    opened := hmade ▸ hcut.opened
    alone := fun hsilent => hmade ▸ (hcut.alone places (react_silent supply depth) hsilent
      (mem_places_of_mem_loadCalls hdistinct)).opened }

/-- No call is made of a change at another place. -/
theorem callsOf_loadCalls_of_not_mem {snapshots : List Snapshot} (hdistinct : s.Distinct places)
    (hi : i ∉ places) : callsOf i (s.loadCalls places snapshots) = [] := by
  refine List.filterMap_eq_nil_iff.2 fun call hcall => if_neg fun heq => hi ?_
  exact heq ▸ mem_places_of_mem_loadCalls hdistinct call hcall

/-- **A load that succeeds replaces the overrides of the last given change of each id,** whatever
ids the changes share. It clears that one whether the file has its id or not, and does nothing to
the others: they keep what they had, even where the file has nothing for their id. -/
theorem load_replaces_last (supply : Supply) (depth : Nat) (places : List Nat) (filename : String)
    (s : Session) {loaded : Store.Loaded}
    (hok : (s.load supply (Session.react supply depth) places filename).result = .ok loaded) :
    ∃ snapshots, Store.read s.storage filename = .ok snapshots ∧
      ∀ i ∈ places, ∀ c, s.change? i = some c → LoadedInto s places snapshots i c
        (s.load supply (Session.react supply depth) places filename) := by
  have hdistinct := distinct_lastAt s places
  have hreplays : Replays s
      (s.load supply (Session.react supply depth) places filename).journal
      (s.load supply (Session.react supply depth) places filename).session :=
    (composes_replays supply).load ((composes_replays supply).react depth) places filename s
  rw [load_lastAt] at hok hreplays ⊢
  obtain ⟨snapshots, hread, hmade⟩ := made_of_load supply depth hdistinct hok
  refine ⟨snapshots, hread, fun i _ c hc => ?_⟩
  have hchange := hreplays.change? i
  rw [hc, Option.map_some] at hchange
  have hquiet : s.Silent places → s.Silent (s.lastAt places) := fun hsilent j hj =>
    hsilent j (mem_places_of_mem_lastAt hj)
  exact {
    change := hchange
    opened := fun hlast => by
      rw [← callsOf_loadCalls hdistinct ((mem_lastAt hc).2 hlast) hc]
      exact hmade.opened i
    last := fun hsilent hlast => by
      have hi := (mem_lastAt hc).2 hlast
      obtain ⟨maps, hmaps, hrun⟩ := run_calls hmade.takes hi hc fun _ ht => ht
      rw [hmade.alone (hquiet hsilent), callsOf_loadCalls hdistinct hi hc, hrun] at hchange
      exact ⟨_, hchange, hmaps, Change.drawnFrom_of_mergeAll hmaps⟩
    shadowed := fun hsilent hnot => by
      have hi : i ∉ s.lastAt places := fun hi => hnot ((mem_lastAt hc).1 hi)
      rw [hmade.alone (hquiet hsilent), callsOf_loadCalls_of_not_mem hdistinct hi] at hchange
      exact hchange }

/-- Two changes of one id, which the file has twice. -/
def twins : Session :=
  crowd { change := aged .one } [] []

theorem isLast_twins : twins.IsLast [0, 1] 1 (aged .one) :=
  ⟨[0], [], rfl, fun _ hmem => absurd hmem List.not_mem_nil⟩

theorem twins_load :
    (twins.load default (Session.react default 0) [0, 1] Store.defaultFilename).result =
      .ok ⟨[.ofSafeInt .one, .ofSafeInt .one], [.ofSafeInt three]⟩ := by
  have hlast : twins.lastAt [0, 1] = [1] := by decide +kernel
  have hdistinct : twins.Distinct [1] := hlast ▸ distinct_lastAt twins [0, 1]
  have htaken : ∀ t ∈ crowded, t.changeId = (aged .one).idNumber →
      ((aged .one).checkSnapshot t).toOption = some () := by
    decide +kernel
  have htakes : twins.Takes [1] crowded := by
    intro t ht i hi c hc hid
    cases List.mem_singleton.1 hi
    cases hc
    exact eq_ok_of_toOption (htaken t ht hid)
  have hread : Store.read twins.storage Store.defaultFilename = .ok crowded := read_crowd _ _
  rw [load_lastAt, hlast, load_eq_callAll default _ hdistinct hread htakes]
  exact eq_ok_of_toOption (by decide +kernel)

theorem twins_replaces_last :
    twins.IsLast [0, 1] 1 (aged .one) ∧
    (twins.load default (Session.react default 0) [0, 1] Store.defaultFilename).result =
      .ok ⟨[.ofSafeInt .one, .ofSafeInt .one], [.ofSafeInt three]⟩ ∧
    ∃ snapshots, Store.read twins.storage Store.defaultFilename = .ok snapshots ∧
      ∀ i ∈ [0, 1], ∀ c, twins.change? i = some c → LoadedInto twins [0, 1] snapshots i c
        (twins.load default (Session.react default 0) [0, 1] Store.defaultFilename) :=
  ⟨isLast_twins, twins_load,
    load_replaces_last default 0 [0, 1] Store.defaultFilename twins twins_load⟩

/-- Two changes of one id, and no file. -/
def orphans : Session where
  slots := [{ change := aged .one }, { change := aged .one }]

/-- **So not every given change is left with nothing but what the file has for it,** not even where
nobody is called back: the first one keeps its override although there is no file. -/
theorem not_drawnFrom :
    ¬ ∀ (supply : Supply) (depth : Nat) (places : List Nat) (filename : String) (s : Session)
        (snapshots : List Snapshot) (loaded : Store.Loaded),
      s.Idle → (∀ c ∈ s.changes, c.Reachable fun _ => True) → s.Silent s.places →
      s.ListenersIdle → Store.read s.storage filename = .ok snapshots →
      (s.load supply (Session.react supply depth) places filename).result = .ok loaded →
      ∀ i ∈ places, ∀ c, s.change? i = some c → ∃ now,
        (s.load supply (Session.react supply depth) places filename).session.change? i =
          some now ∧ now.DrawnFrom snapshots := by
  intro h
  have hidle : orphans.Idle := by
    intro slot hslot
    obtain rfl | rfl := List.mem_pair.1 hslot <;> rfl
  have hreachable : ∀ c ∈ orphans.changes, c.Reachable fun _ => True := by
    intro c hc
    obtain rfl | rfl := List.mem_pair.1 hc <;> exact aged_reachable .one
  have hsilent : orphans.Silent orphans.places := by
    intro i _ logger hlogger
    cases hlogger
  have hloaded : (orphans.load default (Session.react default 0) [0, 1]
      Store.defaultFilename).result = .ok ⟨[], []⟩ :=
    eq_ok_of_toOption (by decide +kernel)
  have hkept : ((orphans.load default (Session.react default 0) [0, 1]
      Store.defaultFilename).session.change? 0).bind (·.maps.raw.get? "old") =
        some (.unconditional true) := by
    decide +kernel
  obtain ⟨now, hnow, hdrawn⟩ := h default 0 [0, 1] Store.defaultFilename orphans [] ⟨[], []⟩ hidle
    hreachable hsilent (fun _ hl => absurd hl List.not_mem_nil) rfl hloaded 0 List.mem_cons_self
    (aged .one) rfl
  rw [hnow] at hkept
  obtain ⟨t, ht, -⟩ := hdrawn.raw "old" (.unconditional true) hkept
  exact absurd ht List.not_mem_nil

end Session

end ChangeGate
