import ChangeGate.Proofs.Json.Value
import ChangeGate.Proofs.Number.Integers
import ChangeGate.Proofs.Snapshot.Fold
import ChangeGate.Snapshot.Schema
/-!
# Snapshots as JSON and back

What is written of the overrides of changes is read back by the check of the state file. There is
one thing that the check finds wrong with it: an override for the empty name. So `Reads` says of a
check what it reads, and under which condition it has nothing to object; the conditions of the
parts come together as the parts do.
-/

namespace ChangeGate

variable {α β : Type}

/-! ## Checks -/

/-- **What a check reads,** and the condition under which it accepts it. -/
structure Checked.Reads (c : Checked α) (a : α) (good : Prop) : Prop where
  read : c.read = some a
  issues : c.issues = [] ↔ good

/-- A check that reads this from a value, at whatever path. -/
def Check.Reads (c : Check α) (v : Option Json) (a : α) (good : Prop) : Prop :=
  ∀ path, (c path v).Reads a good

namespace Checked.Reads

variable {good good' : Prop}

theorem map {c : Checked α} {a : α} (h : c.Reads a good) (f : α → β) :
    (c.map f).Reads (f a) good where
  read := by rw [Checked.map, h.read]; rfl
  issues := h.issues

theorem apply {c : Checked (α → β)} {f : α → β} {d : Checked α} {a : α} (hc : c.Reads f good)
    (hd : d.Reads a good') : (c.apply d).Reads (f a) (good ∧ good') where
  read := by simp only [Checked.apply, hc.read, hd.read]
  issues := by rw [Checked.apply, List.append_eq_nil_iff, hc.issues, hd.issues]

theorem congr {c : Checked α} {a : α} (h : c.Reads a good) (hgood : good ↔ good') :
    c.Reads a good' :=
  ⟨h.read, h.issues.trans hgood⟩

theorem result_ok {c : Checked α} {a : α} (h : c.Reads a good) (hgood : good) :
    c.result = .ok a := by
  rw [Checked.result, h.issues.2 hgood, h.read]

theorem result_error {c : Checked α} {a : α} (h : c.Reads a good) (hbad : ¬ good) :
    ∃ issues, c.result = .error issues := by
  unfold Checked.result
  split
  · rename_i hissues _
    exact absurd (h.issues.1 hissues) hbad
  · exact ⟨_, rfl⟩

end Checked.Reads

namespace Check

theorem reads_boolean (b : Bool) : boolean.Reads (some (.bool b)) b True :=
  fun _ => ⟨rfl, by simp [boolean, Checked.ok]⟩

/-- **A name is read whatever it is, and accepted unless it is empty.** -/
theorem reads_name (s : String) : name.Reads (some (.str s)) s (s ≠ "") := by
  refine fun path => ⟨rfl, ?_⟩
  simp [name]

theorem reads_integer (n : SafeInt) :
    integer.Reads (some (.num (.ofSafeInt n))) (.ofSafeInt n) True :=
  fun path => ⟨rfl, by simp [integer, integerIssues]⟩

theorem Reads.list {c : Check α} {toJson : α → Json} {good : α → Prop} {items : List α}
    (h : ∀ a ∈ items, c.Reads (some (toJson a)) a (good a)) :
    (Check.list c).Reads (some (.arr (items.map toJson))) items (∀ a ∈ items, good a) := by
  intro path
  change (itemsFrom c path 0 (items.map toJson)).Reads items _
  generalize 0 = i
  induction items generalizing i with
  | nil => exact ⟨rfl, by simp [itemsFrom, Checked.ok]⟩
  | cons a items ih =>
    have ha := (h a List.mem_cons_self (path ++ [.index i])).map List.cons
    have hitems := ih (fun b hb => h b (List.mem_cons_of_mem _ hb)) (i + 1)
    exact (ha.apply hitems).congr (by simp)

theorem Reads.optional {c : Check α} {toJson : α → Json} {good : α → Prop} {a? : Option α}
    (h : ∀ a ∈ a?, c.Reads (some (toJson a)) a (good a)) :
    (Check.optional c).Reads (a?.map toJson) a? (∀ a ∈ a?, good a) := by
  intro path
  cases a? with
  | none => exact ⟨rfl, by simp [Check.optional, Checked.ok]⟩
  | some a => exact ((h a rfl path).map some).congr (by simp)

theorem Reads.member {c : Check α} {v : Option Json} {a : α} {good : Prop} (h : c.Reads v a good)
    {name : String} {members : List (String × Json)} (hlookup : Json.lookup? name members = v)
    (path : List PathStep) : (Check.member name c path members).Reads a good := by
  rw [Check.member, hlookup]
  exact h _

end Check

/-- A member that may be absent is looked up where it would stand. -/
theorem Json.lookup?_present (name : String) (members : List (String × Option Json)) :
    lookup? name (present members) =
      members.findSome? fun m => if m.1 = name then m.2 else none := by
  induction members with
  | nil => rfl
  | cons m members ih =>
    obtain ⟨k, v⟩ := m
    cases v with
    | none => simpa [present, lookup?] using ih
    | some v =>
      by_cases hk : k = name
      · simp [present, lookup?, hk]
      · simpa [present, lookup?, hk] using ih

/-! ## Bounds -/

theorem Check.reads_versionCode (n : SafeInt) :
    versionCode.Reads (some (.num (.ofSafeInt n))) (.ofSafeInt n) True := by
  refine fun path => ⟨rfl, ?_⟩
  have hleast : ¬ n < SafeInt.least := Int.not_lt.2 n.lower
  have hgreatest : ¬ SafeInt.greatest < n := Int.not_lt.2 n.upper
  simp [versionCode, integerIssues, rangeIssues, Number.lt_ofSafeInt, hleast, hgreatest]

/-! ## Entries -/

theorem Check.reads_bound (bound : Option SafeInt) :
    (Check.optional Check.versionCode).Reads ((bound.map Number.ofSafeInt).map Json.num)
      (bound.map .ofSafeInt) True := by
  have hreads : ∀ x ∈ bound.map Number.ofSafeInt,
      Check.versionCode.Reads (some (.num x)) x True := by
    intro x hx
    obtain ⟨n, -, rfl⟩ := Option.map_eq_some_iff.1 hx
    exact Check.reads_versionCode n
  exact fun path => (Check.Reads.optional hreads path).congr (by simp)

namespace RawEntry

variable {name : String} {p : PackageOverride} {members : List (String × Json)}

theorem checkMembers_reads (hname : Json.lookup? "packageName" members = some (.str name))
    (hmin : Json.lookup? "minVersionCode" members = (p.min.map Number.ofSafeInt).map .num)
    (hmax : Json.lookup? "maxVersionCode" members = (p.max.map Number.ofSafeInt).map .num)
    (henabled : Json.lookup? "enabled" members = some (.bool p.enabled)) (path : List PathStep) :
    (checkMembers path members).Reads (ofOverride name p) (name ≠ "") :=
  have h₁ := ((Check.reads_name name).member hname path).map RawEntry.mk
  have h₂ := h₁.apply ((Check.reads_bound p.min).member hmin path)
  have h₃ := h₂.apply ((Check.reads_bound p.max).member hmax path)
  have h₄ := h₃.apply ((Check.reads_boolean p.enabled).member henabled path)
  h₄.congr (by simp)

theorem boundsInOrder_ofOverride (name : String) (p : PackageOverride) :
    (ofOverride name p).boundsInOrder = true := by
  obtain ⟨min, max, enabled, ordered⟩ := p
  cases min with
  | none => rfl
  | some a =>
    cases max with
    | none => rfl
    | some b =>
      have hle : a ≤ b := ordered a rfl b rfl
      simp [boundsInOrder, ofOverride, Number.le_ofSafeInt, hle]

/-- **An override is read from its entry,** and accepted unless the name is empty. -/
theorem reads_ofOverride (name : String) (p : PackageOverride) :
    RawEntry.check.Reads (some (ofOverride name p).toJson) (ofOverride name p) (name ≠ "") := by
  intro path
  have hmembers : (Check.object checkMembers path (some (ofOverride name p).toJson)).Reads
      (ofOverride name p) (name ≠ "") := by
    -- a bound that is absent leaves no member to be looked at
    refine checkMembers_reads ?_ ?_ ?_ ?_ path <;> rw [Json.lookup?_present] <;>
      cases hmin : p.min <;> cases hmax : p.max <;> simp [ofOverride, hmin, hmax]
  refine ⟨hmembers.read, ?_⟩
  rw [check, hmembers.read, orderIssues, boundsInOrder_ofOverride, if_pos rfl, List.append_nil]
  exact hmembers.issues

end RawEntry

/-- A value is read from its entry, and accepted unless the name is empty. -/
theorem ValueEntry.reads (e : ValueEntry) :
    ValueEntry.check.Reads (some e.toJson) e (e.packageName ≠ "") := by
  intro path
  have hname : Json.lookup? "packageName"
      [("packageName", .str e.packageName), ("enabled", .bool e.enabled)] =
      some (.str e.packageName) := by simp [Json.lookup?]
  have henabled : Json.lookup? "enabled"
      [("packageName", .str e.packageName), ("enabled", .bool e.enabled)] =
      some (.bool e.enabled) := by simp [Json.lookup?]
  have h₁ := ((Check.reads_name e.packageName).member hname path).map ValueEntry.mk
  have h₂ := h₁.apply ((Check.reads_boolean e.enabled).member henabled path)
  exact h₂.congr (by simp)

/-! ## Snapshots -/

/-- **A snapshot as a change writes it:** an id that is a safe integer, and entries of overrides. -/
structure Snapshot.Written (s : Snapshot) : Prop where
  changeId : ∃ id, s.changeId = .ofSafeInt id
  raw : ∀ e ∈ s.rawEntries, ∃ name p, e = .ofOverride name p

theorem OverrideMaps.written_of_snapshot? {m : OverrideMaps} {id : SafeInt} {s : Snapshot}
    (h : m.snapshot? (.ofSafeInt id) = some s) : s.Written := by
  obtain ⟨-, hid, hraw, -, -⟩ := snapshot?_some h
  refine ⟨⟨id, hid⟩, fun e he => ?_⟩
  rw [hraw] at he
  obtain ⟨entry, -, rfl⟩ := List.mem_map.1 he
  exact ⟨_, _, rfl⟩

/-- The maps keep nothing for the empty name if and only if their snapshot does not. -/
theorem OverrideMaps.named_iff_of_snapshot? {m : OverrideMaps} {id : Number} {s : Snapshot}
    (h : m.snapshot? id = some s) : s.Named ↔ m.Named := by
  obtain ⟨-, -, hraw, hvalidated, hdeferred⟩ := snapshot?_some h
  have hcontains : ∀ {α : Type} (map : NameMap α),
      (∀ e ∈ map.entries, e.1 ≠ "") ↔ map.contains "" = false := by
    intro α map
    rw [Bool.eq_false_iff, Ne, NameMap.contains_iff]
    refine ⟨?_, ?_⟩
    · rintro hentries ⟨value, hvalue⟩
      exact hentries _ (NameMap.get?_eq_some_iff.1 hvalue) rfl
    · rintro hnone ⟨name, value⟩ hmem rfl
      exact hnone ⟨value, NameMap.get?_eq_some_iff.2 hmem⟩
  rw [Named, ← hcontains, ← hcontains]
  refine ⟨fun hs => ⟨fun e he => ?_, fun e he => ?_⟩, fun hm => ⟨?_, ?_, ?_⟩⟩
  · exact hs.raw _ (hraw ▸ List.mem_map_of_mem he)
  · exact hs.validated _ (hvalidated ▸ List.mem_map_of_mem he)
  · intro e he
    rw [hraw] at he
    obtain ⟨entry, hentry, rfl⟩ := List.mem_map.1 he
    exact hm.1 entry hentry
  · intro e he
    rw [hvalidated] at he
    obtain ⟨entry, hentry, rfl⟩ := List.mem_map.1 he
    exact hm.2 entry hentry
  · intro e he
    rw [hdeferred] at he
    exact absurd he List.not_mem_nil

namespace Snapshot

variable {s : Snapshot}

/-- The entries of a category. -/
theorem reads_category {α : Type} {c : Check α} {toJson : α → Json} {name : α → String}
    {entries : Option (List α)}
    (h : ∀ e ∈ entries.getD [], c.Reads (some (toJson e)) e (name e ≠ "")) :
    (Check.optional (Check.list c)).Reads (entries.map fun es => .arr (es.map toJson)) entries
      (∀ e ∈ entries.getD [], name e ≠ "") := by
  intro path
  have hreads : ∀ es ∈ entries, (Check.list c).Reads (some (.arr (es.map toJson))) es
      (∀ e ∈ es, name e ≠ "") := by
    rintro es rfl
    exact Check.Reads.list h
  refine (Check.Reads.optional hreads path).congr ?_
  cases entries <;> simp

/-- The values of a category, be they evaluated or deferred. -/
theorem reads_values (entries : Option (List ValueEntry)) :
    (Check.optional (Check.list ValueEntry.check)).Reads
      (entries.map fun es => .arr (es.map ValueEntry.toJson)) entries
      (∀ e ∈ entries.getD [], e.packageName ≠ "") :=
  reads_category fun e _ => ValueEntry.reads e

/-- **A snapshot is read from its JSON form,** and accepted unless an entry has the empty name. -/
theorem reads (hwritten : s.Written) : Snapshot.check.Reads (some s.toJson) s s.Named := by
  intro path
  obtain ⟨id, hid⟩ := hwritten.changeId
  have hraw : ∀ e ∈ s.raw.getD [], RawEntry.check.Reads (some e.toJson) e (e.packageName ≠ "") := by
    intro e he
    obtain ⟨name, p, rfl⟩ := hwritten.raw e he
    exact RawEntry.reads_ofOverride name p
  obtain ⟨changeId, raw, validated, deferred⟩ := s
  change changeId = _ at hid
  subst hid
  generalize hmembers : Json.present [("changeId", some (.num (.ofSafeInt id))),
    ("raw", raw.map fun es => .arr (es.map RawEntry.toJson)),
    ("validated", validated.map fun es => .arr (es.map ValueEntry.toJson)),
    ("deferred", deferred.map fun es => .arr (es.map ValueEntry.toJson))] = members
  have hlookups : Json.lookup? "changeId" members = some (.num (.ofSafeInt id)) ∧
      Json.lookup? "raw" members = raw.map (fun es => .arr (es.map RawEntry.toJson)) ∧
      Json.lookup? "validated" members =
        validated.map (fun es => .arr (es.map ValueEntry.toJson)) ∧
      Json.lookup? "deferred" members =
        deferred.map (fun es => .arr (es.map ValueEntry.toJson)) := by
    simp only [← hmembers, Json.lookup?_present]
    cases raw <;> cases validated <;> cases deferred <;> simp
  obtain ⟨hchangeId, hrawMember, hvalidated, hdeferred⟩ := hlookups
  have h₁ := ((Check.reads_integer id).member hchangeId path).map Snapshot.mk
  have h₂ := h₁.apply ((reads_category hraw).member hrawMember path)
  have h₃ := h₂.apply ((reads_values validated).member hvalidated path)
  have h₄ := h₃.apply ((reads_values deferred).member hdeferred path)
  rw [Snapshot.toJson, hmembers]
  refine h₄.congr ⟨fun h => ?_, fun h => ?_⟩
  · exact ⟨h.1.1.2, h.1.2, h.2⟩
  · exact ⟨⟨⟨trivial, h.raw⟩, h.validated⟩, h.deferred⟩

end Snapshot

theorem Json.ofNat_one : Json.ofNat 1 = .num (.ofSafeInt .one) :=
  congrArg Json.num (Number.ofQuotient_safeInt .one)

/-- **A state file is read from its JSON form,** and accepted unless some snapshot has an entry of
the empty name. -/
theorem StateFile.reads {f : StateFile} (hwritten : ∀ s ∈ f.changes, s.Written) :
    StateFile.check.Reads (some f.toJson) f (∀ s ∈ f.changes, s.Named) := by
  intro path
  have hversion : StateFile.checkVersion.Reads (some (.ofNat 1)) () True := by
    intro path
    rw [Json.ofNat_one, checkVersion, if_pos rfl]
    exact ⟨rfl, by simp [Checked.ok]⟩
  have hchanges := Check.Reads.list fun s hs => Snapshot.reads (hwritten s hs)
  have hfirst : Json.lookup? "version"
      [("version", .ofNat 1), ("changes", .arr (f.changes.map Snapshot.toJson))] =
      some (.ofNat 1) := by simp [Json.lookup?]
  have hsecond : Json.lookup? "changes"
      [("version", .ofNat 1), ("changes", .arr (f.changes.map Snapshot.toJson))] =
      some (.arr (f.changes.map Snapshot.toJson)) := by simp [Json.lookup?]
  have h₁ := (hversion.member hfirst path).map fun _ => StateFile.mk
  have h₂ := h₁.apply (hchanges.member hsecond path)
  exact h₂.congr (by simp)

/-! ## As text -/

namespace Json

instance (names : List String) : Decidable (Canonical names) :=
  inferInstanceAs (Decidable (List.Pairwise _ _))

theorem present_names_sublist (members : List (String × Option Json)) :
    ((present members).map Prod.fst).Sublist (members.map Prod.fst) := by
  induction members with
  | nil => exact .slnil
  | cons m members ih =>
    obtain ⟨name, v⟩ := m
    cases v with
    | none => exact ih.cons name
    | some v => exact ih.cons_cons name

/-- An object of members of which some are absent. -/
theorem readable_present {members : List (String × Option Json)}
    (hnames : Canonical (members.map Prod.fst))
    (hvalues : ∀ m ∈ members, ∀ v ∈ m.2, v.Readable) : (Json.obj (present members)).Readable := by
  refine .obj (List.Pairwise.sublist (present_names_sublist members) hnames) fun m hm => ?_
  obtain ⟨member, hmember, hv⟩ := List.mem_filterMap.1 hm
  obtain ⟨value, hvalue, rfl⟩ := Option.map_eq_some_iff.1 hv
  exact hvalues member hmember value hvalue

theorem readable_map {α : Type} {toJson : α → Json} {items : List α}
    (h : ∀ a ∈ items, (toJson a).Readable) : (Json.arr (items.map toJson)).Readable := by
  refine .arr fun v hv => ?_
  obtain ⟨a, ha, rfl⟩ := List.mem_map.1 hv
  exact h a ha

end Json

theorem RawEntry.readable_ofOverride (name : String) (p : PackageOverride) :
    (ofOverride name p).toJson.Readable := by
  have hbound : ∀ bound : Option SafeInt,
      ∀ v ∈ (bound.map Number.ofSafeInt).map Json.num, v.Readable := by
    rintro bound v hv
    rw [Option.map_map] at hv
    obtain ⟨n, -, rfl⟩ := Option.map_eq_some_iff.1 hv
    exact .num (Number.legible_ofSafeInt n)
  refine Json.readable_present (show Json.Canonical
    ["packageName", "minVersionCode", "maxVersionCode", "enabled"] by decide +kernel) ?_
  simp only [List.forall_mem_cons]
  exact ⟨fun v hv => Option.some.inj hv ▸ .str name, hbound p.min, hbound p.max,
    fun v hv => Option.some.inj hv ▸ .bool p.enabled, nofun⟩

theorem ValueEntry.readable (e : ValueEntry) : e.toJson.Readable := by
  refine .obj (show Json.Canonical ["packageName", "enabled"] by decide +kernel) ?_
  simp only [List.forall_mem_cons]
  exact ⟨.str e.packageName, .bool e.enabled, nofun⟩

theorem Snapshot.readable {s : Snapshot} (hwritten : s.Written) : s.toJson.Readable := by
  obtain ⟨id, hid⟩ := hwritten.changeId
  have hvalues : ∀ entries : Option (List ValueEntry),
      ∀ v ∈ entries.map fun es => Json.arr (es.map ValueEntry.toJson), v.Readable := by
    intro entries v hv
    obtain ⟨es, -, rfl⟩ := Option.map_eq_some_iff.1 hv
    exact Json.readable_map fun e _ => e.readable
  have hraw : ∀ v ∈ s.raw.map fun es => Json.arr (es.map RawEntry.toJson), v.Readable := by
    intro v hv
    obtain ⟨es, hes, rfl⟩ := Option.map_eq_some_iff.1 hv
    refine Json.readable_map fun e he => ?_
    obtain ⟨name, p, rfl⟩ := hwritten.raw e (by rw [rawEntries, hes]; exact he)
    exact RawEntry.readable_ofOverride name p
  refine Json.readable_present (show Json.Canonical
    ["changeId", "raw", "validated", "deferred"] by decide +kernel) ?_
  simp only [List.forall_mem_cons]
  refine ⟨fun v hv => ?_, hraw, hvalues s.validated, hvalues s.deferred, nofun⟩
  cases hv
  exact .num (hid ▸ Number.legible_ofSafeInt id)

/-- **The state file of written snapshots is read back from its text.** -/
theorem StateFile.readable {f : StateFile} (hwritten : ∀ s ∈ f.changes, s.Written) :
    f.toJson.Readable := by
  refine .obj (show Json.Canonical ["version", "changes"] by decide +kernel) ?_
  simp only [List.forall_mem_cons]
  exact ⟨Json.ofNat_one ▸ .num (Number.legible_ofSafeInt _),
    Json.readable_map fun s hs => Snapshot.readable (hwritten s hs), nofun⟩

end ChangeGate
