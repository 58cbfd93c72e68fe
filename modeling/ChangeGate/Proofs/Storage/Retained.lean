import ChangeGate.Proofs.Json.Proper
import ChangeGate.Proofs.Storage
import ChangeGate.Proofs.Storage.Mirror
/-!
# State retained in memory

What was written to a state file in memory stays there, whatever calls on other files follow: it is
read back as the value that it was, and writing that value once more changes nothing
(`readJson_later`).
-/

namespace ChangeGate

open Storage (Call)

variable {m : MemoryStorage} {filename : String}

/-- The state file that a call replaces. -/
def Storage.Call.written? : Call → Option String
  | .read .. => none
  | .write filename _ => some filename
  | .append .. => none

namespace MemoryStorage

/-- **A call leaves a state file as it is** that it does not replace. -/
theorem call_retains (m : MemoryStorage) {c : Call} (hother : c.written? ≠ some filename) :
    ∃ m' outcome, (Storage.memory m).call c = (.memory m', outcome) ∧
      m'.files.get? filename = m.files.get? filename := by
  cases c with
  | read check name fallback => exact ⟨m, _, rfl, rfl⟩
  | write name v =>
    have hne : name ≠ filename := fun heq => hother (congrArg some heq)
    exact ⟨_, _, rfl, NameMap.get?_insert_of_ne m.files _ hne⟩
  | append name line => exact ⟨_, _, rfl, rfl⟩

/-- **And so do calls one after another.** -/
theorem calls_retain {calls : List Call} (hothers : ∀ c ∈ calls, c.written? ≠ some filename) :
    ∃ m' outcomes, (Storage.memory m).calls calls = (.memory m', outcomes) ∧
      m'.files.get? filename = m.files.get? filename := by
  induction calls generalizing m with
  | nil => exact ⟨m, [], rfl, rfl⟩
  | cons c rest ih =>
    obtain ⟨after, outcome, hcall, hafter⟩ := m.call_retains (hothers c List.mem_cons_self)
    obtain ⟨last, outcomes, hcalls, hlast⟩ :=
      ih (m := after) fun c' hc' => hothers c' (List.mem_cons_of_mem c hc')
    refine ⟨last, ⟨c, outcome⟩ :: outcomes, ?_, hlast.trans hafter⟩
    rw [Storage.calls, hcall]
    dsimp only
    rw [hcalls]

/-- A text that is there already changes nothing. -/
theorem writeText_self {text : String} (h : m.files.get? filename = some text) :
    m.writeText filename text = m := by
  have hfiles : m.files.insert filename text = m.files := by
    refine NameMap.ext_get? fun name => ?_
    rw [NameMap.get?_insert]
    split
    · rename_i heq
      rw [← heq, h]
    · rfl
  rw [writeText, hfiles]

end MemoryStorage

/-- **What was written is read back,** whatever calls that do not write the same file stand between:
a check that accepts everything gives the value itself and not the fallback. The file still has the
text of the value, and to write what was read leaves all as it is. -/
theorem readJson_later (m : MemoryStorage) (filename : String) {v : Json} (hv : v.Proper)
    {calls : List Call} (hothers : ∀ c ∈ calls, c.written? ≠ some filename) {check : Check Json}
    (haccepts : ∀ w, (check [] (some w)).result = .ok w) (fallback : Json) :
    ∃ written later outcomes,
      (Storage.memory m).writeJson filename v = (written, .ok ()) ∧
      written.calls calls = (later, outcomes) ∧
      later.readJson check filename fallback = .ok v ∧
      later.readText filename = .ok (some v.indented) ∧
      later.writeJson filename v = (later, .ok ()) := by
  obtain ⟨last, outcomes, hcalls, hlast⟩ :=
    MemoryStorage.calls_retain (m := m.writeText filename v.indented) hothers
  have htext : last.files.get? filename = some v.indented := by
    rw [hlast, MemoryStorage.writeText, NameMap.get?_insert_self]
  have hread : (Storage.memory last).readText filename = .ok (some v.indented) :=
    congrArg Except.ok htext
  refine ⟨_, .memory last, outcomes, rfl, hcalls, ?_, hread, ?_⟩
  · rw [Storage.readJson_of_readText hv.readable hread check fallback, haccepts]
  · rw [Storage.writeJson, MemoryStorage.writeText_self htext]

/-! ## A value with all of it -/

/-- The least positive number. -/
def leastPositive : Binary64 where
  steps := 1
  fits := ⟨⟨1, 0, by decide, rfl⟩, by unfold stepsLimit; exact Nat.one_lt_two_pow (by
    unfold stepExponent limitExponent; decide)⟩

/-- A value with nested lists and objects, a name that is an index behind one that is none, a
string that needs escapes and a number that needs an exponent. -/
def nestedValue : Json :=
  Json.object [("name", .str "one\n\"two\"\t\x01 é"),
    ("10", .arr [.num (.finite leastPositive), .arr []]),
    ("2", Json.object [("", .null), ("__proto__", .bool false)])]

theorem nestedValue_proper : nestedValue.Proper := by
  have hitems : (Json.arr [.num (.finite leastPositive), .arr []]).Proper := by
    refine .arr fun v hv => ?_
    simp only [List.mem_cons, List.not_mem_nil, or_false] at hv
    obtain rfl | rfl := hv
    · exact .num leastPositive
    · exact .arr nofun
  have hinner : (Json.object [("", .null), ("__proto__", .bool false)]).Proper := by
    refine Json.proper_object fun m hm => ?_
    simp only [List.mem_cons, List.not_mem_nil, or_false] at hm
    obtain rfl | rfl := hm
    · exact .null
    · exact .bool false
  refine Json.proper_object fun m hm => ?_
  simp only [List.mem_cons, List.not_mem_nil, or_false] at hm
  obtain rfl | rfl | rfl := hm
  · exact .str _
  · exact hitems
  · exact hinner

/-- Calls that write other files, and read that of the value. -/
def callsBetween : List Call :=
  [.write "other.json" .null, .read Check.any "value.json" .null, .append "value.json" "line",
    .write "value.json.tmp" (.bool true)]

theorem nestedValue_later :
    nestedValue.Proper ∧ (∀ c ∈ callsBetween, c.written? ≠ some "value.json") ∧
    (∀ w, (Check.any [] (some w)).result = .ok w) ∧
    ∃ written later outcomes,
      (Storage.memory {}).writeJson "value.json" nestedValue = (written, .ok ()) ∧
      written.calls callsBetween = (later, outcomes) ∧
      later.readJson Check.any "value.json" .null = .ok nestedValue ∧
      later.readText "value.json" = .ok (some nestedValue.indented) ∧
      later.writeJson "value.json" nestedValue = (later, .ok ()) := by
  have hothers : ∀ c ∈ callsBetween, c.written? ≠ some "value.json" := by
    simp [callsBetween, Storage.Call.written?]
  exact ⟨nestedValue_proper, hothers, fun _ => rfl,
    readJson_later {} "value.json" nestedValue_proper hothers (fun _ => rfl) .null⟩

end ChangeGate
