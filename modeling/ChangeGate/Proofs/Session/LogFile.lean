import ChangeGate.Proofs.Identifier.Ulid
import ChangeGate.Proofs.Json.Line
import ChangeGate.Proofs.Snapshot.Schema
import ChangeGate.Proofs.Storage.LogFile
import ChangeGate.Session.Run
/-!
# The log file decodes to the events

The line of an event is an object that tells of the event what there is to tell and nothing else
(`StampedEvent.parse?_line`), and it is one line whatever the event holds. So the lines of a log
file, which has no others, give back the events that were written to it, one by one and in their
order (`log_decodes`).
-/

namespace ChangeGate

/-- **The JSON value of a number:** the number itself if it is finite, as the id of a change always
is. JSON has no other numbers, and `null` instead. -/
def Json.ofNumber : Number → Json
  | .finite x => .num (.finite x)
  | _ => .null

theorem Json.readable_ofNumber (x : Number) : (ofNumber x).Readable := by
  cases x with
  | nan | negInf | posInf => exact .null
  | finite value => exact .num (Number.legible_finite value)

namespace StampedEvent

/-- The names of what a log line may tell. -/
def memberNames : List String :=
  ["event_id", "timestamp", "kind", "changeId", "packageName", "enabled"]

/-- **An event as an object tells of it,** under an id of 26 digits. A package and a flag are told
of only if the event has them. -/
structure DescribedBy (e : StampedEvent) (members : List (String × Json)) : Prop where
  eventId : ∃ id : String, Base32.IsNumeral 26 id.toList ∧
    Json.lookup? "event_id" members = some (.str id)
  timestamp : Json.lookup? "timestamp" members = some (.str e.timestamp)
  kind : Json.lookup? "kind" members = some (.str e.event.kind.name)
  changeId : Json.lookup? "changeId" members = some (.ofNumber e.event.changeId)
  packageName : Json.lookup? "packageName" members = e.event.packageName.map .str
  enabled : Json.lookup? "enabled" members = e.event.enabled.map .bool
  names : (members.map Prod.fst).Sublist memberNames

/-- The members of a log line, with what is read back of the number. -/
def decoded (e : StampedEvent) (eventId : String) : List (String × Json) :=
  Json.present [("event_id", some (.str eventId)), ("timestamp", some (.str e.timestamp)),
    ("kind", some (.str e.event.kind.name)), ("changeId", some (.ofNumber e.event.changeId)),
    ("packageName", e.event.packageName.map .str), ("enabled", e.event.enabled.map .bool)]

theorem decoded_readable (e : StampedEvent) (eventId : String) :
    (Json.obj (e.decoded eventId)).Readable := by
  refine Json.readable_present (show Json.Canonical memberNames by decide +kernel) ?_
  simp only [List.forall_mem_cons]
  refine ⟨?_, ?_, ?_, ?_, ?_, ?_, nofun⟩
  · rintro _ ⟨⟩
    exact .str eventId
  · rintro _ ⟨⟩
    exact .str e.timestamp
  · rintro _ ⟨⟩
    exact .str e.event.kind.name
  · rintro _ ⟨⟩
    exact Json.readable_ofNumber e.event.changeId
  · intro v hv
    obtain ⟨name, -, rfl⟩ := Option.map_eq_some_iff.1 hv
    exact .str name
  · intro v hv
    obtain ⟨flag, -, rfl⟩ := Option.map_eq_some_iff.1 hv
    exact .bool flag

/-- A number that is not finite is written as what is read back of it. -/
theorem line_eq (e : StampedEvent) (eventId : String) :
    e.line eventId = (Json.obj (e.decoded eventId)).compact := by
  obtain ⟨⟨kind, changeId, packageName, enabled⟩, timestamp⟩ := e
  cases changeId <;> rfl

/-- **The line of an event is read as an object that tells of it.** -/
theorem parse?_line (e : StampedEvent) {eventId : String}
    (hid : Base32.IsNumeral 26 eventId.toList) :
    ∃ members, Json.parse? (e.line eventId) = some (.obj members) ∧ e.DescribedBy members := by
  refine ⟨e.decoded eventId, ?_, ?_⟩
  · rw [line_eq, Json.parse?_compact (e.decoded_readable eventId)]
  · have hlookup := fun name => Json.lookup?_present name [("event_id", some (.str eventId)),
      ("timestamp", some (.str e.timestamp)), ("kind", some (.str e.event.kind.name)),
      ("changeId", some (.ofNumber e.event.changeId)),
      ("packageName", e.event.packageName.map .str), ("enabled", e.event.enabled.map .bool)]
    exact {
      eventId := ⟨eventId, hid, by rw [decoded, hlookup]; rfl⟩
      timestamp := by rw [decoded, hlookup]; rfl
      kind := by rw [decoded, hlookup]; rfl
      changeId := by rw [decoded, hlookup]; rfl
      packageName := by rw [decoded, hlookup]; cases e.event.packageName <;> rfl
      enabled := by
        rw [decoded, hlookup]
        cases e.event.packageName <;> cases e.event.enabled <;> rfl
      names := Json.present_names_sublist _ }

theorem newline_not_mem_line (e : StampedEvent) (eventId : String) :
    '\n' ∉ (e.line eventId).toList :=
  Json.newline_not_mem_compact _

/-- A line of a log that was written for an event, under an id of its own. -/
def WrittenAs (e : StampedEvent) (line : String) : Prop :=
  ∃ eventId : String, Base32.IsNumeral 26 eventId.toList ∧ line = e.line eventId

theorem newline_not_mem {events : List StampedEvent} {lines : List String}
    (h : List.Forall₂ WrittenAs events lines) : ∀ line ∈ lines, '\n' ∉ line.toList := by
  induction h with
  | nil => exact fun _ hmem => absurd hmem List.not_mem_nil
  | @cons event line events lines hline _ ih =>
    obtain ⟨eventId, -, rfl⟩ := hline
    exact List.forall_mem_cons.2 ⟨event.newline_not_mem_line eventId, ih⟩

end StampedEvent

namespace Session

/-- **Writes events to a log file,** one after another, up to the first that fails. -/
def writeEvents (supply : Supply) (i : Nat) (filename : String) :
    List StampedEvent → Session → Done Unit
  | [], s => .ok s ()
  | e :: rest, s =>
    (s.writeEvent supply i filename e).next fun _ s => writeEvents supply i filename rest s

variable {supply : Supply} {i : Nat} {filename : String} {s : Session} {d : DirectoryStorage}

theorem writeEvents_cons (e : StampedEvent) (rest : List StampedEvent) :
    s.writeEvents supply i filename (e :: rest) = (s.writeEvent supply i filename e).next
      fun _ s => writeEvents supply i filename rest s := rfl

/-- **One event more** is one line more. -/
theorem writeEvent_directory (supply : Supply) (i : Nat) (filename : String)
    (hs : s.storage = .directory d) (e : StampedEvent) :
    ∃ line, e.WrittenAs line ∧
      (s.writeEvent supply i filename e).session.storage =
        .directory (d.appendLine filename line).1 ∧
      ((s.writeEvent supply i filename e).result = .ok () ↔
        (d.appendLine filename line).2 = .ok ()) := by
  refine ⟨_, ⟨_, Ulid.isNumeral_toList_encode (supply.moment s.logged).milliseconds
    (supply.random s.logged), rfl⟩, ?_, ?_⟩
  · unfold writeEvent
    rw [hs]
    rfl
  · unfold writeEvent
    rw [hs]
    dsimp only [Storage.appendLine, Storage.ofDirectory]
    cases (d.appendLine filename _).2 <;> simp

theorem writeEvent_holds (supply : Supply) (i : Nat) {lines : List String}
    (hs : s.storage = .directory d)
    (h : d.Holds filename (Text.Utf8.encode (logText lines))) (e : StampedEvent) :
    ∃ d' line, (s.writeEvent supply i filename e).result = .ok () ∧
      (s.writeEvent supply i filename e).session.storage = .directory d' ∧ d'.home = d.home ∧
      e.WrittenAs line ∧ d'.Holds filename (Text.Utf8.encode (logText (lines ++ [line]))) := by
  obtain ⟨line, hline, hstorage, hresult⟩ := writeEvent_directory supply i filename hs e
  obtain ⟨d', happend, hholds⟩ := h.appendLine line
  have hhome := d.home_appendLine filename line
  rw [happend] at hstorage hresult hhome
  refine ⟨d', line, hresult.2 rfl, hstorage, hhome, hline, ?_⟩
  rwa [logText_concat, Text.Utf8.encode_append]

/-- **Events are written to a log file that is there** as lines behind those that it has, and none
of them fails. By induction on the events. -/
theorem writeEvents_holds (supply : Supply) (i : Nat) {lines : List String}
    (hs : s.storage = .directory d)
    (h : d.Holds filename (Text.Utf8.encode (logText lines))) (events : List StampedEvent) :
    ∃ d' more, (s.writeEvents supply i filename events).result = .ok () ∧
      (s.writeEvents supply i filename events).session.storage = .directory d' ∧
      d'.home = d.home ∧ d'.Holds filename (Text.Utf8.encode (logText (lines ++ more))) ∧
      List.Forall₂ StampedEvent.WrittenAs events more := by
  induction events generalizing s d lines with
  | nil => exact ⟨d, [], rfl, hs, rfl, by rwa [List.append_nil], .nil⟩
  | cons e rest ih =>
    obtain ⟨d₁, line, hresult, hstorage, hhome, hline, hholds⟩ :=
      writeEvent_holds supply i hs h e
    obtain ⟨d', more, hresult', hstorage', hhome', hholds', hmore⟩ := ih hstorage hholds
    rw [writeEvents_cons, Done.next, hresult]
    refine ⟨d', line :: more, hresult', hstorage', hhome'.trans hhome, ?_, .cons hline hmore⟩
    rwa [List.append_assoc] at hholds'

/-- **A log file decodes to the events that were written to it.** If it was not there before, then
writing events to it fails only if the first one does, as it does not in a home directory that is
there with nothing in the way. The text has a line for each event, in their order, and ends in a
line feed; and each line tells of its event and of nothing else. -/
theorem log_decodes (supply : Supply) (i : Nat) (hs : s.storage = .directory d)
    (hclosed : d.tree.Closed) (hfree : d.tree.isPresent (d.logPath filename) = false)
    (e : StampedEvent) (rest : List StampedEvent) :
    (s.writeEvents supply i filename (e :: rest)).result =
        (s.writeEvent supply i filename e).result ∧
      (∀ base, PlainName filename → d.tree.locate d.home = .ok base →
        d.tree.node? base = some .directory →
        (d.tree.node? (base ++ ["logs"]) = none ∨
          d.tree.node? (base ++ ["logs"]) = some .directory) →
        (s.writeEvents supply i filename (e :: rest)).result = .ok ()) ∧
      ((s.writeEvents supply i filename (e :: rest)).result = .ok () →
        ∃ d' text lines,
          (s.writeEvents supply i filename (e :: rest)).session.storage = .directory d' ∧
          d'.home = d.home ∧ d'.rawText (d'.logPath filename) = .ok (some text) ∧
          (text.toList.splitOn '\n').map String.ofList = lines ++ [""] ∧
          List.Forall₂ (fun event line => ∃ members, Json.parse? line = some (.obj members) ∧
            event.DescribedBy members) (e :: rest) lines) := by
  obtain ⟨line, hline, hstorage, hresult⟩ := writeEvent_directory supply i filename hs e
  cases hfirst : (s.writeEvent supply i filename e).result with
  | error fault =>
    have hfailed : (s.writeEvents supply i filename (e :: rest)).result = .error fault := by
      rw [writeEvents_cons, Done.next, hfirst]
    rw [hfirst] at hresult
    refine ⟨hfailed, fun base hname hlocate hbase hlogs => ?_, fun hok => ?_⟩
    · cases hresult.2 (DirectoryStorage.appendLine_of_free hclosed hfree hname hlocate hbase hlogs
        line)
    · rw [hfailed] at hok
      cases hok
  | ok _ =>
    have happend : d.appendLine filename line = ((d.appendLine filename line).1, .ok ()) :=
      Prod.ext rfl (hresult.1 hfirst)
    have hholds := DirectoryStorage.holds_of_appendLine hclosed hfree happend
    have htext : logText [line] = line ++ "\n" := by simp [logText]
    rw [← htext] at hholds
    obtain ⟨d', more, hrun, hstorage', hhome, hholds', hmore⟩ :=
      writeEvents_holds supply i hstorage hholds rest
    have hdone : (s.writeEvents supply i filename (e :: rest)).result = .ok () := by
      rw [writeEvents_cons, Done.next, hfirst]
      exact hrun
    refine ⟨hdone, fun _ _ _ _ _ => hdone, fun _ => ?_⟩
    have hwritten : List.Forall₂ StampedEvent.WrittenAs (e :: rest) (line :: more) :=
      .cons hline hmore
    refine ⟨d', _, line :: more, ?_, hhome.trans (d.home_appendLine filename line), hholds'.rawText,
      splitOn_logText (StampedEvent.newline_not_mem hwritten), ?_⟩
    · rw [writeEvents_cons, Done.next, hfirst]
      exact hstorage'
    · refine hwritten.imp fun event line hevent => ?_
      obtain ⟨eventId, hid, rfl⟩ := hevent
      exact event.parse?_line hid

/-- An event with texts that need escapes. -/
def awkwardEvent : StampedEvent where
  event := {
    kind := .evaluatedSet
    changeId := .ofSafeInt .one
    packageName := some "two\nlines, \"quoted\", \\ and \x01 é"
    enabled := some false }
  timestamp := "t\t0"

/-- An event with neither a package nor a flag. -/
def bareEvent : StampedEvent where
  event := { kind := .cleared, changeId := .ofSafeInt .minusOne }
  timestamp := ""

theorem awkwardEvent_decodes :
    emptyHome.tree.Closed ∧
    emptyHome.tree.isPresent (emptyHome.logPath "overrides.jsonl") = false ∧
    ∃ d' text lines,
      (writeEvents default 0 "overrides.jsonl" [awkwardEvent, bareEvent]
        { storage := .directory emptyHome }).session.storage = .directory d' ∧
      d'.home = emptyHome.home ∧
      d'.rawText (d'.logPath "overrides.jsonl") = .ok (some text) ∧
      (text.toList.splitOn '\n').map String.ofList = lines ++ [""] ∧
      List.Forall₂ (fun event line => ∃ members, Json.parse? line = some (.obj members) ∧
        event.DescribedBy members) [awkwardEvent, bareEvent] lines := by
  have hfree : emptyHome.tree.isPresent (emptyHome.logPath "overrides.jsonl") = false := by
    decide +kernel
  obtain ⟨hhome, hdirectory, hnothing⟩ := emptyHome_empty
  obtain ⟨-, hsucceeds, hdecodes⟩ := log_decodes (s := { storage := .directory emptyHome })
    default 0 rfl emptyHome_closed hfree awkwardEvent [bareEvent]
  have hname : PlainName "overrides.jsonl" := by decide +kernel
  have hlogs : emptyHome.tree.node? (["home"] ++ ["logs"]) = none := hnothing ["logs"] (by simp)
  exact ⟨emptyHome_closed, hfree, hdecodes (hsucceeds ["home"] hname hhome hdirectory (.inl hlogs))⟩

end Session

end ChangeGate
