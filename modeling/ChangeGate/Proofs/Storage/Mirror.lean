import ChangeGate.Proofs.Files.Below
import ChangeGate.Proofs.NameMap
import ChangeGate.Proofs.Text.Utf8
import ChangeGate.Storage.Basic
/-!
# A home directory mirrors a storage in memory

`MemoryStorage.node?` says which files and directories a storage in memory comes to, and `Mirrors`
that a home directory holds exactly these. An empty home directory mirrors an empty storage, and
every call on the two has the same outcome and keeps them alike (`Mirrors.call`), as long as no
state file has the name that another one goes by while it is written. So no run of such calls can
tell the two kinds of storage apart (`calls_agree`).
-/

namespace ChangeGate

open Text

/-- The text of a log: its lines, each with a line feed behind it. -/
def logText : List String → String
  | [] => ""
  | line :: rest => line ++ "\n" ++ logText rest

/-- The name under which a state file is written before it takes its own. -/
def besideName (filename : String) : String :=
  filename ++ ".tmp"

theorem logText_concat (lines : List String) (line : String) :
    logText (lines ++ [line]) = logText lines ++ (line ++ "\n") := by
  induction lines with
  | nil => simp [logText]
  | cons first rest ih => rw [List.cons_append, logText, ih, logText, ← String.append_assoc]

theorem plainName_besideName {filename : String} (h : PlainName filename) :
    PlainName (besideName filename) := by
  have hsuffix : PlainName ".tmp" := by decide
  refine h.append hsuffix ?_
  rw [String.length_append]
  exact Nat.le_trans (by decide) (Nat.le_add_left 4 _)

theorem besideName_ne (filename : String) : besideName filename ≠ filename := by
  intro heq
  have hlength := congrArg String.length heq
  rw [besideName, String.length_append] at hlength
  exact absurd hlength (by simp)

/-! ## What a storage in memory comes to -/

/-- **The directory of a map:** it is there as soon as the map has an entry, and has a file for each
of them. -/
def sectionNode? {α : Type} (content : α → String) (m : NameMap α) : Location → Option Node
  | [] => if m.isEmpty then none else some .directory
  | [name] => (m.get? name).map fun a => .file (Utf8.encode (content a))
  | _ => none

/-- What is looked up of a file that has some text, or of none. -/
def lookOf : Option String → Except FileError Node
  | none => .error .notFound
  | some text => .ok (.file (Utf8.encode text))

section Sections

variable {α : Type} {content : α → String} {m : NameMap α} {name : String}

/-- A file more, or another text of one that there is. -/
theorem sectionNode?_insert (content : α → String) (m : NameMap α) (name : String) (a : α)
    (rest : Location) :
    sectionNode? content (m.insert name a) rest =
      if rest = [name] then some (.file (Utf8.encode (content a)))
      else if rest = [] then some .directory else sectionNode? content m rest := by
  have hfilled : (m.insert name a).isEmpty = false :=
    NameMap.isEmpty_eq_false_of_contains
      (show (m.insert name a).contains name = true by simp [NameMap.contains_insert])
  match rest with
  | [] => simp [sectionNode?, hfilled]
  | [other] =>
    by_cases h : name = other
    · simp [sectionNode?, h]
    · simp [sectionNode?, NameMap.get?_insert, h, Ne.symm h]
  | _ :: _ :: _ => simp [sectionNode?]

/-- The directory is there unless the map is empty. -/
theorem sectionNode?_nil (content : α → String) (m : NameMap α) :
    sectionNode? content m [] = none ∨ sectionNode? content m [] = some .directory := by
  cases hempty : m.isEmpty <;> simp [sectionNode?, hempty]

theorem sectionNode?_empty (content : α → String) (rest : Location) :
    sectionNode? content .empty rest = none := by
  match rest with
  | [] => rfl
  | [_] => rfl
  | _ :: _ :: _ => rfl

theorem sectionNode?_ne_directory : sectionNode? content m [name] ≠ some .directory := by
  unfold sectionNode?
  cases m.get? name <;> simp

end Sections

/-- **What there is below a home directory** that holds the same state and logs. -/
def MemoryStorage.node? (m : MemoryStorage) : Location → Option Node
  | [] => some .directory
  | part :: rest =>
    if part = "state" then sectionNode? id m.files rest
    else if part = "logs" then sectionNode? logText m.logs rest
    else none

namespace MemoryStorage

variable (m : MemoryStorage) (name : String)

/-- A state file more, or another text of one that there is. -/
theorem node?_writeText (text : String) (rest : Location) :
    (m.writeText name text).node? rest =
      if rest = ["state", name] then some (.file (Utf8.encode text))
      else if rest = ["state"] then some .directory else m.node? rest := by
  cases rest with
  | nil => rfl
  | cons part rest =>
    rw [node?, node?]
    by_cases hstate : part = "state"
    · subst hstate
      rw [if_pos rfl, if_pos rfl, writeText, sectionNode?_insert]
      simp
    · simp [hstate, writeText]

/-- A line more in a log, which is made if there is none. -/
theorem node?_appendLine (line : String) (rest : Location) :
    (m.appendLine name line).node? rest =
      if rest = ["logs", name] then
        some (.file (Utf8.encode (logText (m.lines name) ++ (line ++ "\n"))))
      else if rest = ["logs"] then some .directory else m.node? rest := by
  cases rest with
  | nil => rfl
  | cons part rest =>
    rw [node?, node?]
    by_cases hlogs : part = "logs"
    · subst hlogs
      have hother : "logs" ≠ "state" := by decide
      rw [if_neg hother, if_pos rfl, if_neg hother, if_pos rfl, appendLine, sectionNode?_insert,
        logText_concat]
      simp
    · simp [hlogs, appendLine]

end MemoryStorage

/-- **A home directory mirrors a storage in memory.** There is nothing below it but the files and
directories that the storage comes to. -/
structure DirectoryStorage.Mirrors (d : DirectoryStorage) (base : Location) (m : MemoryStorage) :
    Prop where
  home : d.tree.locate d.home = .ok base
  below : ∀ rest, d.tree.node? (base ++ rest) = m.node? rest

/-- **An empty home directory.** -/
def DirectoryStorage.Empty (d : DirectoryStorage) (base : Location) : Prop :=
  d.tree.locate d.home = .ok base ∧ d.tree.node? base = some .directory ∧
    ∀ rest, rest ≠ [] → d.tree.node? (base ++ rest) = none

/-! ## Files of a mirror -/

namespace FileTree

variable {t : FileTree} {p : FilePath} {base : Location} {directory name : String}

/-- **A file of a section** is there if the map has an entry for it. -/
theorem look_section {α : Type} (content : α → String) {m : NameMap α}
    (hdirectory : PlainName directory) (hname : PlainName name)
    (hlocate : t.locate p = .ok base) (hbase : t.node? base = some .directory)
    (hsection : ∀ rest, t.node? (base ++ directory :: rest) = sectionNode? content m rest) :
    t.look ((p.join directory).join name) = lookOf ((m.get? name).map content) := by
  have hplace := locate_entry hdirectory hlocate hbase
  have hown : t.node? (base ++ [directory]) = sectionNode? content m [] := hsection []
  cases hempty : m.isEmpty with
  | true =>
    -- without the directory there is no file
    have hnone : t.node? (base ++ [directory]) = none := by rw [hown, sectionNode?, if_pos hempty]
    rw [look, locate_join hname hplace, enter, hnone, NameMap.isEmpty_iff.1 hempty]
    rfl
  | false =>
    have hthere : t.node? (base ++ [directory]) = some .directory := by
      rw [hown, sectionNode?, hempty]
      rfl
    have hfile : t.node? (base ++ [directory] ++ [name]) = sectionNode? content m [name] := by
      rw [List.append_assoc]
      exact hsection [name]
    rw [look_entry hname hplace hthere, hfile, sectionNode?]
    cases m.get? name <;> rfl

end FileTree

namespace DirectoryStorage

variable {d : DirectoryStorage} {base : Location} {m : MemoryStorage} {name : String}

theorem plainName_state : PlainName "state" := by decide

theorem plainName_logs : PlainName "logs" := by decide

theorem Empty.mirrors (h : d.Empty base) : d.Mirrors base {} where
  home := h.1
  below rest := by
    cases rest with
    | nil => rw [List.append_nil]; exact h.2.1
    | cons part rest =>
      rw [h.2.2 (part :: rest) (List.cons_ne_nil _ _), MemoryStorage.node?, sectionNode?_empty,
        sectionNode?_empty, ite_self, ite_self]

namespace Mirrors

theorem base_directory (h : d.Mirrors base m) : d.tree.node? base = some .directory := by
  have hbelow := h.below []
  rwa [List.append_nil] at hbelow

/-! ### Looking -/

/-- What is looked up under the name of a state file. -/
theorem look_state (h : d.Mirrors base m) (hname : PlainName name) :
    d.tree.look (d.statePath name) = lookOf (m.files.get? name) := by
  have hlook := FileTree.look_section id plainName_state hname h.home h.base_directory
    fun rest => h.below ("state" :: rest)
  rwa [Option.map_id_fun, id_eq] at hlook

/-- What is looked up under the name of a log. -/
theorem look_log (h : d.Mirrors base m) (hname : PlainName name) :
    d.tree.look (d.logPath name) = lookOf ((m.logs.get? name).map logText) :=
  FileTree.look_section logText plainName_logs hname h.home h.base_directory
    fun rest => h.below ("logs" :: rest)

theorem readText (h : d.Mirrors base m) (hname : PlainName name) :
    d.readText name = .ok (m.files.get? name) := by
  rw [DirectoryStorage.readText, FileTree.read, h.look_state hname]
  cases m.files.get? name with
  | none => rfl
  | some text =>
    simp only [lookOf, Disk.reading_sound, unlessRefused_none, Utf8.decode_encode]

/-- The text that is there under a path. -/
theorem rawText_of_look {path : FilePath} {text? : Option String}
    (hlook : d.tree.look path = lookOf text?) : d.rawText path = .ok text? := by
  cases text? with
  | none =>
    rw [rawText, FileTree.isPresent, hlook]
    rfl
  | some text =>
    rw [rawText, FileTree.isPresent, FileTree.read, hlook]
    simp [lookOf, Except.toOption, Utf8.decode_encode]

/-! ### Writing -/

/-- **The directory of a section is made** if it is not there, and nothing else happens. -/
theorem makeDirectories {directory : String} (h : d.Mirrors base m)
    (hdirectory : PlainName directory)
    (hfree : m.node? [directory] = none ∨ m.node? [directory] = some .directory) :
    ∃ made, d.tree.makeDirectories (d.home.join directory) = (made, .ok ()) ∧
      made.locate d.home = .ok base ∧
      made.locate (d.home.join directory) = .ok (base ++ [directory]) ∧
      ∀ rest, made.node? (base ++ rest) =
        if rest = [directory] then some .directory else m.node? rest := by
  rw [← h.below] at hfree
  obtain ⟨made, hmade, hkeeps, hnodes⟩ :=
    FileTree.makeDirectories_join hdirectory h.home h.base_directory hfree
  refine ⟨made, hmade, hkeeps.locate h.home, hkeeps.locate
    (FileTree.locate_entry hdirectory h.home h.base_directory), fun rest => ?_⟩
  rw [hnodes, h.below]
  simp only [List.append_cancel_left_eq]

/-- **A state file is replaced.** What was written beside it is gone when it has taken its name. -/
theorem writeText (h : d.Mirrors base m) (hname : PlainName name)
    (hbeside : m.files.get? (besideName name) = none) (text : String) :
    ∃ d', d.writeText name text = (d', .ok ()) ∧ d'.Mirrors base (m.writeText name text) := by
  obtain ⟨made, hmade, hhome, hstate, hnodes⟩ :=
    h.makeDirectories plainName_state (sectionNode?_nil id m.files)
  have hplain := plainName_besideName hname
  have hentry : ∀ entry, base ++ ["state"] ++ [entry] = base ++ ["state", entry] := fun entry =>
    List.append_assoc base ["state"] [entry]
  have hthere : made.node? (base ++ ["state"]) = some .directory := by rw [hnodes, if_pos rfl]
  have hfree : ∀ entry, made.node? (base ++ ["state"] ++ [entry]) ≠ some .directory := by
    intro entry
    rw [hentry, hnodes, if_neg (by simp)]
    exact sectionNode?_ne_directory
  obtain ⟨written, renamed, hwrite, hrename, hkeeps, hreplaced⟩ := FileTree.replace_entry hname
    hstate hthere hplain (besideName_ne name) hfree (Utf8.encode text)
  refine ⟨{ d with tree := renamed }, ?_, hkeeps.locate hhome, fun rest => ?_⟩
  · have hsuffix : ((d.home.join "state").join name).withSuffix ".tmp" =
        (d.home.join "state").join (besideName name) := FilePath.withSuffix_join hname hplain
    unfold DirectoryStorage.writeText statePath stateDirectory
    simp only [hsuffix, hmade, hwrite, hrename]
  · rw [hreplaced, hnodes, hentry, hentry, m.node?_writeText]
    simp only [List.append_cancel_left_eq]
    split
    · rfl
    · split
      · -- there was nothing under the name beside it, and there is nothing again
        rename_i hgone
        subst hgone
        rw [if_neg (by simp)]
        simp [MemoryStorage.node?, sectionNode?, hbeside]
      · rfl

/-- **A line is added to a log,** which is made if it is not there. -/
theorem appendLine (h : d.Mirrors base m) (hname : PlainName name) (line : String) :
    ∃ d', d.appendLine name line = (d', .ok ()) ∧ d'.Mirrors base (m.appendLine name line) := by
  obtain ⟨made, hmade, hhome, hlogs, hnodes⟩ :=
    h.makeDirectories plainName_logs (sectionNode?_nil logText m.logs)
  have hentry : base ++ ["logs"] ++ [name] = base ++ ["logs", name] :=
    List.append_assoc base ["logs"] [name]
  have hthere : made.node? (base ++ ["logs"]) = some .directory := by rw [hnodes, if_pos rfl]
  have hnode : made.node? (base ++ ["logs"] ++ [name]) =
      (m.logs.get? name).map fun lines => .file (Utf8.encode (logText lines)) := by
    rw [hentry, hnodes, if_neg (by simp)]
    rfl
  have hfree : made.node? (base ++ ["logs"] ++ [name]) ≠ some .directory := by
    rw [hnode]
    cases m.logs.get? name <;> simp
  have hbytes : made.bytesAt (base ++ ["logs"] ++ [name]) ++ Utf8.encode (line ++ "\n") =
      Utf8.encode (logText (m.lines name) ++ (line ++ "\n")) := by
    rw [Utf8.encode_append (logText (m.lines name)), FileTree.bytesAt, hnode, MemoryStorage.lines]
    cases m.logs.get? name <;> rfl
  have happend := FileTree.append_entry hname hlogs hthere hfree (Utf8.encode (line ++ "\n"))
  refine ⟨{ d with tree := made.put (base ++ ["logs"] ++ [name]) (.file
    (made.bytesAt (base ++ ["logs"] ++ [name]) ++ Utf8.encode (line ++ "\n"))) }, ?_,
    (FileTree.keepsDirectories_put hfree _).locate hhome, fun rest => ?_⟩
  · unfold DirectoryStorage.appendLine logPath logDirectory
    simp only [hmade, happend]
  · rw [FileTree.node?_put (by simp), hbytes, hnodes, hentry, m.node?_appendLine]
    simp only [List.append_cancel_left_eq]

end Mirrors

end DirectoryStorage

/-! ## Calls -/

namespace Storage

/-- **A call:** what is read, written or added to a log. -/
inductive Call : Type 1 where
  | read {α : Type} (check : Check α) (filename : String) (fallback : α)
  | write (filename : String) (v : Json)
  | append (filename line : String)

def Call.filename : Call → String
  | read _ filename _ => filename
  | write filename _ => filename
  | append filename _ => filename

/-- What a call gives when it succeeds. -/
def Call.Result : Call → Type
  | @read α _ _ _ => α
  | write .. => Unit
  | append .. => Unit

/-- A call and how it ended. -/
def Outcome : Type 1 :=
  (c : Call) × Except StorageError c.Result

/-- The storage after a call, and how the call ended. -/
def call (s : Storage) : (c : Call) → Storage × Except StorageError c.Result
  | .read check filename fallback => (s, s.readJson check filename fallback)
  | .write filename v => s.writeJson filename v
  | .append filename line => s.appendLine filename line

/-- **Calls one after another.** A call that fails does not keep the next ones from being made. -/
def calls (s : Storage) : List Call → Storage × List Outcome
  | [] => (s, [])
  | c :: rest =>
    let (after, outcome) := s.call c
    let (last, outcomes) := after.calls rest
    (last, ⟨c, outcome⟩ :: outcomes)

end Storage

namespace DirectoryStorage.Mirrors

variable {d : DirectoryStorage} {base : Location} {m : MemoryStorage}

/-- **A call has the same outcome on a mirror,** which stays one; it touches no state file but the
one that it names. -/
theorem call (h : d.Mirrors base m) (c : Storage.Call) (hplain : PlainName c.filename)
    (hbeside : m.files.get? (besideName c.filename) = none) :
    ∃ d' m' outcome, (Storage.directory d).call c = (.directory d', outcome) ∧
      (Storage.memory m).call c = (.memory m', outcome) ∧ d'.Mirrors base m' ∧
      ∀ name, c.filename ≠ name → m'.files.get? name = m.files.get? name := by
  cases c with
  | read check filename fallback =>
    have hname : PlainName filename := hplain
    have htext : (Storage.directory d).readText filename =
        (Storage.memory m).readText filename := by
      simp only [Storage.readText, h.readText hname]
    have hread : (Storage.directory d).readJson check filename fallback =
        (Storage.memory m).readJson check filename fallback := by
      rw [Storage.readJson, Storage.readJson, htext]
    exact ⟨d, m, _, congrArg (Prod.mk _) hread, rfl, h, fun _ _ => rfl⟩
  | write filename v =>
    obtain ⟨d', hwrite, hmirrors⟩ := h.writeText hplain hbeside v.indented
    refine ⟨d', m.writeText filename v.indented, .ok (), ?_, rfl, hmirrors, fun name hne => ?_⟩
    · exact congrArg Storage.ofDirectory hwrite
    · have hother : filename ≠ name := hne
      rw [MemoryStorage.writeText, NameMap.get?_insert, if_neg hother]
  | append filename line =>
    obtain ⟨d', happend, hmirrors⟩ := h.appendLine hplain line
    exact ⟨d', m.appendLine filename line, .ok (), congrArg Storage.ofDirectory happend, rfl,
      hmirrors, fun _ _ => rfl⟩

/-- **Calls have the same outcomes on a mirror,** by induction: what is beside the files that are
named is left alone, since none of the names is one of these. -/
theorem calls (h : d.Mirrors base m) (calls : List Storage.Call)
    (hplain : ∀ c ∈ calls, PlainName c.filename)
    (hapart : ∀ c ∈ calls, ∀ c' ∈ calls, c'.filename ≠ besideName c.filename)
    (hbeside : ∀ c ∈ calls, m.files.get? (besideName c.filename) = none) :
    ∃ d' m' outcomes, (Storage.directory d).calls calls = (.directory d', outcomes) ∧
      (Storage.memory m).calls calls = (.memory m', outcomes) ∧ d'.Mirrors base m' ∧
      ∀ name, (∀ c ∈ calls, c.filename ≠ name) → m'.files.get? name = m.files.get? name := by
  induction calls generalizing d m with
  | nil => exact ⟨d, m, [], rfl, rfl, h, fun _ _ => rfl⟩
  | cons c rest ih =>
    obtain ⟨d₁, m₁, outcome, hdirectory, hmemory, hmirrors, hkept⟩ :=
      h.call c (hplain c List.mem_cons_self) (hbeside c List.mem_cons_self)
    have hbeside₁ : ∀ c' ∈ rest, m₁.files.get? (besideName c'.filename) = none := by
      intro c' hc'
      have hmem := List.mem_cons_of_mem c hc'
      rw [hkept _ (hapart c' hmem c List.mem_cons_self), hbeside c' hmem]
    obtain ⟨d', m', outcomes, hdirectory', hmemory', hmirrors', hkept'⟩ := ih hmirrors
      (fun c' hc' => hplain c' (List.mem_cons_of_mem c hc'))
      (fun a ha b hb => hapart a (List.mem_cons_of_mem c ha) b (List.mem_cons_of_mem c hb)) hbeside₁
    refine ⟨d', m', ⟨c, outcome⟩ :: outcomes, ?_, ?_, hmirrors', fun name hname => ?_⟩
    · rw [Storage.calls, hdirectory]
      dsimp only
      rw [hdirectory']
    · rw [Storage.calls, hmemory]
      dsimp only
      rw [hmemory']
    · rw [hkept' name fun c' hc' => hname c' (List.mem_cons_of_mem c hc'),
        hkept name (hname c List.mem_cons_self)]

end DirectoryStorage.Mirrors

/-- **An empty home directory does what an empty storage in memory does,** call by call. What each
file holds in the end is the text that is kept in memory, and a log its lines; nothing is left of
what was written beside a file. -/
theorem calls_agree {d : DirectoryStorage} {base : Location} {calls : List Storage.Call}
    (hempty : d.Empty base) (hplain : ∀ c ∈ calls, PlainName c.filename)
    (hapart : ∀ c ∈ calls, ∀ c' ∈ calls, c'.filename ≠ besideName c.filename) :
    ∃ d' m' outcomes, (Storage.directory d).calls calls = (.directory d', outcomes) ∧
      (Storage.memory {}).calls calls = (.memory m', outcomes) ∧ d'.Mirrors base m' ∧
      (∀ name, PlainName name →
        d'.rawText (d'.statePath name) = .ok (m'.files.get? name) ∧
        d'.rawText (d'.logPath name) = .ok ((m'.logs.get? name).map logText)) ∧
      ∀ c ∈ calls, d'.tree.isPresent (d'.statePath (besideName c.filename)) = false := by
  obtain ⟨d', m', outcomes, hdirectory, hmemory, hmirrors, hkept⟩ :=
    hempty.mirrors.calls calls hplain hapart fun _ _ => rfl
  refine ⟨d', m', outcomes, hdirectory, hmemory, hmirrors, fun name hname => ⟨?_, ?_⟩,
    fun c hc => ?_⟩
  · exact DirectoryStorage.Mirrors.rawText_of_look (hmirrors.look_state hname)
  · exact DirectoryStorage.Mirrors.rawText_of_look (hmirrors.look_log hname)
  · have hgone : m'.files.get? (besideName c.filename) = none :=
      hkept _ fun c' hc' => hapart c hc c' hc'
    rw [FileTree.isPresent, hmirrors.look_state (plainName_besideName (hplain c hc)), hgone]
    rfl

/-- A home directory that is empty, in a tree that has no other. -/
def emptyHome : DirectoryStorage where
  tree := { nodes := [(["home"], .directory)] }
  home := .ofText "/home"

theorem emptyHome_empty : emptyHome.Empty ["home"] := by
  refine ⟨by rfl, by rfl, fun rest hrest => ?_⟩
  cases rest with
  | nil => exact absurd rfl hrest
  | cons part rest => simp [emptyHome, FileTree.node?]

theorem emptyHome_closed : emptyHome.tree.Closed :=
  FileTree.closed_of_nodes (by decide)

/-- Calls on two state files and a log; one file is not there, and one holds a value of the wrong
type. -/
def callsOnTwoFiles : List Storage.Call :=
  [.read Check.boolean "a.json" false, .write "a.json" (.bool true),
    .append "a.log" "one", .write "b.json" .null, .read Check.boolean "a.json" false,
    .read Check.boolean "b.json" false, .append "a.log" "two"]

theorem callsOnTwoFiles_plain : ∀ c ∈ callsOnTwoFiles, PlainName c.filename := by
  have hnames : ∀ name ∈ callsOnTwoFiles.map (·.filename), PlainName name := by decide +kernel
  exact fun c hc => hnames _ (List.mem_map_of_mem hc)

theorem callsOnTwoFiles_apart :
    ∀ c ∈ callsOnTwoFiles, ∀ c' ∈ callsOnTwoFiles, c'.filename ≠ besideName c.filename := by
  have hnames : ∀ name ∈ callsOnTwoFiles.map (·.filename),
      besideName name ∉ callsOnTwoFiles.map (·.filename) := by decide +kernel
  exact fun c hc c' hc' heq =>
    hnames _ (List.mem_map_of_mem hc) (heq ▸ List.mem_map_of_mem hc')

theorem callsOnTwoFiles_agree :
    emptyHome.Empty ["home"] ∧ (∀ c ∈ callsOnTwoFiles, PlainName c.filename) ∧
    (∀ c ∈ callsOnTwoFiles, ∀ c' ∈ callsOnTwoFiles, c'.filename ≠ besideName c.filename) ∧
    ∃ d' m' outcomes,
      (Storage.directory emptyHome).calls callsOnTwoFiles = (.directory d', outcomes) ∧
      (Storage.memory {}).calls callsOnTwoFiles = (.memory m', outcomes) ∧
      d'.Mirrors ["home"] m' ∧
      (∀ name, PlainName name →
        d'.rawText (d'.statePath name) = .ok (m'.files.get? name) ∧
        d'.rawText (d'.logPath name) = .ok ((m'.logs.get? name).map logText)) ∧
      ∀ c ∈ callsOnTwoFiles,
        d'.tree.isPresent (d'.statePath (besideName c.filename)) = false :=
  ⟨emptyHome_empty, callsOnTwoFiles_plain, callsOnTwoFiles_apart,
    calls_agree emptyHome_empty callsOnTwoFiles_plain callsOnTwoFiles_apart⟩

end ChangeGate
