import ChangeGate.Proofs.Files
/-!
# Names below a directory

To resolve the dots of a path does not change where it leads (`follow_resolve`), whatever dots it
has: a path that can be followed only ever leaves directories that are there. So a plain name that
is joined to a path is an entry of the directory to which the path leads (`locate_join`).

In a tree that is `Closed` there is nothing below what is no directory.

A directory that is made there is there afterwards (`makeDirectories_join`), and a file that is
written beside another one takes its name and leaves nothing behind (`replace_entry`).
-/

namespace ChangeGate

/-- **A plain name:** one part of a path that is no dots. -/
structure PlainName (name : String) : Prop where
  nonempty : name ≠ ""
  slash : '/' ∉ name.toList
  nul : '\x00' ∉ name.toList
  dot : name ≠ "."
  dots : name ≠ ".."

instance (name : String) : Decidable (PlainName name) :=
  decidable_of_iff
    (name ≠ "" ∧ '/' ∉ name.toList ∧ '\x00' ∉ name.toList ∧ name ≠ "." ∧ name ≠ "..")
    ⟨fun h => ⟨h.1, h.2.1, h.2.2.1, h.2.2.2.1, h.2.2.2.2⟩,
      fun h => ⟨h.nonempty, h.slash, h.nul, h.dot, h.dots⟩⟩

/-- A plain name with a plain ending is one. -/
theorem PlainName.append {name suffix : String} (h : PlainName name) (h' : PlainName suffix)
    (hlong : 3 ≤ (name ++ suffix).length) : PlainName (name ++ suffix) where
  nonempty heq := by rw [heq] at hlong; exact absurd hlong (by decide)
  slash := by rw [String.toList_append, List.mem_append]; exact not_or.2 ⟨h.slash, h'.slash⟩
  nul := by rw [String.toList_append, List.mem_append]; exact not_or.2 ⟨h.nul, h'.nul⟩
  dot heq := by rw [heq] at hlong; exact absurd hlong (by decide)
  dots heq := by rw [heq] at hlong; exact absurd hlong (by decide)

namespace FilePath

variable {p : FilePath} {name : String}

/-! ## Joining -/

/-- The path of a plain name is the name. -/
theorem ofText_of_plain (h : PlainName name) : ofText name = ⟨false, [name], false⟩ := by
  have hsplit : split name.toList = [name] := by
    have hne : name.toList ≠ [] := fun heq => h.nonempty (String.toList_eq_nil_iff.1 heq)
    rw [split, List.splitOn_eq_singleton h.slash, List.filter_cons_of_pos (by simpa using hne)]
    simp
  have hhead : name.toList.head? ≠ some '/' := fun heq => h.slash (List.mem_of_head? heq)
  have hlast : name.toList.getLast? ≠ some '/' := fun heq =>
    h.slash (List.mem_of_getLast? heq)
  simp [ofText, hsplit, hhead, hlast]

/-- A plain name is not touched by resolving the dots before it. -/
theorem resolve_concat (h : PlainName name) (absolute : Bool) (done parts : List String) :
    resolve absolute done (parts ++ [name]) = resolve absolute done parts ++ [name] := by
  fun_induction resolve absolute done parts with
  | case1 done => simp [resolve, h.dot, h.dots]
  | case2 done rest ih => simpa [resolve] using ih
  | case3 rest _ ih => simpa [resolve] using ih
  | case4 rest before _ ih => simpa [resolve] using ih
  | case5 rest last before hlast _ ih => simpa [resolve, hlast] using ih
  | case6 done part rest hdot hdots ih => simpa [resolve, hdot, hdots] using ih

theorem join_of_plain (h : PlainName name) :
    p.join name = ⟨p.absolute, resolve p.absolute [] p.parts ++ [name], false⟩ := by
  rw [join, ofText_of_plain h]
  simp [append, normalize, resolve_concat h]

/-- An ending goes to the name that was joined. -/
theorem withSuffix_join {suffix : String} (h : PlainName name)
    (h' : PlainName (name ++ suffix)) :
    (p.join name).withSuffix suffix = p.join (name ++ suffix) := by
  rw [join_of_plain h, join_of_plain h']
  simp [withSuffix]

theorem trailing_join (h : PlainName name) : (p.join name).trailing = false := by
  rw [join_of_plain h]

/-- A path that ends in a plain name can be given to a file. -/
theorem isNamed_join (h : PlainName name) : (p.join name).isNamed = true := by
  rw [join_of_plain h]
  simp [isNamed, h.dot, h.dots]

theorem parts_join (h : PlainName name) : (p.join name).parts ≠ [] := by
  rw [join_of_plain h]
  exact List.append_ne_nil_of_right_ne_nil _ (List.cons_ne_nil name [])

/-- The first on the way up is the path itself. -/
theorem ancestors_join (h : PlainName name) :
    ∃ above, (p.join name).ancestors = p.join name :: above := by
  rw [join_of_plain h, ancestors]
  simp [List.range_succ, List.take_of_length_le]

end FilePath

namespace FileTree

variable {t : FileTree} {p : FilePath} {start mid place base : Location} {name : String}

/-! ## Closed trees -/

/-- **A tree in which everything is in a directory.** -/
def Closed (t : FileTree) : Prop :=
  ∀ place part, t.node? (place ++ [part]) ≠ none → t.node? place = some .directory

theorem closed_of_nodes (h : ∀ e ∈ t.nodes, t.node? e.1.dropLast = some .directory) :
    t.Closed := by
  intro place part hthere
  rw [node?, if_neg (by simp)] at hthere
  obtain ⟨node, hlookup⟩ := Option.ne_none_iff_exists'.1 hthere
  obtain ⟨before, after, heq, -⟩ := List.lookup_eq_some_iff.1 hlookup
  have hholds := h (place ++ [part], node) (by rw [heq]; simp)
  rwa [List.dropLast_concat] at hholds

/-- What holds a directory is one. -/
theorem Closed.dropLast (h : t.Closed) (hplace : t.node? place = some .directory) :
    t.node? place.dropLast = some .directory := by
  rcases List.eq_nil_or_concat place with rfl | ⟨above, part, rfl⟩
  · rfl
  · rw [List.concat_eq_append] at hplace ⊢
    rw [List.dropLast_concat]
    exact h above part (by rw [hplace]; simp)

/-- **There is nothing below what is no directory.** -/
theorem Closed.below (h : t.Closed) {rest : Location} (hplace : t.node? place ≠ some .directory)
    (hrest : rest ≠ []) : t.node? (place ++ rest) = none := by
  induction rest generalizing place with
  | nil => exact absurd rfl hrest
  | cons part rest ih =>
    have hnone : t.node? (place ++ [part]) = none :=
      Decidable.byContradiction fun hsome => hplace (h place part hsome)
    cases rest with
    | nil => exact hnone
    | cons part' rest =>
      have hrest' : t.node? (place ++ [part] ++ part' :: rest) = none :=
        ih (by rw [hnone]; simp) (List.cons_ne_nil _ _)
      rwa [List.append_assoc] at hrest'

/-- **What is put into a directory** leaves the tree closed. -/
theorem Closed.put (h : t.Closed) (habove : t.node? place.dropLast = some .directory)
    (hfree : t.node? place ≠ some .directory) (node : Node) : (t.put place node).Closed := by
  intro other part hthere
  refine (keepsDirectories_put hfree node).directory other ?_
  rw [node?_put (ne_nil_of_node? hfree)] at hthere
  split at hthere
  · rename_i heq
    rwa [← heq, List.dropLast_concat] at habove
  · exact h other part hthere

/-! ## Following -/

theorem follow_cons_ok {part : String} {rest : List String} :
    t.follow start (part :: rest) = .ok place ↔
      ∃ next, t.enter start part = .ok next ∧ t.follow next rest = .ok place := by
  rw [follow]
  cases t.enter start part <;> simp

/-- The last part leads on from where the others lead. -/
theorem follow_concat (t : FileTree) (start : Location) (parts : List String) (part : String) :
    t.follow start (parts ++ [part]) =
      match t.follow start parts with
      | .error e => .error e
      | .ok mid => t.enter mid part := by
  induction parts generalizing start with
  | nil =>
    rw [List.nil_append, follow]
    dsimp only [follow]
    cases t.enter start part <;> rfl
  | cons first rest ih =>
    rw [List.cons_append, follow, follow]
    split
    · rfl
    · exact ih _

theorem follow_concat_ok {parts : List String} {part : String} :
    t.follow start (parts ++ [part]) = .ok place ↔
      ∃ mid, t.follow start parts = .ok mid ∧ t.enter mid part = .ok place := by
  rw [follow_concat]
  cases t.follow start parts <;> simp

/-- A name that is entered is entered below a directory. -/
theorem enter_of_directory (h : t.node? place = some .directory) (hdot : name ≠ ".")
    (hdots : name ≠ "..") : t.enter place name = .ok (place ++ [name]) := by
  rw [enter, h]
  simp [hdot, hdots]

/-- **Where a part leads:** it stays, goes up or goes down, always from a directory. -/
theorem enter_ok {part : String} (h : t.enter mid part = .ok place) :
    t.node? mid = some .directory ∧
      place = if part = "." then mid else if part = ".." then mid.dropLast else mid ++ [part] := by
  unfold enter at h
  split at h
  · cases h
  · cases h
  · rename_i hdirectory
    refine ⟨hdirectory, ?_⟩
    split at h
    · rename_i hdot
      rw [if_pos hdot]
      exact (Except.ok.inj h).symm
    · rename_i hdot
      rw [if_neg hdot]
      split at h
      · rename_i hdots
        rw [if_pos hdots]
        exact (Except.ok.inj h).symm
      · rename_i hdots
        rw [if_neg hdots]
        exact (Except.ok.inj h).symm

/-- A path with a part can be followed only from a directory. -/
theorem directory_of_follow {parts : List String} (hparts : parts ≠ [])
    (h : t.follow start parts = .ok place) : t.node? start = some .directory := by
  cases parts with
  | nil => exact absurd rfl hparts
  | cons part rest =>
    obtain ⟨next, henter, -⟩ := follow_cons_ok.1 h
    exact (enter_ok henter).1

/-- **A path leads to what is in a directory,** be there something or not. -/
theorem Closed.above (h : t.Closed) {parts : List String} (hstart : t.node? start = some .directory)
    (hfollow : t.follow start parts = .ok place) : t.node? place.dropLast = some .directory := by
  rcases List.eq_nil_or_concat parts with rfl | ⟨before, part, rfl⟩
  · obtain rfl : start = place := Except.ok.inj hfollow
    exact h.dropLast hstart
  · rw [List.concat_eq_append] at hfollow
    obtain ⟨mid, -, henter⟩ := follow_concat_ok.1 hfollow
    obtain ⟨hmid, rfl⟩ := enter_ok henter
    split
    · exact h.dropLast hmid
    split
    · exact h.dropLast (h.dropLast hmid)
    · rwa [List.dropLast_concat]

/-- **Resolving the dots leads to the same place.** The parts in `done` lead to `mid`; by induction
on those that follow, which lead on from there. -/
theorem follow_resolve {absolute : Bool} {done parts : List String}
    (hstart : absolute = true → start = []) (hdone : "." ∉ done)
    (hmid : t.follow start done.reverse = .ok mid) (hplace : t.follow mid parts = .ok place) :
    t.follow start (FilePath.resolve absolute done parts) = .ok place := by
  fun_induction FilePath.resolve absolute done parts generalizing mid with
  | case1 done => rw [hmid, ← hplace, follow]
  | case2 done rest ih =>
    obtain ⟨next, henter, hrest⟩ := follow_cons_ok.1 hplace
    obtain ⟨-, rfl⟩ := enter_ok henter
    exact ih hdone hmid hrest
  | case3 rest _ ih =>
    obtain ⟨next, henter, hrest⟩ := follow_cons_ok.1 hplace
    obtain rfl : start = mid := Except.ok.inj hmid
    cases absolute with
    | false => exact ih (by decide) (follow_cons_ok.2 ⟨next, henter, rfl⟩) hrest
    | true =>
      -- above the root there is nothing but the root
      obtain rfl := hstart rfl
      obtain ⟨-, rfl⟩ := enter_ok henter
      exact ih List.not_mem_nil rfl hrest
  | case4 rest before _ ih =>
    obtain ⟨next, henter, hrest⟩ := follow_cons_ok.1 hplace
    have hup : "." ∉ ".." :: ".." :: before := List.not_mem_cons_of_ne_of_not_mem (by decide) hdone
    refine ih hup ?_ hrest
    rw [List.reverse_cons]
    exact follow_concat_ok.2 ⟨mid, hmid, henter⟩
  | case5 rest last before hlast _ ih =>
    obtain ⟨next, henter, hrest⟩ := follow_cons_ok.1 hplace
    -- what was entered last is left again
    rw [List.reverse_cons] at hmid
    obtain ⟨above, habove, hentered⟩ := follow_concat_ok.1 hmid
    have hdot : last ≠ "." := fun heq => hdone (heq ▸ List.mem_cons_self)
    obtain ⟨-, rfl⟩ := enter_ok hentered
    obtain ⟨-, rfl⟩ := enter_ok henter
    refine ih (fun hmem => hdone (List.mem_cons_of_mem _ hmem)) habove ?_
    simpa [hdot, hlast] using hrest
  | case6 done part rest hdot hdots ih =>
    obtain ⟨next, henter, hrest⟩ := follow_cons_ok.1 hplace
    have hpush : "." ∉ part :: done :=
      List.not_mem_cons_of_ne_of_not_mem (fun heq => hdot heq.symm) hdone
    refine ih hpush ?_ hrest
    rw [List.reverse_cons]
    exact follow_concat_ok.2 ⟨mid, hmid, henter⟩

/-- **A plain name that is joined to a path** is entered where the path leads. -/
theorem locate_join (h : PlainName name) (hlocate : t.locate p = .ok base) :
    t.locate (p.join name) = t.enter base name := by
  have hstart : p.absolute = true → (if p.absolute then [] else t.workingDirectory) = [] :=
    fun habsolute => if_pos habsolute
  have hresolved := follow_resolve hstart List.not_mem_nil rfl hlocate
  rw [FilePath.join_of_plain h, locate]
  dsimp only
  rw [follow_concat, hresolved]

theorem locate_entry (h : PlainName name) (hlocate : t.locate p = .ok base)
    (hbase : t.node? base = some .directory) : t.locate (p.join name) = .ok (base ++ [name]) := by
  rw [locate_join h hlocate, enter_of_directory hbase h.dot h.dots]

/-! ## Directories -/

/-- **To make a directory in one that is there** puts it in its place, unless it is there too. -/
theorem makeDirectories_join (h : PlainName name) (hlocate : t.locate p = .ok base)
    (hbase : t.node? base = some .directory)
    (hfree : t.node? (base ++ [name]) = none ∨ t.node? (base ++ [name]) = some .directory) :
    ∃ made, t.makeDirectories (p.join name) = (made, .ok ()) ∧ KeepsDirectories t made ∧
      ∀ place, made.node? place =
        if place = base ++ [name] then some .directory else t.node? place := by
  have hplace := locate_entry h hlocate hbase
  obtain ⟨above, habove⟩ := FilePath.ancestors_join (p := p) h
  rcases hfree with hnone | hthere
  · have hmade : t.makeDirectory (p.join name) = .ok (t.put (base ++ [name]) .directory) := by
      rw [makeDirectory, hplace]
      simp [hnone]
    refine ⟨t.put (base ++ [name]) .directory, ?_, keepsDirectories_put (by simp [hnone]) _,
      node?_put (by simp) _⟩
    rw [makeDirectories, habove, makeFirst, hmade]
    dsimp only
    rw [settle, hmade]
  · have hmade : t.makeDirectory (p.join name) = .error .alreadyThere := by
      rw [makeDirectory, hplace]
      simp [hthere]
    have hlook : t.look (p.join name) = .ok .directory := by
      rw [look, hplace]
      simp [hthere]
    refine ⟨t, ?_, ⟨rfl, fun _ => id⟩, fun place => ?_⟩
    · rw [makeDirectories, habove, makeFirst, hmade]
      dsimp only
      rw [settle, hmade]
      dsimp only
      rw [hlook]
    · split
      · rename_i heq
        rw [heq, hthere]
      · rfl

/-! ## Files in a directory -/

section Entries

variable (h : PlainName name) (hlocate : t.locate p = .ok base)
  (hbase : t.node? base = some .directory)

include h hlocate hbase

theorem locateFile_entry (hfree : t.node? (base ++ [name]) ≠ some .directory) :
    t.locateFile (p.join name) = .ok (base ++ [name]) := by
  rw [locateFile, locate_entry h hlocate hbase]
  simp [FilePath.trailing_join h, hfree]

theorem write_entry (hfree : t.node? (base ++ [name]) ≠ some .directory) (bytes : List UInt8) :
    t.write (p.join name) bytes = (t.put (base ++ [name]) (.file bytes), .ok ()) := by
  simp only [write, locateFile_entry h hlocate hbase hfree, Disk.opening_sound, Disk.filling_sound,
    unlessRefused_none]

theorem append_entry (hfree : t.node? (base ++ [name]) ≠ some .directory) (bytes : List UInt8) :
    t.append (p.join name) bytes =
      .ok (t.put (base ++ [name]) (.file (t.bytesAt (base ++ [name]) ++ bytes))) := by
  rw [append, locateFile_entry h hlocate hbase hfree]

/-- An entry is what is there. -/
theorem look_entry : t.look (p.join name) =
    match t.node? (base ++ [name]) with
    | none => .error .notFound
    | some node => .ok node := by
  rw [look, locate_entry h hlocate hbase]
  dsimp only
  cases hnode : t.node? (base ++ [name]) with
  | none => rfl
  | some node => cases node <;> simp [FilePath.trailing_join h]

/-- **A file takes the place of another entry** of its directory. -/
theorem rename_entry {target : String} {bytes : List UInt8} (htarget : PlainName target)
    (hne : target ≠ name) (hfile : t.node? (base ++ [name]) = some (.file bytes))
    (hfree : t.node? (base ++ [target]) ≠ some .directory) :
    ∃ renamed, t.rename (p.join name) (p.join target) = .ok renamed ∧
      KeepsDirectories t renamed ∧ ∀ place, renamed.node? place =
        if place = base ++ [target] then some (.file bytes)
        else if place = base ++ [name] then none else t.node? place := by
  have hread : t.read (p.join name) = .ok bytes := by
    rw [read, look_entry h hlocate hbase, hfile]
    rfl
  have hremoved : KeepsDirectories t (t.remove (base ++ [name])) :=
    keepsDirectories_remove (by rw [hfile]; simp)
  have hfree' : (t.remove (base ++ [name])).node? (base ++ [target]) ≠ some .directory := by
    rw [node?_remove (by simp), if_neg (by simpa using hne)]
    exact hfree
  refine ⟨_, ?_, hremoved.trans (keepsDirectories_put hfree' (.file bytes)), fun place => ?_⟩
  · rw [rename, hread, locate_entry h hlocate hbase, locate_entry htarget hlocate hbase]
    simp [FilePath.isNamed_join h, FilePath.isNamed_join htarget, FilePath.trailing_join htarget,
      hfree]
  · rw [node?_put (by simp), node?_remove (by simp)]

/-- **A file is made or replaced** by one that is written beside it and takes its name. -/
theorem replace_entry {beside : String} (hbeside : PlainName beside) (hne : beside ≠ name)
    (hfree : ∀ entry, t.node? (base ++ [entry]) ≠ some .directory) (bytes : List UInt8) :
    ∃ written renamed, t.write (p.join beside) bytes = (written, .ok ()) ∧
      written.rename (p.join beside) (p.join name) = .ok renamed ∧ KeepsDirectories t renamed ∧
      ∀ place, renamed.node? place =
        if place = base ++ [name] then some (.file bytes)
        else if place = base ++ [beside] then none else t.node? place := by
  have hwrite := write_entry hbeside hlocate hbase (hfree beside) bytes
  have hkeeps := keepsDirectories_put (hfree beside) (.file bytes)
  have hnode : ∀ place, (t.put (base ++ [beside]) (.file bytes)).node? place =
      if place = base ++ [beside] then some (.file bytes) else t.node? place :=
    node?_put (by simp) _
  have hfile := (hnode (base ++ [beside])).trans (if_pos rfl)
  have htarget : (t.put (base ++ [beside]) (.file bytes)).node? (base ++ [name]) ≠
      some .directory := by
    rw [hnode, if_neg (by simpa using hne.symm)]
    exact hfree name
  obtain ⟨renamed, hrename, hkeeps', hnode'⟩ := rename_entry hbeside (hkeeps.locate hlocate)
    (hkeeps.directory base hbase) h hne.symm hfile htarget
  refine ⟨_, renamed, hwrite, hrename, hkeeps.trans hkeeps', fun place => ?_⟩
  rw [hnode', hnode]
  split
  · rfl
  · split <;> rfl

end Entries

end FileTree

end ChangeGate
