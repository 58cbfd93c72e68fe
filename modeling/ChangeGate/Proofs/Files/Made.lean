import ChangeGate.Proofs.Files.Below
/-!
# Directories made

`makeDirectories` puts directories where there was nothing, at places to which the path asked for
leads or which are on the way there, and does nothing else, even if it fails
(`makeDirectories_made`). In a closed tree there was nothing below such a place either. So another
path leads to what it led to before, unless it leads to one of the new directories (`Made.look`).
-/

namespace ChangeGate

namespace FilePath

/-! ## Paths without dots -/

/-- **Parts without dots,** but for leading ones that lead up. -/
structure Resolved (parts : List String) : Prop where
  dot : "." ∉ parts
  dots : parts.Pairwise fun earlier later => later = ".." → earlier = ".."

variable {parts : List String} {part : String}

theorem Resolved.tail (h : Resolved (part :: parts)) : Resolved parts :=
  ⟨fun hmem => h.dot (List.mem_cons_of_mem part hmem), h.dots.of_cons⟩

theorem Resolved.ne_dot (h : Resolved (part :: parts)) : part ≠ "." :=
  fun heq => h.dot (heq ▸ List.mem_cons_self)

/-- Behind a name there are only names. -/
theorem Resolved.names (h : Resolved (part :: parts)) (hpart : part ≠ "..") :
    ∀ name ∈ parts, name ≠ "." ∧ name ≠ ".." :=
  fun _ hname => ⟨fun heq => h.dot (heq ▸ List.mem_cons_of_mem part hname),
    fun heq => hpart (List.rel_of_pairwise_cons h.dots hname heq)⟩

theorem Resolved.concat (h : Resolved parts) (hdot : part ≠ ".")
    (hdots : part = ".." → ∀ earlier ∈ parts, earlier = "..") : Resolved (parts ++ [part]) where
  dot hmem := (List.mem_append.1 hmem).elim h.dot fun hlast =>
    hdot (List.mem_singleton.1 hlast).symm
  dots := by
    refine List.pairwise_append.2 ⟨h.dots, List.pairwise_singleton _ _, ?_⟩
    intro earlier hearlier last hlast
    rw [List.mem_singleton.1 hlast]
    exact fun heq => hdots heq earlier hearlier

/-- **Resolving the dots leaves none.** -/
theorem resolved_resolve {absolute : Bool} {done parts : List String}
    (h : Resolved done.reverse) : Resolved (resolve absolute done parts) := by
  fun_induction resolve absolute done parts with
  | case1 done => exact h
  | case2 done rest ih => exact ih h
  | case3 rest _ ih =>
    refine ih ?_
    cases absolute with
    | true => exact h
    | false => exact ⟨by decide, List.pairwise_singleton _ _⟩
  | case4 rest before _ ih =>
    refine ih ?_
    rw [List.reverse_cons]
    refine h.concat (by decide) fun _ earlier hearlier => ?_
    -- what stands before a part that leads up leads up itself
    rw [List.reverse_cons] at h hearlier
    rcases List.mem_append.1 hearlier with hbefore | hlast
    · exact (List.pairwise_append.1 h.dots).2.2 earlier hbefore ".." List.mem_cons_self rfl
    · exact List.mem_singleton.1 hlast
  | case5 rest last before _ _ ih =>
    rw [List.reverse_cons] at h
    exact ih ⟨fun hmem => h.dot (List.mem_append_left _ hmem), (List.pairwise_append.1 h.dots).1⟩
  | case6 done part rest hdot hdots ih =>
    refine ih ?_
    rw [List.reverse_cons]
    exact h.concat hdot fun heq => absurd heq hdots

theorem resolved_join (p : FilePath) (text : String) : Resolved (p.join text).parts :=
  resolved_resolve ⟨List.not_mem_nil, .nil⟩

/-- A path on the way starts where the path does, and has a part if the path has one. -/
theorem of_mem_ancestors {p q : FilePath} (hp : p.parts ≠ []) (h : q ∈ p.ancestors) :
    q.absolute = p.absolute ∧ q.parts ≠ [] := by
  rw [ancestors, List.mem_append] at h
  rcases h with h | h
  · split at h
    · rw [List.mem_singleton.1 h]
      exact ⟨rfl, hp⟩
    · cases h
  · obtain ⟨n, -, rfl⟩ := List.mem_map.1 h
    exact ⟨rfl, by simpa using hp⟩

end FilePath

namespace FileTree

variable {t t' made : FileTree} {p q : FilePath} {start place : Location} {parts : List String}
  {disk : Disk}

/-! ## What is made -/

/-- Where a path starts. -/
def origin (t : FileTree) (p : FilePath) : Location :=
  if p.absolute then [] else t.workingDirectory

/-- **Directories made on the way to a path,** and nothing else: each is at a place where there was
nothing, and none at the place where the path starts. A closed tree stays closed. -/
structure Made (p : FilePath) (t t' : FileTree) : Prop where
  closed : t.Closed → t'.Closed
  workingDirectory : t'.workingDirectory = t.workingDirectory
  origin : t'.node? (t.origin p) = t.node? (t.origin p)
  node : ∀ place, t'.node? place = t.node? place ∨
    t.node? place = none ∧ t'.node? place = some .directory ∧
      ∃ q ∈ p.ancestors, t'.locate q = .ok place

theorem Made.refl (p : FilePath) (t : FileTree) : Made p t t :=
  ⟨id, rfl, rfl, fun _ => Or.inl rfl⟩

theorem Made.keepsDirectories (h : Made p t made) : KeepsDirectories t made := by
  refine ⟨h.workingDirectory, fun place hplace => ?_⟩
  rcases h.node place with hsame | ⟨hnone, -⟩
  · rw [hsame, hplace]
  · rw [hplace] at hnone
    cases hnone

theorem makeDirectory_ok (h : t.makeDirectory p disk = .ok t') :
    ∃ place, t.locate p = .ok place ∧ t.node? place = none ∧ t' = t.put place .directory := by
  replace h := unlessRefused_ok h
  split at h
  · cases h
  · rename_i place hlocate
    split at h
    · cases h
    · rename_i hnone
      cases h
      exact ⟨place, hlocate, by simpa using hnone, rfl⟩

/-- **One directory more.** -/
theorem Made.makeDirectory (h : Made p t made) (hp : p.parts ≠ []) (hq : q ∈ p.ancestors)
    (hmake : made.makeDirectory q disk = .ok t') : Made p t t' := by
  obtain ⟨place, hlocate, hnone, rfl⟩ := makeDirectory_ok hmake
  obtain ⟨habsolute, hparts⟩ := FilePath.of_mem_ancestors hp hq
  have hfree : made.node? place ≠ some .directory := by rw [hnone]; simp
  have hkeeps := keepsDirectories_put hfree .directory
  have hput := node?_put (t := made) (ne_nil_of_node? hfree) .directory
  have hdirectory := directory_of_follow hparts hlocate
  have hstart : made.node? (t.origin p) = some .directory := by
    rwa [habsolute, h.workingDirectory] at hdirectory
  refine ⟨fun hclosed => ?_, h.workingDirectory, ?_, fun other => ?_⟩
  · have hmade := h.closed hclosed
    exact hmade.put (hmade.above hdirectory hlocate) hfree .directory
  · rw [hput, if_neg, h.origin]
    rintro rfl
    exact hfree hstart
  · rw [hput]
    split
    · rename_i heq
      subst heq
      refine Or.inr ⟨?_, rfl, q, hq, hkeeps.locate hlocate⟩
      rcases h.node other with hsame | ⟨hbefore, -⟩
      · rw [← hsame, hnone]
      · exact hbefore
    · refine (h.node other).imp_right fun ⟨hbefore, hthere, q', hq', hlocate'⟩ => ?_
      exact ⟨hbefore, hthere, q', hq', hkeeps.locate hlocate'⟩

theorem Made.settle (h : Made p t made) (hp : p.parts ≠ []) (hq : q ∈ p.ancestors)
    (disk : Disk) (onTheWay : Bool) : Made p t (made.settle onTheWay q disk).1 := by
  unfold FileTree.settle
  split
  · rename_i hmake
    exact h.makeDirectory hp hq hmake
  · split <;> exact h
  · exact h

theorem Made.makeFirst (hp : p.parts ≠ []) {paths : List FilePath}
    (hpaths : ∀ q ∈ paths, q ∈ p.ancestors) (disk : Disk) (onTheWay : Bool) :
    Made p t (t.makeFirst disk onTheWay paths).1 := by
  induction paths generalizing onTheWay with
  | nil => exact .refl p t
  | cons q above ih =>
    have hq := hpaths q List.mem_cons_self
    have habove := ih (fun q' hq' => hpaths q' (List.mem_cons_of_mem q hq')) true
    rw [FileTree.makeFirst]
    split
    · split
      · rename_i hmade
        rw [hmade] at habove
        exact habove.settle hp hq disk onTheWay
      · rename_i hmade
        rw [hmade] at habove
        exact habove
    · exact (Made.refl p t).settle hp hq disk onTheWay

/-- **What making a directory with all above it does,** whether or not it succeeds. -/
theorem makeDirectories_made (hp : p.parts ≠ []) (t : FileTree) (disk : Disk) :
    Made p t (t.makeDirectories p disk).1 :=
  Made.makeFirst hp (fun _ hq => hq) disk false

/-! ## What is there in the end -/

theorem settle_ok {onTheWay : Bool} (h : t.settle onTheWay p disk = (made, .ok ())) :
    made.look p = .ok .directory := by
  unfold settle at h
  split at h
  · rename_i hmake
    cases h
    obtain ⟨place, hlocate, hnone, rfl⟩ := makeDirectory_ok hmake
    have hfree : t.node? place ≠ some .directory := by rw [hnone]; simp
    rw [look, (keepsDirectories_put hfree .directory).locate hlocate]
    simp [node?_put (ne_nil_of_node? hfree)]
  · split at h <;> cases h
    assumption
  · cases h

/-- **What was asked for is there.** -/
theorem look_makeDirectories {name : String} (hname : PlainName name)
    (h : t.makeDirectories (p.join name) disk = (made, .ok ())) :
    made.look (p.join name) = .ok .directory := by
  obtain ⟨above, habove⟩ := FilePath.ancestors_join (p := p) hname
  rw [makeDirectories, habove, makeFirst] at h
  split at h
  · split at h
    · exact settle_ok h
    · cases h
  · exact settle_ok h

theorem look_directory (h : t.look p = .ok .directory) :
    ∃ place, t.locate p = .ok place ∧ t.node? place = some .directory := by
  unfold look at h
  split at h
  · cases h
  · rename_i place hlocate
    split at h
    · cases h
    · rename_i hnode
      exact ⟨place, hlocate, hnode⟩
    · split at h <;> cases h

/-- **A directory that is there is not made again.** -/
theorem makeDirectories_of_look {name : String} (hname : PlainName name)
    (h : t.look (p.join name) = .ok .directory) :
    t.makeDirectories (p.join name) = (t, .ok ()) := by
  obtain ⟨place, hlocate, hnode⟩ := look_directory h
  obtain ⟨above, habove⟩ := FilePath.ancestors_join (p := p) hname
  have hthere : t.makeDirectory (p.join name) = .error .alreadyThere := by
    rw [makeDirectory, hlocate]
    simp [hnode]
  rw [makeDirectories, habove, makeFirst, hthere]
  dsimp only
  rw [settle, hthere]
  dsimp only
  rw [h]

/-! ## Other paths -/

/-- Names lead down through directories, and stop where there is nothing. -/
theorem follow_names (hbelow : ∀ rest, t.node? (start ++ rest) = none ∨
      t.node? (start ++ rest) = some .directory)
    (hnames : ∀ name ∈ parts, name ≠ "." ∧ name ≠ "..") :
    t.follow start parts = .error .notFound ∨ t.follow start parts = .ok (start ++ parts) := by
  induction parts generalizing start with
  | nil => exact Or.inr (by rw [follow, List.append_nil])
  | cons name rest ih =>
    obtain ⟨hdot, hdots⟩ := hnames name List.mem_cons_self
    rcases hbelow [] with hnone | hthere
    · rw [List.append_nil] at hnone
      rw [follow, enter, hnone]
      exact Or.inl rfl
    · rw [List.append_nil] at hthere
      rw [follow, enter_of_directory hthere hdot hdots]
      have hrest : t.follow (start ++ [name]) rest = .error .notFound ∨
          t.follow (start ++ [name]) rest = .ok (start ++ [name] ++ rest) :=
        ih (fun rest' => by rw [List.append_assoc]; exact hbelow (name :: rest'))
          fun name' hname' => hnames name' (List.mem_cons_of_mem name hname')
      rwa [List.append_assoc] at hrest

/-- A path leads on in the same way from what is no directory: not at all. -/
theorem follow_of_not_directory (hsame : made.node? start = t.node? start)
    (hnot : t.node? start ≠ some .directory) (parts : List String) :
    made.follow start parts = t.follow start parts := by
  cases parts with
  | nil => rfl
  | cons part rest =>
    rw [follow, follow, enter, enter, hsame]
    cases hnode : t.node? start with
    | none => rfl
    | some node =>
      cases node with
      | directory => exact absurd hnode hnot
      | file bytes => rfl

/-- **Where a path leads** when directories have been made: to the same place, or to one of them or
below it, where it led to nothing before. By induction on the parts, which lead from a directory
that was there to one until they leave what was there. -/
theorem Made.follow (h : Made p t made) (hclosed : t.Closed) (hparts : FilePath.Resolved parts)
    (hstart : t.node? start = some .directory) :
    made.follow start parts = t.follow start parts ∨
      t.follow start parts = .error .notFound ∧
        ∃ place, made.follow start parts = .ok place ∧ t.node? place = none := by
  induction parts generalizing start with
  | nil => exact Or.inl rfl
  | cons part rest ih =>
    have hdot := hparts.ne_dot
    have hmade := h.keepsDirectories.directory start hstart
    by_cases hdots : part = ".."
    · have henter : made.enter start part = .ok start.dropLast ∧
          t.enter start part = .ok start.dropLast := by
        rw [enter, enter, hmade, hstart]
        simp [hdots]
      rw [FileTree.follow, FileTree.follow, henter.1, henter.2]
      exact ih hparts.tail (hclosed.dropLast hstart)
    · rw [FileTree.follow, FileTree.follow, enter_of_directory hmade hdot hdots,
        enter_of_directory hstart hdot hdots]
      dsimp only
      by_cases hnext : t.node? (start ++ [part]) = some .directory
      · exact ih hparts.tail hnext
      rcases h.node (start ++ [part]) with hsame | ⟨hnone, hthere, -⟩
      · exact Or.inl (follow_of_not_directory hsame hnext rest)
      cases rest with
      | nil => exact Or.inl rfl
      | cons part' rest =>
        have hnothing : ∀ below, t.node? (start ++ [part] ++ below) = none := by
          intro below
          cases below with
          | nil => rw [List.append_nil, hnone]
          | cons first below => exact hclosed.below hnext (List.cons_ne_nil _ _)
        have hbefore : t.follow (start ++ [part]) (part' :: rest) = .error .notFound := by
          rw [FileTree.follow, enter, hnone]
        have hmadeBelow : ∀ below, made.node? (start ++ [part] ++ below) = none ∨
            made.node? (start ++ [part] ++ below) = some .directory := fun below =>
          (h.node _).imp (fun hsame => hsame.trans (hnothing below)) fun hnew => hnew.2.1
        rcases follow_names hmadeBelow (hparts.names hdots) with hstop | hlead
        · exact Or.inl (hstop.trans hbefore.symm)
        · exact Or.inr ⟨hbefore, _, hlead, hnothing _⟩

/-- **What a path names** when directories have been made: what it named before, or one of them
where it named nothing. -/
theorem Made.look (h : Made p t made) (hclosed : t.Closed) (hq : FilePath.Resolved q.parts)
    (habsolute : q.absolute = p.absolute) :
    made.look q = t.look q ∨ t.look q = .error .notFound ∧ ∃ place, made.locate q = .ok place ∧
      t.node? place = none ∧ made.node? place = some .directory := by
  have hplace : made.locate q = t.locate q ∨ t.locate q = .error .notFound ∧
      ∃ place, made.locate q = .ok place ∧ t.node? place = none := by
    have hsame := h.origin
    rw [FileTree.origin, ← habsolute] at hsame
    rw [locate, locate, h.workingDirectory]
    by_cases hstart : t.node? (if q.absolute then [] else t.workingDirectory) = some .directory
    · exact h.follow hclosed hq hstart
    · exact Or.inl (follow_of_not_directory hsame hstart q.parts)
  rcases hplace with hsame | ⟨hbefore, place, hlocate, hnone⟩
  · rw [FileTree.look, FileTree.look, hsame]
    cases hlocate : t.locate q with
    | error e => exact Or.inl rfl
    | ok place =>
      rcases h.node place with hnode | ⟨hnone, hthere, -⟩
      · exact Or.inl (by simp only [hnode])
      · exact Or.inr ⟨by simp only [hnone], place, rfl, hnone, hthere⟩
  · rw [FileTree.look, FileTree.look, hbefore, hlocate]
    rcases h.node place with hnode | ⟨-, hthere, -⟩
    · exact Or.inl (by simp only [hnode, hnone])
    · exact Or.inr ⟨rfl, place, rfl, hnone, hthere⟩

end FileTree

end ChangeGate
