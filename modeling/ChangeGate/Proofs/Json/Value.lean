import ChangeGate.Proofs.Json.Token
import ChangeGate.Proofs.Lists
/-!
# Values read back

`parse?_compact` and `parse?_indented`: a value is read back from its text in either style. A
value can be read back if it is `Readable`: its numbers are legible, and the members of its
objects stand where an object writes them. The style matters only in so far as it puts in nothing
but blanks.

Readers take fuel. `need` is what a value needs, and its text is long enough to give it.
-/

namespace ChangeGate.Json

/-! ## Objects -/

/-- **Names in the order in which an object writes them,** each of them once. -/
def Canonical (names : List String) : Prop :=
  names.Pairwise fun earlier later => earlier ≠ later ∧ standsBefore later earlier = false

theorem setMember_append {name : String} {value : Json} {members : List (String × Json)}
    (h : ∀ m ∈ members, m.1 ≠ name ∧ standsBefore name m.1 = false) :
    setMember name value members = members ++ [(name, value)] := by
  induction members with
  | nil => rfl
  | cons m members ih =>
    obtain ⟨hne, hbefore⟩ := h m List.mem_cons_self
    have hrest := ih fun m' hm' => h m' (List.mem_cons_of_mem _ hm')
    simp [setMember, hne, hbefore, hrest]

/-- **An object keeps members that stand where it writes them.** -/
theorem object_of_canonical {members : List (String × Json)}
    (h : Canonical (members.map Prod.fst)) : object members = .obj members := by
  have hitem : ∀ earlier m later, earlier ++ m :: later = [] ++ members →
      setMember m.1 m.2 earlier = earlier ++ [m] := by
    intro earlier m later hwhole
    rw [List.nil_append] at hwhole
    rw [← hwhole, List.map_append, Canonical, List.pairwise_append] at h
    exact setMember_append fun m' hm' => h.2.2 m'.1 (List.mem_map_of_mem hm') m.1 (by simp)
  rw [object, foldl_append hitem, List.nil_append]

/-- **A value that is read back from its text.** -/
inductive Readable : Json → Prop
  | null : Readable .null
  | bool (b : Bool) : Readable (.bool b)
  | num {x : Number} : x.Legible → Readable (.num x)
  | str (s : String) : Readable (.str s)
  | arr {items : List Json} : (∀ v ∈ items, Readable v) → Readable (.arr items)
  | obj {members : List (String × Json)} : Canonical (members.map Prod.fst) →
      (∀ m ∈ members, Readable m.2) → Readable (.obj members)

/-! ## Blanks -/

def Blank (cs : List Char) : Prop :=
  ∀ c ∈ cs, isBlank c = true

/-- **A style of blanks only.** -/
structure Style.Blank (style : Style) : Prop where
  lineBreak : ∀ level, Json.Blank (style.lineBreak level)
  colon : ∃ blanks, style.colon = ':' :: blanks ∧ Json.Blank blanks

theorem Style.compact_blank : Style.compact.Blank where
  lineBreak _ := nofun
  colon := ⟨[], rfl, nofun⟩

theorem Style.indented_blank : Style.indented.Blank where
  lineBreak level := by
    intro c hc
    rcases List.mem_cons.1 hc with rfl | hc
    · rfl
    · rw [List.eq_of_mem_replicate hc]
      rfl
  colon := ⟨[' '], rfl, by simp [Json.Blank, isBlank]⟩

variable {blanks rest : List Char} {c d : Char}

theorem skipBlanks_append (hblanks : Blank blanks) (cs : List Char) :
    skipBlanks (blanks ++ cs) = skipBlanks cs :=
  List.dropWhile_append_of_pos hblanks

theorem skipBlanks_cons (hc : isBlank c = false) (cs : List Char) :
    skipBlanks (c :: cs) = c :: cs := by
  rw [skipBlanks, List.dropWhile_cons, hc]
  rfl

theorem eat?_head (hc : isBlank c = false) : eat? c (c :: rest) = some rest := by
  rw [eat?, skipBlanks_cons hc]
  exact if_pos rfl

theorem eat?_self (hblanks : Blank blanks) (hc : isBlank c = false) :
    eat? c (blanks ++ c :: rest) = some rest := by
  rw [eat?, skipBlanks_append hblanks]
  exact eat?_head hc

theorem eat?_other (hblanks : Blank blanks) (hd : isBlank d = false) (hne : d ≠ c) :
    eat? c (blanks ++ d :: rest) = none := by
  rw [eat?, skipBlanks_append hblanks, skipBlanks_cons hd]
  exact if_neg hne

theorem expect_head (flaw : Flaw) (hc : isBlank c = false) :
    expect c flaw (c :: rest) = .ok rest := by
  rw [expect, eat?_head hc]

theorem expect_self (flaw : Flaw) (hblanks : Blank blanks) (hc : isBlank c = false) :
    expect c flaw (blanks ++ c :: rest) = .ok rest := by
  rw [expect, eat?_self hblanks hc]

/-- **Blanks before a value do not matter.** -/
theorem readValue_append (fuel : Nat) (hblanks : Blank blanks) (cs : List Char) :
    readValue (fuel + 1) (blanks ++ cs) = readValue (fuel + 1) cs := by
  rw [readValue, readValue, skipBlanks_append hblanks]

/-- A number ends at what goes on with a list, or closes one. -/
theorem endsNumber_head (hc : c = ',' ∨ c = ']' ∨ c = '\x7d') : EndsNumber (c :: rest) := by
  intro d hd
  cases hd
  rcases hc with rfl | rfl | rfl <;> decide

/-- And so it does at a blank. -/
theorem endsNumber_append (hblanks : Blank blanks) (hc : c = ',' ∨ c = ']' ∨ c = '\x7d') :
    EndsNumber (blanks ++ c :: rest) := by
  cases blanks with
  | nil => exact endsNumber_head hc
  | cons b blanks =>
    intro d hd
    cases hd
    have hblank := hblanks b List.mem_cons_self
    simp only [isBlank, Bool.or_eq_true, decide_eq_true_eq] at hblank
    rcases hblank with ((rfl | rfl) | rfl) | rfl <;> decide

/-! ## First characters -/

theorem head_of_readDecimal {r : Decimal × List Char} {cs : List Char}
    (h : readDecimal (c :: cs) = .ok r) : c = '-' ∨ c.isDigit = true := by
  rw [readDecimal] at h
  split at h
  · exact Or.inl ‹_›
  · refine Or.inr ?_
    cases hdigit : c.isDigit with
    | true => rfl
    | false => simp [readUnsigned, digits, hdigit] at h

/-- A legible number starts with a digit or a minus sign. -/
theorem numberText_of_legible {x : Number} (h : x.Legible) :
    ∃ c cs, numberText x = c :: cs ∧ (c = '-' ∨ c.isDigit = true) := by
  obtain ⟨d, hread, -⟩ := h [] .nil
  rw [List.append_nil] at hread
  cases htext : numberText x with
  | nil =>
    rw [htext] at hread
    cases hread
  | cons c cs =>
    rw [htext] at hread
    exact ⟨c, cs, rfl, head_of_readDecimal hread⟩

/-- What may stand at the start of a number starts nothing else. -/
theorem ne_of_numeral (hc : c = '-' ∨ c.isDigit = true) (hd : d ≠ '-') (hd' : d.isDigit = false) :
    c ≠ d := by
  rintro rfl
  rcases hc with hc | hc
  · exact hd hc
  · rw [hd'] at hc
    cases hc

/-- A value starts with a character that is no blank and closes no list. -/
theorem head_of_write {v : Json} (hv : v.Readable) (style : Style) (level : Nat)
    (rest : List Char) :
    ∃ c cs, write style level v rest = c :: cs ∧ isBlank c = false ∧ c ≠ ']' := by
  cases hv with
  | null => exact ⟨'n', _, rfl, by decide, by decide⟩
  | bool b => cases b <;> exact ⟨_, _, rfl, by decide, by decide⟩
  | num hx =>
    obtain ⟨c, cs, htext, hc⟩ := numberText_of_legible hx
    refine ⟨c, cs ++ rest, by rw [write, htext]; rfl, ?_, ne_of_numeral hc (by decide) (by decide)⟩
    have hblank : ∀ d, isBlank d = true → c ≠ d := by
      intro d hd
      refine ne_of_numeral hc ?_ ?_
      all_goals
        simp only [isBlank, Bool.or_eq_true, decide_eq_true_eq] at hd
        rcases hd with ((rfl | rfl) | rfl) | rfl <;> decide
    cases h : isBlank c with
    | false => rfl
    | true => exact absurd rfl (hblank c h)
  | str s => exact ⟨'"', _, rfl, by decide, by decide⟩
  | arr h => cases ‹List Json› <;> exact ⟨'[', _, rfl, by decide, by decide⟩
  | obj hcanonical h =>
    rename_i members
    cases members with
    | nil => exact ⟨'\x7b', _, rfl, by decide, by decide⟩
    | cons m members => exact ⟨'\x7b', _, rfl, by decide, by decide⟩

/-! ## Fuel -/

mutual

/-- The fuel that a value needs. -/
def need : Json → Nat
  | .arr items => needItems items + 1
  | .obj members => needMembers members + 1
  | _ => 1

def needItems : List Json → Nat
  | [] => 0
  | v :: items => need v + needItems items + 1

def needMembers : List (String × Json) → Nat
  | [] => 0
  | (_, v) :: members => need v + needMembers members + 2

end

theorem need_pos (v : Json) : 0 < need v := by
  cases v <;> simp [need]

/-! ## Reading what was written -/

/-- A value that is read back at every level, whatever follows that ends a number. -/
def ReadsBack (style : Style) (v : Json) : Prop :=
  ∀ level fuel rest, EndsNumber rest → need v ≤ fuel →
    readValue fuel (write style level v rest) = .ok (v, rest)

variable {style : Style}

theorem endsNumber_writeItems (style : Style) (level : Nat) (items : List Json)
    (hblanks : Blank blanks) (rest : List Char) :
    EndsNumber (writeItems style level items (blanks ++ ']' :: rest)) := by
  cases items with
  | nil => exact endsNumber_append hblanks (by simp)
  | cons v items => exact endsNumber_head (Or.inl rfl)

theorem endsNumber_writeMembers (style : Style) (level : Nat)
    (members : List (String × Json)) (hblanks : Blank blanks) (rest : List Char) :
    EndsNumber (writeMembers style level members (blanks ++ '\x7d' :: rest)) := by
  cases members with
  | nil => exact endsNumber_append hblanks (by simp)
  | cons m members => exact endsNumber_head (Or.inl rfl)

/-- **The items of a list,** from behind its bracket. -/
theorem readItems_write (hstyle : style.Blank) {v : Json} {items : List Json}
    (h : ∀ w ∈ v :: items, ReadsBack style w) (level fuel : Nat) (hblanks : Blank blanks)
    (hfuel : needItems (v :: items) ≤ fuel) (rest : List Char) :
    readItems fuel (style.lineBreak level ++ write style level v
      (writeItems style level items (blanks ++ ']' :: rest))) = .ok (v :: items, rest) := by
  induction items generalizing v fuel with
  | nil =>
    -- a level for the list, and one that the value needs itself
    obtain ⟨fuel, rfl⟩ : ∃ n, fuel = n + 2 := ⟨fuel - 2, by
      have := need_pos v
      simp only [needItems] at hfuel
      omega⟩
    have hv := h v List.mem_cons_self level (fuel + 1) _
      (endsNumber_writeItems style level [] hblanks rest) (by simp only [needItems] at hfuel; omega)
    rw [readItems, readValue_append fuel (hstyle.lineBreak level), hv, writeItems]
    simp only [eat?_other hblanks (show isBlank ']' = false by decide) (show ']' ≠ ',' by decide),
      expect_self _ hblanks (show isBlank ']' = false by decide)]
    rfl
  | cons w items ih =>
    obtain ⟨fuel, rfl⟩ : ∃ n, fuel = n + 2 := ⟨fuel - 2, by
      have := need_pos v
      simp only [needItems] at hfuel
      omega⟩
    have hv := h v List.mem_cons_self level (fuel + 1) _
      (endsNumber_writeItems style level (w :: items) hblanks rest)
      (by simp only [needItems] at hfuel; omega)
    have hrest := ih (fun u hu => h u (List.mem_cons_of_mem _ hu)) (fuel + 1)
      (by simp only [needItems] at hfuel ⊢; omega)
    rw [readItems, readValue_append fuel (hstyle.lineBreak level), hv, writeItems]
    simp only [eat?_head (show isBlank ',' = false by decide), hrest]
    rfl

/-- A member, from behind the blanks in front of its name. -/
theorem readMember_write (hstyle : style.Blank) (name : String) {v : Json}
    (h : ReadsBack style v) (level fuel : Nat) (missing : Flaw) (hfuel : need v + 1 ≤ fuel)
    (hends : EndsNumber rest) :
    readMember fuel missing (style.lineBreak level ++ quote name (style.colon ++
      write style level v rest)) = .ok ((name, v), rest) := by
  obtain ⟨fuel, rfl⟩ : ∃ n, fuel = n + 2 := ⟨fuel - 2, by
    have := need_pos v
    omega⟩
  obtain ⟨blanks, hcolon, hblanks⟩ := hstyle.colon
  have hv := h level (fuel + 1) rest hends (by omega)
  rw [readMember, quote, expect_self missing (hstyle.lineBreak level) (by decide)]
  simp only [readString_quoted, hcolon, List.cons_append,
    expect_head .noColon (show isBlank ':' = false by decide), readValue_append fuel hblanks, hv]
  rfl

/-- **The members of an object,** from behind its brace. -/
theorem readMembers_write (hstyle : style.Blank) {m : String × Json}
    {members : List (String × Json)} (h : ∀ n ∈ m :: members, ReadsBack style n.2)
    (level fuel : Nat) (missing : Flaw) (hblanks : Blank blanks)
    (hfuel : needMembers (m :: members) ≤ fuel) (rest : List Char) :
    readMembers fuel missing (style.lineBreak level ++ quote m.1 (style.colon ++
      write style level m.2 (writeMembers style level members (blanks ++ '\x7d' :: rest)))) =
      .ok (m :: members, rest) := by
  induction members generalizing m fuel missing with
  | nil =>
    obtain ⟨fuel, rfl⟩ : ∃ n, fuel = n + 1 := ⟨fuel - 1, by
      simp only [needMembers] at hfuel
      omega⟩
    have hm := readMember_write hstyle m.1 (h m List.mem_cons_self) level fuel missing
      (by simp only [needMembers] at hfuel; omega)
      (endsNumber_writeMembers style level [] hblanks rest)
    rw [readMembers, hm, writeMembers]
    simp only [eat?_other hblanks (show isBlank '\x7d' = false by decide)
      (show '\x7d' ≠ ',' by decide), expect_self _ hblanks (show isBlank '\x7d' = false by decide)]
    rfl
  | cons n members ih =>
    obtain ⟨fuel, rfl⟩ : ∃ n, fuel = n + 1 := ⟨fuel - 1, by
      simp only [needMembers] at hfuel
      omega⟩
    have hm := readMember_write hstyle m.1 (h m List.mem_cons_self) level fuel missing
      (by simp only [needMembers] at hfuel; omega)
      (endsNumber_writeMembers style level (n :: members) hblanks rest)
    have hrest := ih (fun u hu => h u (List.mem_cons_of_mem _ hu)) fuel .noName
      (by simp only [needMembers] at hfuel ⊢; omega)
    rw [readMembers, hm, writeMembers]
    simp only [eat?_head (show isBlank ',' = false by decide), hrest]
    rfl

/-- A number, where a value is expected. -/
theorem readsBack_num (style : Style) {x : Number} (h : x.Legible) : ReadsBack style (.num x) := by
  intro level fuel rest hends hfuel
  obtain ⟨fuel, rfl⟩ : ∃ n, fuel = n + 1 := ⟨fuel - 1, by
    have := need_pos (.num x)
    omega⟩
  obtain ⟨c, cs, htext, hc⟩ := numberText_of_legible h
  obtain ⟨d, hread, hd⟩ := h rest hends
  have hblank : isBlank c = false := by
    obtain ⟨c', cs', hwrite, hblank, -⟩ := head_of_write (.num h) style level rest
    rw [write, htext] at hwrite
    cases hwrite
    exact hblank
  have hne : ∀ d, d ≠ '-' → d.isDigit = false → c ≠ d := fun d => ne_of_numeral hc
  rw [htext] at hread
  rw [write, htext, readValue, List.cons_append, skipBlanks_cons hblank]
  simp only [hne '"' (by decide) (by decide), hne '[' (by decide) (by decide),
    hne '\x7b' (by decide) (by decide), hne 'n' (by decide) (by decide),
    hne 't' (by decide) (by decide), hne 'f' (by decide) (by decide), if_false]
  rw [← List.cons_append, hread]
  simp only [Except.map, hd]

/-- **Every readable value is read back.** -/
theorem Readable.readsBack (hstyle : style.Blank) {v : Json} (hv : v.Readable) :
    ReadsBack style v := by
  induction hv with
  | num hx => exact readsBack_num style hx
  | null =>
    intro level fuel rest hends hfuel
    cases fuel with
    | zero => cases hfuel
    | succ fuel => rfl
  | bool b =>
    intro level fuel rest hends hfuel
    cases fuel with
    | zero => cases hfuel
    | succ fuel => cases b <;> rfl
  | str s =>
    intro level fuel rest hends hfuel
    cases fuel with
    | zero => cases hfuel
    | succ fuel =>
      rw [write, quote, readValue, skipBlanks_cons (by decide)]
      simp only [if_true, readString_quoted]
      rfl
  | @arr items hitems ih =>
    intro level fuel rest hends hfuel
    obtain ⟨fuel, rfl⟩ : ∃ n, fuel = n + 1 := ⟨fuel - 1, by
      simp only [need] at hfuel
      omega⟩
    cases items with
    | nil => rfl
    | cons v items =>
      have hread := readItems_write hstyle ih (level + 1) fuel (hstyle.lineBreak level)
        (by simp only [need] at hfuel; omega) rest
      obtain ⟨c, cs, hwrite, hblank, hne⟩ := head_of_write (hitems v List.mem_cons_self) style
        (level + 1) (writeItems style (level + 1) items (style.lineBreak level ++ ']' :: rest))
      have hitem : eat? ']' (style.lineBreak (level + 1) ++ write style (level + 1) v
          (writeItems style (level + 1) items (style.lineBreak level ++ ']' :: rest))) = none := by
        rw [hwrite]
        exact eat?_other (hstyle.lineBreak (level + 1)) hblank hne
      rw [write, readValue, skipBlanks_cons (by decide)]
      simp only [show ('[' : Char) ≠ '"' by decide, if_false, if_true, hitem, hread]
      rfl
  | @obj members hcanonical hmembers ih =>
    intro level fuel rest hends hfuel
    obtain ⟨fuel, rfl⟩ : ∃ n, fuel = n + 1 := ⟨fuel - 1, by
      simp only [need] at hfuel
      omega⟩
    cases members with
    | nil => rfl
    | cons m members =>
      have hread := readMembers_write hstyle ih (level + 1) fuel .noNameOrBrace
        (hstyle.lineBreak level) (by simp only [need] at hfuel; omega) rest
      have hname : eat? '\x7d' (style.lineBreak (level + 1) ++ quote m.1 (style.colon ++
          write style (level + 1) m.2 (writeMembers style (level + 1) members
            (style.lineBreak level ++ '\x7d' :: rest)))) = none :=
        eat?_other (hstyle.lineBreak (level + 1)) (by decide) (by decide)
      rw [write, readValue, skipBlanks_cons (by decide)]
      simp only [show ('\x7b' : Char) ≠ '"' by decide, show ('\x7b' : Char) ≠ '[' by decide,
        if_false, if_true, hname, hread, Except.map, object_of_canonical hcanonical]

/-! ## The text is long enough -/

/-- **A text that gives its value the fuel it needs,** three for each character. -/
def Feeds (style : Style) (v : Json) : Prop :=
  ∀ level rest, need v + 3 * rest.length ≤ 3 * (write style level v rest).length

theorem length_quote (s : String) (rest : List Char) : rest.length + 2 ≤ (quote s rest).length := by
  simp only [quote, List.length_cons, List.length_append]
  omega

theorem needItems_le {items : List Json} (h : ∀ v ∈ items, Feeds style v) (level : Nat)
    (rest : List Char) :
    needItems items + 3 * rest.length ≤ 3 * (writeItems style level items rest).length := by
  induction items with
  | nil => simp [needItems, writeItems]
  | cons v items ih =>
    have hv := h v List.mem_cons_self level (writeItems style level items rest)
    have hitems := ih fun w hw => h w (List.mem_cons_of_mem _ hw)
    simp only [needItems, writeItems, List.length_cons, List.length_append]
    omega

theorem needMembers_le {members : List (String × Json)} (h : ∀ m ∈ members, Feeds style m.2)
    (level : Nat) (rest : List Char) :
    needMembers members + 3 * rest.length ≤
      3 * (writeMembers style level members rest).length := by
  induction members with
  | nil => simp [needMembers, writeMembers]
  | cons m members ih =>
    have hm := h m List.mem_cons_self level (writeMembers style level members rest)
    have hmembers := ih fun w hw => h w (List.mem_cons_of_mem _ hw)
    have hname := length_quote m.1 (style.colon ++ write style level m.2
      (writeMembers style level members rest))
    simp only [needMembers, writeMembers, List.length_cons, List.length_append] at hname ⊢
    omega

theorem Readable.feeds {v : Json} (hv : v.Readable) (style : Style) : Feeds style v := by
  induction hv with
  | null =>
    intro level rest
    have hword : "null".toList.length = 4 := rfl
    simp only [need, write, List.length_append, hword]
    omega
  | bool b =>
    intro level rest
    have htrue : "true".toList.length = 4 := rfl
    have hfalse : "false".toList.length = 5 := rfl
    cases b <;> simp only [need, write, List.length_append, htrue, hfalse] <;> omega
  | num hx =>
    intro level rest
    obtain ⟨c, cs, htext, -⟩ := numberText_of_legible hx
    simp only [need, write, htext, List.length_append, List.length_cons]
    omega
  | str s =>
    intro level rest
    have := length_quote s rest
    simp only [need, write]
    omega
  | @arr items hitems ih =>
    intro level rest
    cases items with
    | nil =>
      simp only [need, needItems, write, List.length_cons]
      omega
    | cons v items =>
      have hv := ih v List.mem_cons_self (level + 1)
        (writeItems style (level + 1) items (style.lineBreak level ++ ']' :: rest))
      have hrest := needItems_le (fun w hw => ih w (List.mem_cons_of_mem _ hw)) (level + 1)
        (style.lineBreak level ++ ']' :: rest)
      simp only [need, needItems, write, List.length_cons, List.length_append] at hrest ⊢
      omega
  | @obj members hcanonical hmembers ih =>
    intro level rest
    cases members with
    | nil =>
      simp only [need, needMembers, write, List.length_cons]
      omega
    | cons m members =>
      have hm := ih m List.mem_cons_self (level + 1)
        (writeMembers style (level + 1) members (style.lineBreak level ++ '\x7d' :: rest))
      have hrest := needMembers_le (fun w hw => ih w (List.mem_cons_of_mem _ hw)) (level + 1)
        (style.lineBreak level ++ '\x7d' :: rest)
      have hname := length_quote m.1 (style.colon ++ write style (level + 1) m.2
        (writeMembers style (level + 1) members (style.lineBreak level ++ '\x7d' :: rest)))
      simp only [need, needMembers, write, List.length_cons, List.length_append] at hrest hname ⊢
      omega

/-! ## Texts -/

theorem Readable.parse?_write (hstyle : style.Blank) {v : Json} (hv : v.Readable) :
    parse? (String.ofList (write style 0 v [])) = some v := by
  have hfuel := hv.feeds style 0 []
  have hread := hv.readsBack hstyle 0 (3 * (write style 0 v []).length + 3) [] .nil (by omega)
  rw [parse?, parse, String.toList_ofList, hread]
  rfl

theorem parse?_compact {v : Json} (hv : v.Readable) : parse? v.compact = some v :=
  hv.parse?_write Style.compact_blank

/-- **A readable value is the value of its text.** -/
theorem parse?_indented {v : Json} (hv : v.Readable) : parse? v.indented = some v :=
  hv.parse?_write Style.indented_blank

end ChangeGate.Json
