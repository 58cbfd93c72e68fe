import ChangeGate.Proofs.Json.Numeral
/-!
# Compact texts are lines

A line feed inside a string is escaped, a number has none, and the compact style puts in none. So
the compact text of a value is one line, whatever its strings hold (`newline_not_mem_compact`).
-/

namespace ChangeGate

namespace Decimal

theorem newline_not_mem_toDigits (n : Nat) : '\n' ∉ Nat.toDigits 10 n := by
  intro hmem
  cases Json.numeric_toDigits n _ hmem

theorem newline_not_mem_exponentText (e : Int) : '\n' ∉ exponentText e := by
  rw [exponentText, List.mem_cons, not_or]
  refine ⟨?_, newline_not_mem_toDigits _⟩
  split <;> decide

theorem newline_not_mem_layout {digits : List Char} (h : '\n' ∉ digits) (point : Int) :
    '\n' ∉ layout digits point := by
  have htake : ∀ n, '\n' ∉ digits.take n := fun n hmem => h (List.mem_of_mem_take hmem)
  have hdrop : ∀ n, '\n' ∉ digits.drop n := fun n hmem => h (List.mem_of_mem_drop hmem)
  unfold layout
  split
  · simp [h]
  split
  · simp [htake, hdrop]
  split
  · simp [h]
  · split
    · exact h
    · simp_all [newline_not_mem_exponentText]
    · simp_all [newline_not_mem_exponentText]

theorem newline_not_mem_text (d : Decimal) : '\n' ∉ d.text := by
  have hdigits : '\n' ∉ d.significantDigits := by
    intro hmem
    rw [significantDigits, List.mem_reverse] at hmem
    exact newline_not_mem_toDigits d.digits
      (List.mem_reverse.1 ((List.dropWhile_suffix _).subset hmem))
  rw [text, List.mem_append, not_or]
  exact ⟨by split <;> decide, newline_not_mem_layout hdigits _⟩

end Decimal

theorem SafeInt.newline_not_mem_text (n : SafeInt) : '\n' ∉ n.text.toList := by
  rw [text, Int.toString_eq_repr, Int.repr_eq_if]
  split
  · rw [Nat.toList_repr]
    exact Decimal.newline_not_mem_toDigits _
  · rw [String.toList_append, Nat.toList_repr, List.mem_append, not_or]
    exact ⟨by decide, Decimal.newline_not_mem_toDigits _⟩

namespace Json

variable {rest : List Char}

theorem newline_not_mem_numberText (x : Number) : '\n' ∉ numberText x := by
  cases x with
  | nan | negInf | posInf => decide
  | finite value =>
    rw [numberText, Number.text]
    split
    · exact SafeInt.newline_not_mem_text _
    · rw [String.toList_ofList]
      exact Decimal.newline_not_mem_text _

/-- **A character inside quotes is no line feed,** since a line feed has an escape. -/
theorem newline_not_mem_escape (c : Char) : '\n' ∉ Escape.write c := by
  have hletters : ∀ e ∈ Escape.letters, e.2 ≠ '\n' := by decide
  have hdigits : ∀ n : Fin 16, Escape.digit n.val ≠ '\n' := by decide
  unfold Escape.write
  split
  · rename_i letter hletter
    obtain ⟨before, after, heq, -⟩ := List.lookup_eq_some_iff.1 hletter
    have hne := hletters (c, letter) (by rw [heq]; simp)
    simp [Ne.symm hne]
  · rename_i hletter
    split
    · rename_i hlow
      have hfirst := hdigits ⟨c.toNat / 16, by omega⟩
      have hsecond := hdigits ⟨c.toNat % 16, by omega⟩
      simp [Ne.symm hfirst, Ne.symm hsecond]
    · rw [List.mem_singleton]
      rintro rfl
      exact absurd hletter (by decide)

theorem newline_not_mem_quote (s : String) (h : '\n' ∉ rest) : '\n' ∉ quote s rest := by
  have hinside : '\n' ∉ s.toList.flatMap Escape.write := by
    intro hmem
    obtain ⟨c, -, hc⟩ := List.mem_flatMap.1 hmem
    exact newline_not_mem_escape c hc
  simp [quote, hinside, h]

mutual

theorem newline_not_mem_write (level : Nat) (v : Json) {rest : List Char} (h : '\n' ∉ rest) :
    '\n' ∉ write .compact level v rest := by
  match v with
  | .null => simpa [write] using h
  | .bool true => simpa [write] using h
  | .bool false => simpa [write] using h
  | .num x =>
    rw [write, List.mem_append, not_or]
    exact ⟨newline_not_mem_numberText x, h⟩
  | .str s => exact newline_not_mem_quote s h
  | .arr [] => simpa [write] using h
  | .arr (item :: items) =>
    have hend : '\n' ∉ Style.compact.lineBreak level ++ ']' :: rest := by
      simpa [Style.compact] using h
    have hitems := newline_not_mem_writeItems (level + 1) items hend
    have hitem := newline_not_mem_write (level + 1) item hitems
    simpa [write, Style.compact] using hitem
  | .obj [] => simpa [write] using h
  | .obj ((name, value) :: members) =>
    have hend : '\n' ∉ Style.compact.lineBreak level ++ '\x7d' :: rest := by
      simpa [Style.compact] using h
    have hmembers := newline_not_mem_writeMembers (level + 1) members hend
    have hvalue := newline_not_mem_write (level + 1) value hmembers
    have hcolon := List.not_mem_cons_of_ne_of_not_mem (show '\n' ≠ ':' by decide) hvalue
    have hmember := newline_not_mem_quote name hcolon
    simpa [write, Style.compact] using hmember

theorem newline_not_mem_writeItems (level : Nat) (items : List Json) {rest : List Char}
    (h : '\n' ∉ rest) : '\n' ∉ writeItems .compact level items rest := by
  match items with
  | [] => exact h
  | item :: items =>
    have hitem := newline_not_mem_write level item (newline_not_mem_writeItems level items h)
    simpa [writeItems, Style.compact] using hitem

theorem newline_not_mem_writeMembers (level : Nat) (members : List (String × Json))
    {rest : List Char} (h : '\n' ∉ rest) : '\n' ∉ writeMembers .compact level members rest := by
  match members with
  | [] => exact h
  | (name, value) :: members =>
    have hvalue := newline_not_mem_write level value (newline_not_mem_writeMembers level members h)
    have hcolon := List.not_mem_cons_of_ne_of_not_mem (show '\n' ≠ ':' by decide) hvalue
    have hmember := newline_not_mem_quote name hcolon
    simpa [writeMembers, Style.compact] using hmember

end

/-- **The compact text of a value is one line.** -/
theorem newline_not_mem_compact (v : Json) : '\n' ∉ v.compact.toList := by
  rw [compact, String.toList_ofList]
  exact newline_not_mem_write 0 v List.not_mem_nil

end Json

end ChangeGate
