/-!
# The order of names

Names are ordered by their UTF-16 code units. This is not the order of code points: a character
beyond `U+FFFF` is written with two units of the surrogate range, which stand before the units
`U+E000` to `U+FFFF`.

Main statements: `units_injective`, the units tell two names apart, so that exactly one of
`Precedes a b`, `a = b` and `Precedes b a` holds (`precedes_trichotomy`); and `comesBefore_iff`,
the order is decided at the first character that differs.
-/

namespace ChangeGate.Text

/-- **The code units of a character:** its code point, or beyond `U+FFFF` two surrogates that
hold ten bits each. -/
def charUnits (c : Char) : List Nat :=
  if c.toNat < 0x10000 then [c.toNat]
  else [0xD800 + (c.toNat - 0x10000) / 0x400, 0xDC00 + (c.toNat - 0x10000) % 0x400]

/-- The code units of a text. -/
def units (s : String) : List Nat :=
  s.toList.flatMap charUnits

/-- **The order of names:** lexicographic on code units. -/
def Precedes (a b : String) : Prop :=
  units a < units b

/-- No character is a surrogate. -/
theorem toNat_lt_or_gt (c : Char) : c.toNat < 0xD800 ∨ 0xDFFF < c.toNat := by
  rcases c.valid with h | h
  · exact Or.inl h
  · exact Or.inr h.1

theorem toNat_lt (c : Char) : c.toNat < 0x110000 := by
  rcases c.valid with h | h
  · exact Nat.lt_trans h (by decide)
  · exact h.2

theorem char_eq_of_toNat {a b : Char} (h : a.toNat = b.toNat) : a = b :=
  Char.ext (UInt32.toNat_inj.1 h)

/-- **The units of a character can be read off the front of any sequence:** a first unit that is
a surrogate announces a second one, and any other stands alone. -/
theorem charUnits_append_inj {a b : Char} {s t : List Nat}
    (h : charUnits a ++ s = charUnits b ++ t) : a = b ∧ s = t := by
  have ha := toNat_lt_or_gt a
  have hb := toNat_lt_or_gt b
  have ha' := toNat_lt a
  have hb' := toNat_lt b
  by_cases hla : a.toNat < 0x10000 <;> by_cases hlb : b.toNat < 0x10000 <;>
    simp only [charUnits, hla, hlb, if_true, if_false, List.cons_append, List.nil_append,
      List.cons.injEq] at h
  · exact ⟨char_eq_of_toNat h.1, h.2⟩
  · omega
  · omega
  · exact ⟨char_eq_of_toNat (by omega), h.2.2⟩

theorem charUnits_ne_nil (c : Char) : charUnits c ≠ [] := by
  unfold charUnits; split <;> simp

theorem flatMap_charUnits_injective {s t : List Char}
    (h : s.flatMap charUnits = t.flatMap charUnits) : s = t := by
  induction s generalizing t with
  | nil =>
    cases t with
    | nil => rfl
    | cons c t => simp [charUnits_ne_nil] at h
  | cons c s ih =>
    cases t with
    | nil => simp [charUnits_ne_nil] at h
    | cons d t =>
      obtain ⟨hchar, hrest⟩ := charUnits_append_inj (by simpa using h)
      rw [hchar, ih hrest]

/-- **The code units tell names apart.** -/
theorem units_injective {a b : String} (h : units a = units b) : a = b :=
  String.toList_inj.1 (flatMap_charUnits_injective h)

/-! ## Deciding the order -/

/-- Where two texts part, the units of the characters there decide. -/
def comesBefore : List Char → List Char → Bool
  | _, [] => false
  | [], _ :: _ => true
  | c :: s, d :: t => if c = d then comesBefore s t else charUnits c < charUnits d

/-- **Units of different characters decide,** whatever comes after them. -/
theorem charUnits_append_lt {c d : Char} (hne : c ≠ d) (s t : List Nat) :
    charUnits c ++ s < charUnits d ++ t ↔ charUnits c < charUnits d := by
  have hc := toNat_lt_or_gt c
  have hd := toNat_lt_or_gt d
  have hc' := toNat_lt c
  have hd' := toNat_lt d
  have hval : c.toNat ≠ d.toNat := fun h => hne (char_eq_of_toNat h)
  by_cases hcs : c.toNat < 0x10000 <;> by_cases hds : d.toNat < 0x10000 <;>
    simp only [charUnits, hcs, hds, if_true, if_false, List.cons_append, List.nil_append,
      List.cons_lt_cons_iff, List.not_lt_nil, and_false, or_false] <;>
    omega

/-- A common beginning does not matter. -/
theorem append_lt_append_iff (us s t : List Nat) : us ++ s < us ++ t ↔ s < t := by
  induction us with
  | nil => exact Iff.rfl
  | cons u us ih => simp [ih]

theorem comesBefore_iff (s t : List Char) :
    comesBefore s t = true ↔ s.flatMap charUnits < t.flatMap charUnits := by
  induction s generalizing t with
  | nil =>
    cases t with
    | nil => simp [comesBefore]
    | cons d t =>
      obtain ⟨u, us, hunits⟩ := List.exists_cons_of_ne_nil (charUnits_ne_nil d)
      simp [comesBefore, hunits]
  | cons c s ih =>
    cases t with
    | nil => simp [comesBefore]
    | cons d t =>
      rw [comesBefore, List.flatMap_cons, List.flatMap_cons]
      split
      · rename_i heq
        rw [heq, ih, append_lt_append_iff]
      · rename_i hne
        rw [charUnits_append_lt hne, decide_eq_true_iff]

/-- The order is decided at the first difference. -/
instance (a b : String) : Decidable (Precedes a b) :=
  decidable_of_iff (comesBefore a.toList b.toList = true) (comesBefore_iff _ _)

theorem precedes_irrefl (a : String) : ¬ Precedes a a :=
  List.lt_irrefl _

theorem precedes_trans {a b c : String} (h : Precedes a b) (h' : Precedes b c) : Precedes a c :=
  List.lt_trans h h'

theorem precedes_asymm {a b : String} (h : Precedes a b) : ¬ Precedes b a :=
  fun h' => precedes_irrefl a (precedes_trans h h')

/-- Two names of which neither precedes the other are one. -/
theorem eq_of_not_precedes {a b : String} (h : ¬ Precedes a b) (h' : ¬ Precedes b a) : a = b :=
  units_injective (List.le_antisymm (List.not_lt.1 h') (List.not_lt.1 h))

theorem precedes_trichotomy (a b : String) : Precedes a b ∨ a = b ∨ Precedes b a := by
  by_cases h : Precedes a b
  · exact Or.inl h
  by_cases h' : Precedes b a
  · exact Or.inr (Or.inr h')
  · exact Or.inr (Or.inl (eq_of_not_precedes h h'))

theorem ne_of_precedes {a b : String} (h : Precedes a b) : a ≠ b :=
  fun heq => precedes_irrefl b (heq ▸ h)

end ChangeGate.Text
