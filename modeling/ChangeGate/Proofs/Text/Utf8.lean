import ChangeGate.Text.Units
import ChangeGate.Text.Utf8
/-!
# Bytes read back

`decode_encode`: a text is read back from its bytes. The first byte of a character announces how
many follow, and `lead?` leaves to the next one the range in which the encoder puts it.
-/

namespace ChangeGate.Text.Utf8

/-- The byte of a number in range. -/
theorem toNat_ofNat_byte {n : Nat} (h : n < 256) : (UInt8.ofNat n).toNat = n := by
  simpa using h

/-- The cases of `lead?` on a number. -/
theorem lead?_ofNat {n : Nat} (h : n < 256) :
    lead? (UInt8.ofNat n) =
      if n < 0x80 then some ⟨0, 0x80, 0xBF, n⟩
      else if n < 0xC2 then none
      else if n < 0xE0 then some ⟨1, 0x80, 0xBF, n - 0xC0⟩
      else if n = 0xE0 then some ⟨2, 0xA0, 0xBF, 0⟩
      else if n = 0xED then some ⟨2, 0x80, 0x9F, 0xD⟩
      else if n < 0xF0 then some ⟨2, 0x80, 0xBF, n - 0xE0⟩
      else if n = 0xF0 then some ⟨3, 0x90, 0xBF, 0⟩
      else if n < 0xF4 then some ⟨3, 0x80, 0xBF, n - 0xF0⟩
      else if n = 0xF4 then some ⟨3, 0x80, 0x8F, 4⟩
      else none := by
  simp only [lead?, UInt8.lt_iff_toNat_lt, ← UInt8.toNat_inj, toNat_ofNat_byte h, UInt8.reduceToNat]

/-- **A first byte** that stands alone, or that is waited upon. -/
theorem finish_lead {b : UInt8} {l : Lead} (h : lead? b = some l) (rest : List UInt8) :
    finish .none (b :: rest) =
      if l.following = 0 then Char.ofNat l.bits :: finish .none rest
      else finish ⟨l.following, l.least, l.greatest, l.bits⟩ rest := by
  have hstep : step .none b = start b := rfl
  rw [finish, hstep, start, h]
  dsimp only
  split <;> rfl

/-- **A byte that was waited for.** -/
theorem finish_next {p : Pending} {n : Nat} (hneeded : p.needed ≠ 0) (h : n < 64)
    (hleast : p.least.toNat ≤ n + 0x80) (hgreatest : n + 0x80 ≤ p.greatest.toNat)
    (rest : List UInt8) :
    finish p (UInt8.ofNat (n + 0x80) :: rest) =
      if p.needed = 1 then Char.ofNat (p.bits * 64 + n) :: finish .none rest
      else finish ⟨p.needed - 1, 0x80, 0xBF, p.bits * 64 + n⟩ rest := by
  have hbyte := toNat_ofNat_byte (show n + 0x80 < 256 by omega)
  have hrange : p.least ≤ UInt8.ofNat (n + 0x80) ∧ UInt8.ofNat (n + 0x80) ≤ p.greatest := by
    rw [UInt8.le_iff_toNat_le, UInt8.le_iff_toNat_le, hbyte]
    exact ⟨hleast, hgreatest⟩
  rw [finish, step, if_neg hneeded, if_pos hrange, hbyte, Nat.add_sub_cancel]
  dsimp only
  split <;> rfl

/-- The first byte of three. The second one of a character that is neither overlong nor a
surrogate is in the range that is left to it. -/
theorem lead?_three {v : Nat} (hlow : 0x800 ≤ v) (hhigh : v < 0x10000)
    (hsurrogate : v < 0xD800 ∨ 0xDFFF < v) :
    ∃ least greatest, lead? (UInt8.ofNat (v / 4096 % 16 + 0xE0)) =
        some ⟨2, least, greatest, v / 4096⟩ ∧
      least.toNat ≤ v / 64 % 64 + 0x80 ∧ v / 64 % 64 + 0x80 ≤ greatest.toNat := by
  rw [lead?_ofNat (by omega), if_neg (by omega), if_neg (by omega), if_neg (by omega)]
  split
  · rename_i hE0
    exact ⟨0xA0, 0xBF, by rw [show v / 4096 = 0 by omega], by simp; omega, by simp; omega⟩
  · split
    · rename_i hED
      exact ⟨0x80, 0x9F, by rw [show v / 4096 = 0xD by omega], by simp, by simp; omega⟩
    · rw [if_pos (by omega)]
      exact ⟨0x80, 0xBF, by rw [Nat.add_sub_cancel, show v / 4096 % 16 = v / 4096 by omega],
        by simp, by simp; omega⟩

/-- The first byte of four. The second one of a character in range is in the range that is left
to it. -/
theorem lead?_four {v : Nat} (hlow : 0x10000 ≤ v) (hhigh : v < 0x110000) :
    ∃ least greatest, lead? (UInt8.ofNat (v / 262144 % 8 + 0xF0)) =
        some ⟨3, least, greatest, v / 262144⟩ ∧
      least.toNat ≤ v / 4096 % 64 + 0x80 ∧ v / 4096 % 64 + 0x80 ≤ greatest.toNat := by
  rw [lead?_ofNat (by omega), if_neg (by omega), if_neg (by omega), if_neg (by omega),
    if_neg (by omega), if_neg (by omega), if_neg (by omega)]
  split
  · rename_i hF0
    exact ⟨0x90, 0xBF, by rw [show v / 262144 = 0 by omega], by simp; omega, by simp; omega⟩
  · split
    · exact ⟨0x80, 0xBF, by rw [Nat.add_sub_cancel, show v / 262144 % 8 = v / 262144 by omega],
        by simp, by simp; omega⟩
    · rw [if_pos (by omega)]
      exact ⟨0x80, 0x8F, by rw [show v / 262144 = 4 by omega], by simp, by simp; omega⟩

/-- **A character is read back from the front of any bytes.** -/
theorem finish_encodeChar (c : Char) (rest : List UInt8) :
    finish .none (String.utf8EncodeChar c ++ rest) = c :: finish .none rest := by
  have hvalue : c.val.toNat = c.toNat := rfl
  have hsurrogate := toNat_lt_or_gt c
  have hmax := toNat_lt c
  have hchar : Char.ofNat c.toNat = c := Char.ofNat_toNat c
  unfold String.utf8EncodeChar
  rw [hvalue]
  generalize c.toNat = v at hsurrogate hmax hchar
  subst hchar
  dsimp only
  split
  -- one byte
  · have hlead := lead?_ofNat (show v < 256 by omega)
    rw [if_pos (by omega)] at hlead
    rw [List.singleton_append, finish_lead hlead, if_pos rfl]
  · split
    -- two bytes
    · have hlead := lead?_ofNat (show v / 64 % 32 + 0xC0 < 256 by omega)
      rw [if_neg (by omega), if_neg (by omega), if_pos (by omega), Nat.add_sub_cancel] at hlead
      simp only [List.cons_append, List.nil_append]
      rw [finish_lead hlead, if_neg Nat.one_ne_zero,
        finish_next (by simp) (by omega) (by simp) (by simp; omega), if_pos rfl,
        show v / 64 % 32 * 64 + v % 64 = v by omega]
    · split
      -- three bytes
      · obtain ⟨least, greatest, hlead, hleast, hgreatest⟩ :=
          lead?_three (by omega) (by omega) hsurrogate
        simp only [List.cons_append, List.nil_append]
        rw [finish_lead hlead, if_neg (by simp),
          finish_next (by simp) (by omega) hleast hgreatest, if_neg (by simp),
          finish_next (by simp) (by omega) (by simp) (by simp; omega), if_pos (by simp),
          show (v / 4096 * 64 + v / 64 % 64) * 64 + v % 64 = v by omega]
      -- four bytes
      · obtain ⟨least, greatest, hlead, hleast, hgreatest⟩ := lead?_four (by omega) hmax
        simp only [List.cons_append, List.nil_append]
        rw [finish_lead hlead, if_neg (by simp),
          finish_next (by simp) (by omega) hleast hgreatest, if_neg (by simp),
          finish_next (by simp) (by omega) (by simp) (by simp; omega), if_neg (by simp),
          finish_next (by simp) (by omega) (by simp) (by simp; omega), if_pos (by simp),
          show ((v / 262144 * 64 + v / 4096 % 64) * 64 + v / 64 % 64) * 64 + v % 64 = v by omega]

/-- **A text is read back from its bytes.** -/
theorem decode_encode (s : String) : decode (encode s) = s := by
  have hfinish : ∀ cs : List Char, finish .none (cs.flatMap String.utf8EncodeChar) = cs := by
    intro cs
    induction cs with
    | nil => rfl
    | cons c cs ih => rw [List.flatMap_cons, finish_encodeChar, ih]
  rw [decode, encode, hfinish, String.ofList_toList]

/-- Texts are written one after the other. -/
theorem encode_append (s t : String) : encode (s ++ t) = encode s ++ encode t := by
  rw [encode, String.toList_append, List.flatMap_append]
  rfl

end ChangeGate.Text.Utf8
