/-!
# Blank text

The characters of the Unicode property White_Space, and texts made of them alone.
-/
namespace StreamSql.Text

/-- Membership in White_Space. The zero-width and control characters that only look empty, such
as U+200B, U+FEFF and U+001C, do not belong to it. -/
def isBlankChar (c : Char) : Bool :=
  let n := c.toNat
  (9 ≤ n && n ≤ 13) || n == 0x20 || n == 0x85 || n == 0xA0 || n == 0x1680 ||
    (0x2000 ≤ n && n ≤ 0x200A) || n == 0x2028 || n == 0x2029 || n == 0x202F || n == 0x205F ||
    n == 0x3000

def isBlank (s : String) : Bool :=
  s.toList.all isBlankChar

/-- Drops the characters of a class from the end. -/
def dropTrailing (p : Char → Bool) (cs : List Char) : List Char :=
  (cs.reverse.dropWhile p).reverse

/-- Drops blank characters from both ends. -/
def trim (cs : List Char) : List Char :=
  dropTrailing isBlankChar (cs.dropWhile isBlankChar)

/-- Between the space and U+0085 no character is blank. -/
theorem isBlankChar_eq_false_of_between {c : Char} (hlow : 0x20 < c.toNat) (hhigh : c.toNat < 0x85) :
    isBlankChar c = false := by
  rw [Bool.eq_false_iff]
  intro hblank
  simp only [isBlankChar, Bool.or_eq_true, Bool.and_eq_true, decide_eq_true_eq,
    beq_iff_eq] at hblank
  omega

theorem isBlankChar_eq_false_of_isAlpha {c : Char} (h : c.isAlpha) : isBlankChar c = false := by
  have hrange : 65 ≤ c.toNat ∧ c.toNat ≤ 90 ∨ 97 ≤ c.toNat ∧ c.toNat ≤ 122 := by
    rcases Bool.or_eq_true_iff.mp h with hupper | hlower
    · exact .inl (of_decide_eq_true hupper)
    · obtain ⟨ha, hz⟩ := Bool.and_eq_true_iff.mp hlower
      exact .inr ⟨of_decide_eq_true ha, of_decide_eq_true hz⟩
  exact isBlankChar_eq_false_of_between (by omega) (by omega)

theorem isBlankChar_eq_false_of_isDigit {c : Char} (h : c.isDigit) : isBlankChar c = false := by
  have hrange : 48 ≤ c.toNat ∧ c.toNat ≤ 57 := by
    obtain ⟨hzero, hnine⟩ := Bool.and_eq_true_iff.mp h
    exact ⟨of_decide_eq_true hzero, of_decide_eq_true hnine⟩
  exact isBlankChar_eq_false_of_between (by omega) (by omega)

end StreamSql.Text
