/-!
# Names

The five patterns that names are held to. All are ASCII and describe the whole text.
-/
namespace StreamSql.Text

def isWordStart (c : Char) : Bool :=
  c.isAlpha || c == '_'

def isWordChar (c : Char) : Bool :=
  c.isAlphanum || c == '_'

/-- A word opens with a character of the class `start`. -/
def isWord (start : Char → Bool) : List Char → Bool
  | [] => false
  | c :: cs => start c && cs.all isWordChar

/-- Words joined by single dots. `inWord` tells whether a word has begun. -/
def isDotted (start : Char → Bool) : Bool → List Char → Bool
  | inWord, [] => inWord
  | false, c :: cs => start c && isDotted start true cs
  | true, c :: cs =>
    if c == '.' then isDotted start false cs else isWordChar c && isDotted start true cs

/-- A letter or underscore, then letters, digits and underscores. -/
def isIdentifier (s : String) : Bool :=
  isWord isWordStart s.toList

/-- Identifiers joined by dots. -/
def isQualified (s : String) : Bool :=
  isDotted isWordStart false s.toList

/-- A qualified name whose parts all open with a letter. -/
def isDescribable (s : String) : Bool :=
  isDotted Char.isAlpha false s.toList

/-- At least one letter, digit, underscore or hyphen. -/
def isQueryId (s : String) : Bool :=
  !s.isEmpty && s.toList.all (fun c => isWordChar c || c == '-')

/-- At least one letter, digit, underscore, hyphen or dot. -/
def isPropertyName (s : String) : Bool :=
  !s.isEmpty && s.toList.all (fun c => isWordChar c || c == '-' || c == '.')

theorem isWordChar_of_isWordStart {c : Char} (h : isWordStart c) : isWordChar c := by
  simp only [isWordStart, isWordChar, Char.isAlphanum, Bool.or_eq_true] at h ⊢
  exact h.imp_left .inl

theorem isWordChar_of_isAlpha {c : Char} (h : c.isAlpha) : isWordChar c := by
  simp [isWordChar, Char.isAlphanum, h]

theorem isWordChar_of_isDigit {c : Char} (h : c.isDigit) : isWordChar c := by
  simp [isWordChar, Char.isAlphanum, h]

theorem isWordStart_eq_false_of_isDigit {c : Char} (h : c.isDigit) : isWordStart c = false := by
  have hne : c ≠ '_' := by
    rintro rfl
    exact absurd h (by decide)
  have hdigit : c.isDigit = (decide ('0'.val ≤ c.val) && decide (c.val ≤ '9'.val)) := rfl
  have hupper : c.isUpper = decide ('A'.val ≤ c.val ∧ c.val ≤ 'Z'.val) := rfl
  have hlower : c.isLower = (decide ('a'.val ≤ c.val) && decide (c.val ≤ 'z'.val)) := rfl
  have halpha : c.isAlpha = (c.isUpper || c.isLower) := rfl
  have hbound : c.val ≤ '9'.val := by
    rw [hdigit, Bool.and_eq_true, decide_eq_true_eq, decide_eq_true_eq] at h
    exact h.2
  have hA : ¬ 'A'.val ≤ c.val := fun hA => absurd (UInt32.le_trans hA hbound) (by decide)
  have ha : ¬ 'a'.val ≤ c.val := fun ha => absurd (UInt32.le_trans ha hbound) (by decide)
  rw [isWordStart, halpha, hupper, hlower, decide_eq_false (fun h => hA h.1), decide_eq_false ha,
    Bool.false_and, Bool.or_false, Bool.false_or, beq_eq_false_iff_ne]
  exact hne

theorem not_mem_of_isWordChar {c : Char} (h : isWordChar c) {cs : List Char}
    (hcs : cs.any isWordChar = false) : c ∉ cs := by
  intro hc
  rw [List.any_eq_false] at hcs
  exact hcs c hc h

theorem isWordChar_of_isWord {start : Char → Bool} (hstart : ∀ c, start c → isWordChar c)
    {cs : List Char} (h : isWord start cs) : ∀ c ∈ cs, isWordChar c := by
  cases cs with
  | nil => exact fun c hc => absurd hc List.not_mem_nil
  | cons first rest =>
    rw [isWord, Bool.and_eq_true, List.all_eq_true] at h
    rw [List.forall_mem_cons]
    exact ⟨hstart first h.1, h.2⟩

theorem isWordChar_of_isIdentifier {s : String} (h : isIdentifier s) :
    ∀ c ∈ s.toList, isWordChar c :=
  isWordChar_of_isWord (fun _ => isWordChar_of_isWordStart) h

theorem toList_ne_nil_of_isIdentifier {s : String} (h : isIdentifier s) : s.toList ≠ [] := by
  intro hs
  rw [isIdentifier, hs] at h
  exact absurd h (by decide)

/-- Every character of a dotted name is a dot or belongs to a word. -/
theorem isWordChar_of_isDotted {start : Char → Bool} (hstart : ∀ c, start c → isWordChar c)
    {inWord : Bool} {cs : List Char} (h : isDotted start inWord cs) :
    ∀ c ∈ cs, c = '.' ∨ isWordChar c := by
  induction cs generalizing inWord with
  | nil => exact fun c hc => absurd hc List.not_mem_nil
  | cons c cs ih =>
    rw [List.forall_mem_cons]
    cases inWord with
    | false =>
      rw [isDotted, Bool.and_eq_true] at h
      exact ⟨.inr (hstart c h.1), ih h.2⟩
    | true =>
      rw [isDotted] at h
      by_cases hdot : c = '.'
      · rw [if_pos (by simpa using hdot)] at h
        exact ⟨.inl hdot, ih h⟩
      · rw [if_neg (by simpa using hdot), Bool.and_eq_true] at h
        exact ⟨.inr h.1, ih h.2⟩

end StreamSql.Text
