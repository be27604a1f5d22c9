import Mathlib.Computability.Language
import StreamSql.Text.Blank
import StreamSql.Text.Name

/-!
# Dotted names

A dotted name is read in one pass that only knows whether a word has begun. Two other readings agree
with it on every text: that the text, cut at its dots, has words for parts, and that it belongs to
the language of the pattern `word(.word)*`. Main result: a qualified name is one whose parts are
identifiers, in a describable name no part opens with an underscore besides, and neither has an
empty part or a character that means something outside of names.
-/
namespace StreamSql.Text

open Computability

/-- The parts between the dots. A text without dots is its only part. -/
def components (s : String) : List String :=
  (s.split '.').toList.map String.Slice.copy

theorem forall_mem_components {P : String → Prop} {s : String} :
    (∀ part ∈ components s, P part) ↔ ∀ part ∈ s.toList.splitOn '.', P (String.ofList part) := by
  rw [components, String.toList_split_char, List.forall_mem_map]

section Cutting

variable {start : Char → Bool}

/-- The first part goes on with the word that has begun, or is a word; all others are words. -/
theorem isDotted_iff_of_splitOn (hstart : start '.' = false) {cs part : List Char}
    {parts : List (List Char)} (h : cs.splitOn '.' = part :: parts) :
    (isDotted start true cs ↔ part.all isWordChar ∧ ∀ p ∈ parts, isWord start p) ∧
      (isDotted start false cs ↔ isWord start part ∧ ∀ p ∈ parts, isWord start p) := by
  induction cs generalizing part parts with
  | nil =>
    obtain ⟨rfl, rfl⟩ : [] = part ∧ [] = parts := by simpa using h
    simp [isDotted, isWord]
  | cons c cs ih =>
    obtain ⟨first, rest, hcs⟩ := List.exists_cons_of_ne_nil (List.splitOn_ne_nil '.' cs)
    obtain ⟨htrue, hfalse⟩ := ih hcs
    rw [List.splitOn_cons_eq_if_modifyHead, hcs] at h
    by_cases hdot : c = '.'
    · -- The dot ends a part, and a word begins behind it.
      subst hdot
      obtain ⟨rfl, rfl⟩ : [] = part ∧ first :: rest = parts := by simpa using h
      simp [isDotted, isWord, hstart, hfalse]
    · obtain ⟨rfl, rfl⟩ : c :: first = part ∧ rest = parts := by simpa [hdot] using h
      simp [isDotted, isWord, hdot, htrue, and_assoc]

theorem isDotted_iff_forall_splitOn (hstart : start '.' = false) (cs : List Char) :
    isDotted start false cs ↔ ∀ part ∈ cs.splitOn '.', isWord start part := by
  obtain ⟨part, parts, h⟩ := List.exists_cons_of_ne_nil (List.splitOn_ne_nil '.' cs)
  rw [(isDotted_iff_of_splitOn hstart h).2, h, List.forall_mem_cons]

theorem isQualified_iff_forall_components (s : String) :
    isQualified s ↔ ∀ part ∈ components s, isIdentifier part := by
  rw [isQualified, isDotted_iff_forall_splitOn (by decide), forall_mem_components]
  simp only [isIdentifier, String.toList_ofList]

theorem isAlpha_iff_isWordStart {c : Char} : c.isAlpha ↔ isWordStart c ∧ c ≠ '_' := by
  have hunderscore : c.isAlpha → c ≠ '_' := by
    rintro h rfl
    exact absurd h (by decide)
  rw [isWordStart, Bool.or_eq_true, beq_iff_eq]
  tauto

theorem isWord_isAlpha_iff {cs : List Char} :
    isWord Char.isAlpha cs ↔ isWord isWordStart cs ∧ cs.head? ≠ some '_' := by
  cases cs with
  | nil => simp [isWord]
  | cons c cs =>
    simp only [isWord, Bool.and_eq_true, isAlpha_iff_isWordStart, List.head?_cons, ne_eq,
      Option.some.injEq]
    tauto

theorem isDescribable_iff_forall_components (s : String) :
    isDescribable s ↔
      ∀ part ∈ components s, isIdentifier part ∧ part.toList.head? ≠ some '_' := by
  rw [isDescribable, isDotted_iff_forall_splitOn (by decide), forall_mem_components]
  simp only [isIdentifier, String.toList_ofList, isWord_isAlpha_iff]

theorem isQualified_of_isDescribable {s : String} (h : isDescribable s) : isQualified s :=
  (isQualified_iff_forall_components s).2 fun part hpart =>
    ((isDescribable_iff_forall_components s).1 h part hpart).1

end Cutting

section Patterns

/-- The texts of one character of a class. -/
def oneOf (p : Char → Bool) : Language Char :=
  {text | ∃ c, p c ∧ text = [c]}

/-- A character of the class `start`, then any number of word characters. -/
def wordPattern (start : Char → Bool) : Language Char :=
  oneOf start * (oneOf isWordChar)∗

/-- A word, then any number of words behind a dot each. -/
def dottedPattern (start : Char → Bool) : Language Char :=
  wordPattern start * (oneOf (· == '.') * wordPattern start)∗

variable {start p : Char → Bool} {cs : List Char}

theorem mem_oneOf_mul {l : Language Char} :
    cs ∈ oneOf p * l ↔ ∃ c rest, p c ∧ rest ∈ l ∧ cs = c :: rest := by
  rw [Language.mem_mul]
  constructor
  · rintro ⟨_, ⟨c, hc, rfl⟩, rest, hrest, rfl⟩
    exact ⟨c, rest, hc, hrest, rfl⟩
  · rintro ⟨c, rest, hc, hrest, rfl⟩
    exact ⟨[c], ⟨c, hc, rfl⟩, rest, hrest, rfl⟩

theorem mem_kstar_oneOf : cs ∈ (oneOf p)∗ ↔ ∀ c ∈ cs, p c := by
  rw [Language.mem_kstar]
  constructor
  · rintro ⟨pieces, rfl, hpieces⟩ c hc
    obtain ⟨piece, hpiece, hmem⟩ := List.mem_flatten.1 hc
    obtain ⟨d, hd, rfl⟩ := hpieces piece hpiece
    rwa [List.mem_singleton.1 hmem]
  · intro h
    exact ⟨cs.map ([·]), (List.flatMap_singleton' cs).symm,
      List.forall_mem_map.2 fun c hc => ⟨c, h c hc, rfl⟩⟩

theorem mem_wordPattern : cs ∈ wordPattern start ↔ isWord start cs := by
  rw [wordPattern, mem_oneOf_mul]
  simp only [mem_kstar_oneOf]
  cases cs with
  | nil => simp [isWord]
  | cons c cs => simp [isWord]

theorem mem_dot_mul_wordPattern :
    cs ∈ oneOf (· == '.') * wordPattern start ↔ ∃ w, isWord start w ∧ '.' :: w = cs := by
  simp only [mem_oneOf_mul, mem_wordPattern, beq_iff_eq]
  constructor
  · rintro ⟨_, w, rfl, hw, rfl⟩
    exact ⟨w, hw, rfl⟩
  · rintro ⟨w, hw, rfl⟩
    exact ⟨'.', w, rfl, hw, rfl⟩

theorem mem_kstar_dot_mul_wordPattern :
    cs ∈ (oneOf (· == '.') * wordPattern start)∗ ↔
      ∃ words : List (List Char),
        (∀ w ∈ words, isWord start w) ∧ cs = words.flatMap ('.' :: ·) := by
  simp only [Language.mem_kstar, mem_dot_mul_wordPattern]
  constructor
  · rintro ⟨pieces, rfl, hpieces⟩
    induction pieces with
    | nil => exact ⟨[], by simp, rfl⟩
    | cons piece pieces ih =>
      rw [List.forall_mem_cons] at hpieces
      obtain ⟨w, hw, rfl⟩ := hpieces.1
      obtain ⟨words, hwords, heq⟩ := ih hpieces.2
      exact ⟨w :: words, List.forall_mem_cons.2 ⟨hw, hwords⟩, by simp [heq]⟩
  · rintro ⟨words, hwords, rfl⟩
    exact ⟨words.map ('.' :: ·), rfl,
      List.forall_mem_map.2 fun w hw => ⟨w, hwords w hw, rfl⟩⟩

theorem intercalate_dot_cons (word : List Char) (words : List (List Char)) :
    ['.'].intercalate (word :: words) = word ++ words.flatMap ('.' :: ·) := by
  induction words generalizing word with
  | nil => simp
  | cons next words ih => simp [List.intercalate_cons_cons, ih]

/-- The one pass takes what the pattern describes. -/
theorem mem_dottedPattern (hstart : ∀ c, start c → isWordChar c) :
    cs ∈ dottedPattern start ↔ isDotted start false cs := by
  have hword : ∀ w, isWord start w → '.' ∉ w :=
    fun w hw hdot => absurd (isWordChar_of_isWord hstart hw '.' hdot) (by decide)
  have hdot : start '.' = false :=
    Bool.eq_false_iff.2 fun h => absurd (hstart '.' h) (by decide)
  rw [isDotted_iff_forall_splitOn hdot, dottedPattern, Language.mem_mul]
  simp only [mem_wordPattern, mem_kstar_dot_mul_wordPattern]
  constructor
  · rintro ⟨word, hw, _, ⟨words, hwords, rfl⟩, rfl⟩
    have hall : ∀ w ∈ word :: words, isWord start w := List.forall_mem_cons.2 ⟨hw, hwords⟩
    rw [← intercalate_dot_cons, List.splitOn_intercalate '.' (fun w hw => hword w (hall w hw))
      (List.cons_ne_nil _ _)]
    exact hall
  · intro h
    obtain ⟨word, words, hsplit⟩ := List.exists_cons_of_ne_nil (List.splitOn_ne_nil '.' cs)
    rw [hsplit, List.forall_mem_cons] at h
    refine ⟨word, h.1, _, ⟨words, h.2, rfl⟩, ?_⟩
    rw [← intercalate_dot_cons, ← hsplit, List.intercalate_splitOn]

/-- The three kinds of names are what their patterns describe, from the first character of a text
to the last. -/
theorem names_mem_patterns (s : String) :
    (isIdentifier s ↔ s.toList ∈ wordPattern isWordStart) ∧
      (isQualified s ↔ s.toList ∈ dottedPattern isWordStart) ∧
      (isDescribable s ↔ s.toList ∈ dottedPattern Char.isAlpha) := by
  refine ⟨mem_wordPattern.symm, ?_, ?_⟩
  · exact (mem_dottedPattern fun _ => isWordChar_of_isWordStart).symm
  · exact (mem_dottedPattern fun _ => isWordChar_of_isAlpha).symm

end Patterns

section Characters

/-- Quotes, the terminator and brackets. -/
def marks : List Char :=
  ['\'', '"', '\x60', ';', '(', ')', '[', ']', '\x7b', '\x7d', '<', '>']

theorem isBlankChar_eq_false_of_isWordChar {c : Char} (h : isWordChar c) :
    isBlankChar c = false := by
  rw [isWordChar, Char.isAlphanum, Bool.or_eq_true, Bool.or_eq_true, beq_iff_eq] at h
  rcases h with (halpha | hdigit) | rfl
  · exact isBlankChar_eq_false_of_isAlpha halpha
  · exact isBlankChar_eq_false_of_isDigit hdigit
  · decide

/-- Every character of a dotted name is a dot or stands in a word, and it could not be read as
anything else. -/
theorem harmless_of_isDotted {start : Char → Bool} (hstart : ∀ c, start c → isWordChar c)
    {cs : List Char} (h : isDotted start false cs) :
    ∀ c ∈ cs, (c = '.' ∨ isWordChar c) ∧ isBlankChar c = false ∧ c ∉ marks := by
  intro c hc
  rcases isWordChar_of_isDotted hstart h c hc with rfl | hword
  · exact ⟨.inl rfl, by decide, by decide⟩
  · exact ⟨.inr hword, isBlankChar_eq_false_of_isWordChar hword,
      not_mem_of_isWordChar hword (by decide)⟩

end Characters

/-- Qualified names are identifiers joined by dots; in describable ones none of them opens with an
underscore. Neither kind has an empty part, blanks, quotes, terminators or brackets. -/
theorem dottedNames_are_identifiers (s : String) :
    (isQualified s ↔ ∀ part ∈ components s, isIdentifier part) ∧
      (isDescribable s ↔
        (∀ part ∈ components s, isIdentifier part) ∧
          ∀ part ∈ components s, part.toList.head? ≠ some '_') ∧
      (isQualified s ∨ isDescribable s →
        (∀ part ∈ components s, part ≠ "") ∧
          ∀ c ∈ s.toList, (c = '.' ∨ isWordChar c) ∧ isBlankChar c = false ∧ c ∉ marks) := by
  refine ⟨isQualified_iff_forall_components s, ?_, ?_⟩
  · rw [isDescribable_iff_forall_components, ← forall₂_and]
  intro h
  have hqualified : isQualified s := h.elim id isQualified_of_isDescribable
  constructor
  · rintro part hpart rfl
    exact absurd ((isQualified_iff_forall_components s).1 hqualified "" hpart) (by decide)
  · exact harmless_of_isDotted (fun _ => isWordChar_of_isWordStart) hqualified

theorem underscored_are_identifiers :
    (isQualified "db._orders" ∧ ∀ part ∈ components "db._orders", isIdentifier part) ∧
      ¬isDescribable "db._orders" ∧ (∀ part ∈ components "db._orders", part ≠ "") ∧
      ∀ c ∈ "db._orders".toList, (c = '.' ∨ isWordChar c) ∧ isBlankChar c = false ∧ c ∉ marks := by
  have hqualified : isQualified "db._orders" := by decide
  obtain ⟨hparts, -, hharmless⟩ := dottedNames_are_identifiers "db._orders"
  exact ⟨⟨hqualified, hparts.1 hqualified⟩, by decide, hharmless (.inl hqualified)⟩

example : ¬isQualified "orders.\n" ∧ ¬isQualified "orders\n" ∧ ¬isQualified "db..orders" ∧
    ¬isQualified ".orders" ∧ ¬isQualified "db.2orders" ∧ ¬isQualified "" := by decide

end StreamSql.Text
