import Mathlib.Data.List.DropRight
import StreamSql.Text.Blank
import StreamSql.Text.Split

/-!
# Cutting at separators that were put there

A text is cut where its writer put the separator, unless the separator occurs before the first cut
or behind the last one. Behind the last one there is often a number, in which only digits stand.
-/
namespace StreamSql.Text

theorem dropTrailing_eq_rdropWhile (p : Char → Bool) (cs : List Char) :
    dropTrailing p cs = cs.rdropWhile p := rfl

theorem dropWhile_append_cons {p : Char → Bool} {c : Char} (h : ¬p c) (before after : List Char) :
    (before ++ c :: after).dropWhile p = before.dropWhile p ++ c :: after := by
  rw [List.dropWhile_append]
  split
  · next hempty => rw [List.isEmpty_iff.1 hempty, List.dropWhile_cons_of_neg h, List.nil_append]
  · rfl

/-- A character outside the class protects everything before it. -/
theorem dropTrailing_append_cons {p : Char → Bool} {c : Char} (h : ¬p c)
    (before after : List Char) :
    dropTrailing p (before ++ c :: after) = before ++ c :: dropTrailing p after := by
  simp only [dropTrailing, List.reverse_append, List.reverse_cons, List.append_assoc,
    List.singleton_append, dropWhile_append_cons h, List.reverse_reverse]

theorem dropTrailing_eq_self {p : Char → Bool} {cs : List Char} (h : ∀ c ∈ cs, ¬p c) :
    dropTrailing p cs = cs := by
  rw [dropTrailing_eq_rdropWhile, List.rdropWhile_eq_self_iff]
  exact fun hne => h _ (List.getLast_mem hne)

theorem dropTrailing_append_of_forall {p : Char → Bool} {after : List Char} (h : ∀ c ∈ after, p c)
    (before : List Char) : dropTrailing p (before ++ after) = dropTrailing p before := by
  rw [dropTrailing, dropTrailing, List.reverse_append, List.dropWhile_append_of_pos]
  exact fun c hc => h c (List.mem_reverse.1 hc)

theorem exists_dropTrailing_append (p : Char → Bool) (cs : List Char) :
    ∃ dropped, dropTrailing p cs ++ dropped = cs ∧ ∀ c ∈ dropped, p c :=
  ⟨cs.rtakeWhile p, List.rdropWhile_append_rtakeWhile, fun _ => List.mem_rtakeWhile_imp⟩

theorem mem_of_mem_dropTrailing {p : Char → Bool} {cs : List Char} {c : Char}
    (h : c ∈ dropTrailing p cs) : c ∈ cs :=
  (List.rdropWhile_prefix p cs).mem h

theorem length_dropTrailing_le (p : Char → Bool) (cs : List Char) :
    (dropTrailing p cs).length ≤ cs.length :=
  (List.rdropWhile_prefix p cs).length_le

/-- What is kept does not end in a character of the class. -/
theorem getLast_dropTrailing_not {p : Char → Bool} {cs before : List Char} {c : Char}
    (h : dropTrailing p cs = before ++ [c]) : ¬p c := by
  have hlast := List.rdropWhile_last_not p cs (by
    rw [← dropTrailing_eq_rdropWhile, h]
    exact List.concat_ne_nil _ _)
  simpa only [← dropTrailing_eq_rdropWhile, h, List.getLast_concat] using hlast

/-- The first character of a separator is enough to tell that it has not begun. -/
theorem splitFirst?_append {c : Char} {before : List Char} (h : c ∉ before)
    (separator after : List Char) :
    splitFirst? (c :: separator) (before ++ c :: (separator ++ after)) = some (before, after) := by
  induction before with
  | nil =>
    have hprefix : (c :: separator).isPrefixOf (c :: (separator ++ after)) :=
      List.isPrefixOf_iff_prefix.2 ⟨after, rfl⟩
    rw [List.nil_append, splitFirst?, if_pos hprefix, List.length_cons, List.drop_succ_cons,
      List.drop_left]
  | cons d before ih =>
    rw [List.mem_cons, not_or] at h
    have hprefix : ¬(c :: separator).isPrefixOf (d :: (before ++ c :: (separator ++ after))) := by
      simp [List.isPrefixOf, h.1]
    rw [List.cons_append, splitFirst?, if_neg hprefix, ih h.2, Option.map_some]

theorem splitLast?_eq_none {c : Char} {cs : List Char} (h : c ∉ cs) : splitLast? c cs = none := by
  induction cs with
  | nil => rfl
  | cons d cs ih =>
    rw [List.mem_cons, not_or] at h
    rw [splitLast?, ih h.2]
    exact if_neg (Ne.symm h.1)

theorem splitLast?_append {c : Char} {after : List Char} (h : c ∉ after) (before : List Char) :
    splitLast? c (before ++ c :: after) = some (before, after) := by
  induction before with
  | nil =>
    rw [List.nil_append, splitLast?, splitLast?_eq_none h]
    exact if_pos rfl
  | cons d before ih => rw [List.cons_append, splitLast?, ih]

/-- No separator that is not a digit stands in a number. -/
theorem not_mem_toString {c : Char} (h : ¬c.isDigit) (n : Nat) : c ∉ (toString n).toList := by
  rw [Nat.toString_eq_repr, Nat.toList_repr]
  exact fun hc => h (Nat.isDigit_of_mem_toDigits (by decide) (by decide) hc)

theorem ofDigitChars_toString (n : Nat) : Nat.ofDigitChars 10 (toString n).toList 0 = n := by
  rw [Nat.toString_eq_repr, Nat.toList_repr, Nat.ofDigitChars_ten_toDigits]

end StreamSql.Text
