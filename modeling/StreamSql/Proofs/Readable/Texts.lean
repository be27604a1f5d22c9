import StreamSql.Keyword
import StreamSql.Text.Name
import StreamSql.Text.Parts
import StreamSql.Text.Quoted

/-!
# Readable texts

A text is readable among others if, whatever rests follow them, equal wholes mean that the texts
show the same and the rests are the same. Which rests may follow is part of the notion: most texts
end only where a character comes that could not go on with them.
-/
namespace StreamSql

namespace Text

/-- The rest does not go on with a character of the class. -/
def Ends (p : Char → Bool) (rest : List Char) : Prop :=
  ∀ c ∈ rest.head?, p c = false

@[simp] theorem ends_nil (p : Char → Bool) : Ends p [] := by
  simp [Ends]

@[simp] theorem ends_cons {p : Char → Bool} {c : Char} {cs : List Char} :
    Ends p (c :: cs) ↔ p c = false := by
  simp [Ends]

theorem Ends.mono {p q : Char → Bool} {rest : List Char} (h : Ends p rest)
    (hpq : ∀ c, q c → p c) : Ends q rest := by
  intro c hc
  cases hq : q c with
  | false => rfl
  | true => exact absurd (hpq c hq) (by simp [h c hc])

/-- The longest beginning in a class is determined. -/
theorem append_inj_of_ends {p : Char → Bool} {u v r s : List Char} (hu : ∀ c ∈ u, p c)
    (hv : ∀ c ∈ v, p c) (hr : Ends p r) (hs : Ends p s) (h : u ++ r = v ++ s) :
    u = v ∧ r = s := by
  have hspan : ∀ {w rest : List Char}, (∀ c ∈ w, p c) → Ends p rest →
      (w ++ rest).takeWhile p = w := by
    intro w rest hw hrest
    rw [List.takeWhile_append_of_pos hw]
    cases rest with
    | nil => simp
    | cons c cs => simp [ends_cons.mp hrest]
  have huv : u = v := by
    rw [← hspan hu hr, h, hspan hv hs]
  subst huv
  exact ⟨rfl, List.append_cancel_left h⟩

theorem append_ne_cons {p : Char → Bool} {u : List Char} (hne : u ≠ []) (hu : ∀ c ∈ u, p c)
    {c : Char} (hc : p c = false) (r s : List Char) : u ++ r ≠ c :: s := by
  obtain ⟨first, rest, rfl⟩ := List.exists_cons_of_ne_nil hne
  intro heq
  have hfirst := hu first List.mem_cons_self
  rw [List.cons_append, List.cons.injEq] at heq
  rw [heq.1, hc] at hfirst
  exact absurd hfirst (by decide)

/-- Texts that open with different characters differ. -/
theorem append_ne_of_head {u v : List Char} (hu : u ≠ []) (hv : v ≠ []) (h : u.head? ≠ v.head?)
    (r s : List Char) : u ++ r ≠ v ++ s := by
  obtain ⟨c, u, rfl⟩ := List.exists_cons_of_ne_nil hu
  obtain ⟨d, v, rfl⟩ := List.exists_cons_of_ne_nil hv
  intro heq
  rw [List.cons_append, List.cons_append, List.cons.injEq] at heq
  exact h (congrArg some heq.1)

/-- No word is the beginning of another one, unless that goes on with a character of the class. -/
def Apart (p : Char → Bool) (words : List (List Char)) : Prop :=
  ∀ u ∈ words, ∀ v ∈ words, u <+: v → u = v ∨ (v.drop u.length).head?.any p

instance (p : Char → Bool) (words : List (List Char)) : Decidable (Apart p words) :=
  inferInstanceAs (Decidable (∀ u ∈ words, ∀ v ∈ words,
    u <+: v → u = v ∨ (v.drop u.length).head?.any p))

theorem Apart.append_inj {p : Char → Bool} {words : List (List Char)} (h : Apart p words)
    {u v r s : List Char} (hu : u ∈ words) (hv : v ∈ words) (hr : Ends p r) (hs : Ends p s)
    (heq : u ++ r = v ++ s) : u = v ∧ r = s := by
  have hone : ∀ {u v r s : List Char}, u ∈ words → v ∈ words → Ends p r → u ++ r = v ++ s →
      u <+: v → u = v := by
    intro u v r s hu hv hr heq hprefix
    rcases h u hu v hv hprefix with huv | hgoes
    · exact huv
    · obtain ⟨c, hc, hp⟩ := (Option.any_eq_true _ _).mp hgoes
      obtain ⟨rest, rfl⟩ := hprefix
      rw [List.append_assoc] at heq
      rw [List.append_cancel_left heq] at hr
      rw [List.drop_left] at hc
      have hhead : c ∈ (rest ++ s).head? := by
        cases rest with
        | nil => exact absurd hc (by simp)
        | cons first rest => exact hc
      rw [hr c hhead] at hp
      exact absurd hp (by decide)
  have huv : u = v := by
    rcases List.prefix_or_prefix_of_prefix (List.prefix_append u r)
      (heq ▸ List.prefix_append v s) with hprefix | hprefix
    · exact hone hu hv hr heq hprefix
    · exact (hone hv hu hs heq.symm hprefix).symm
  subst huv
  exact ⟨rfl, List.append_cancel_left heq⟩

end Text

open Text

/-- The tokens of a family are told apart by what follows them. -/
theorem Keyword.token_append_inj {α : Type} [Keyword α] {p : Char → Bool}
    (h : Apart p ((all : List α).map fun a => (token a).toList)) {a b : α} {r s : List Char}
    (hr : Ends p r) (hs : Ends p s) (heq : (token a).toList ++ r = (token b).toList ++ s) :
    a = b ∧ r = s := by
  have hmem : ∀ a : α, (token a).toList ∈ (all : List α).map fun a => (token a).toList :=
    fun a => List.mem_map_of_mem (mem_all a)
  obtain ⟨htoken, hrest⟩ := h.append_inj (hmem a) (hmem b) hr hs heq
  exact ⟨eq_of_token_eq (String.toList_inj.mp htoken), hrest⟩

/-- Among the texts of the values in `A`, that of `a` can be read. -/
def Readable {α κ : Type} (A : α → Prop) (text : α → String) (shown : α → κ)
    (Follows : List Char → Prop) (a : α) : Prop :=
  ∀ b r s, A b → Follows r → Follows s → (text a).toList ++ r = (text b).toList ++ s →
    shown a = shown b ∧ r = s

section Quotes

/-- Reads from behind an opening quote to behind the closing one: what was quoted, and the rest. -/
def Text.unquote : List Char → List Char × List Char
  | [] => ([], [])
  | c :: cs =>
    if c = '\'' then
      match cs with
      | [] => ([], [])
      | d :: ds =>
        if d = '\'' then ('\'' :: (unquote ds).1, (unquote ds).2) else ([], d :: ds)
    else (c :: (unquote cs).1, (unquote cs).2)

theorem Text.unquote_doubleQuotes (v : List Char) {r : List Char} (hr : Ends (· == '\'') r) :
    unquote (doubleQuotes v ++ '\'' :: r) = (v, r) := by
  induction v with
  | nil =>
    cases r with
    | nil => rfl
    | cons d ds =>
      have hd : d ≠ '\'' := by simpa using hr
      simp [doubleQuotes, unquote, hd]
  | cons c v ih =>
    by_cases hc : c = '\''
    · simp [doubleQuotes, unquote, hc, ih]
    · rw [doubleQuotes, if_neg hc, List.cons_append]
      unfold unquote
      rw [if_neg hc, ih]

/-- A quoted text ends where no further quote follows. -/
theorem Text.quote_append_inj {v w : String} {r s : List Char} (hr : Ends (· == '\'') r)
    (hs : Ends (· == '\'') s) (h : (quote v).toList ++ r = (quote w).toList ++ s) :
    v = w ∧ r = s := by
  have htext : ∀ (v : String) (r : List Char),
      (quote v).toList ++ r = '\'' :: (doubleQuotes v.toList ++ '\'' :: r) := by
    intro v r
    simp [quote]
  rw [htext, htext] at h
  have hread := congrArg unquote (List.cons.inj h).2
  rw [unquote_doubleQuotes _ hr, unquote_doubleQuotes _ hs] at hread
  obtain ⟨hv, hrest⟩ := Prod.mk.inj hread
  exact ⟨String.toList_inj.mp hv, hrest⟩

end Quotes

section Atoms

/-- A flag is read where no rest begins with its word. -/
theorem Text.flag_append_inj {word : String} {a b : Bool} {r s : List Char}
    (hr : ∀ t, word.toList ++ t ≠ r) (hs : ∀ t, word.toList ++ t ≠ s)
    (h : (flag word a).toList ++ r = (flag word b).toList ++ s) : a = b ∧ r = s := by
  cases a with
  | false =>
    cases b with
    | false => exact ⟨rfl, h⟩
    | true => exact absurd h.symm (hr s)
  | true =>
    cases b with
    | false => exact absurd h (hs r)
    | true => exact ⟨rfl, List.append_cancel_left h⟩

/-- The characters that could go on with a name, a whole number or an operator. -/
def Text.continues (c : Char) : Bool :=
  isWordChar c || c == '-' || c == '='

theorem Text.continues_of_isWordChar {c : Char} (h : isWordChar c) : continues c := by
  rw [continues, h]
  rfl

/-- A whole number is a digit and more of them, perhaps behind a sign. -/
theorem Text.toString_int_cases (n : Int) :
    ∃ digits : List Char, (∀ c ∈ digits, c.isDigit) ∧ digits ≠ [] ∧
      (Nat.ofDigitChars 10 digits 0 = n ∧ (toString n).toList = digits ∨
        -(Nat.ofDigitChars 10 digits 0 : Int) = n ∧ (toString n).toList = '-' :: digits) := by
  refine ⟨Nat.toDigits 10 n.natAbs, ?_, Nat.toDigits_ne_nil, ?_⟩
  · exact fun c hc => Nat.isDigit_of_mem_toDigits (by decide) (by decide) hc
  · rw [Nat.ofDigitChars_ten_toDigits, Int.toString_eq_repr]
    cases n with
    | ofNat n =>
      left
      exact ⟨rfl, Nat.toList_repr⟩
    | negSucc n =>
      right
      refine ⟨rfl, ?_⟩
      rw [← Nat.toList_repr]
      exact String.toList_append

theorem Text.toString_int_ne_nil (n : Int) : (toString n).toList ≠ [] := by
  obtain ⟨digits, -, hne, ⟨-, htext⟩ | ⟨-, htext⟩⟩ := toString_int_cases n
  · rw [htext]
    exact hne
  · rw [htext]
    exact List.cons_ne_nil _ _

theorem Text.continues_of_mem_toString (n : Int) : ∀ c ∈ (toString n).toList, continues c := by
  obtain ⟨digits, hdigits, -, ⟨-, htext⟩ | ⟨-, htext⟩⟩ := toString_int_cases n
  · rw [htext]
    exact fun c hc => continues_of_isWordChar (isWordChar_of_isDigit (hdigits c hc))
  · rw [htext, List.forall_mem_cons]
    exact ⟨rfl, fun c hc => continues_of_isWordChar (isWordChar_of_isDigit (hdigits c hc))⟩

theorem Text.toString_int_inj {m n : Int} (h : (toString m).toList = (toString n).toList) :
    m = n := by
  obtain ⟨ds, hds, -, ⟨hm, hdtext⟩ | ⟨hm, hdtext⟩⟩ := toString_int_cases m
  all_goals obtain ⟨es, hes, -, ⟨hn, hetext⟩ | ⟨hn, hetext⟩⟩ := toString_int_cases n
  all_goals rw [hdtext, hetext] at h
  · rw [← hm, ← hn, h]
  · exact absurd (hds '-' (h ▸ List.mem_cons_self)) (by decide)
  · exact absurd (hes '-' (h ▸ List.mem_cons_self)) (by decide)
  · rw [← hm, ← hn, (List.cons.inj h).2]

/-- Numbers open with a digit or a sign, and names do not. -/
theorem Text.not_isIdentifier_toString (n : Int) : ¬ isIdentifier (toString n) := by
  rw [isIdentifier]
  obtain ⟨digits, hdigits, hne, ⟨-, htext⟩ | ⟨-, htext⟩⟩ := toString_int_cases n
  · cases digits with
    | nil => exact absurd rfl hne
    | cons c cs =>
      have hc := isWordStart_eq_false_of_isDigit (hdigits c List.mem_cons_self)
      simp only [htext, isWord, hc, Bool.false_and, Bool.false_eq_true, not_false_eq_true]
  · rw [htext, isWord, show isWordStart '-' = false from rfl]
    simp

end Atoms

section Lists

variable {α κ : Type} {A : α → Prop} {text : α → String} {shown : α → κ}
  {Follows : List Char → Prop} {separator : String} {close : Char}

theorem follows_tail (hseparator : ∀ r, Follows (separator.toList ++ r))
    (hclose : ∀ r, Follows (close :: r)) (l : List α) (r : List Char) :
    Follows (l.flatMap (fun a => separator.toList ++ (text a).toList) ++ close :: r) := by
  cases l with
  | nil => exact hclose r
  | cons a l =>
    rw [List.flatMap_cons, List.append_assoc, List.append_assoc]
    exact hseparator _

/-- Items behind a first one, each after a separator. -/
theorem Readable.tail {l m : List α} (hl : ∀ a ∈ l, Readable A text shown Follows a)
    (hm : ∀ a ∈ m, A a) (hseparator : ∀ r, Follows (separator.toList ++ r))
    (hclose : ∀ r, Follows (close :: r)) (hne : ∀ r s, separator.toList ++ r ≠ close :: s)
    {r s : List Char}
    (h : l.flatMap (fun a => separator.toList ++ (text a).toList) ++ close :: r =
      m.flatMap (fun a => separator.toList ++ (text a).toList) ++ close :: s) :
    l.map shown = m.map shown ∧ r = s := by
  induction l generalizing m with
  | nil =>
    cases m with
    | nil => exact ⟨rfl, (List.cons.inj h).2⟩
    | cons b m =>
      rw [List.flatMap_cons, List.append_assoc, List.append_assoc] at h
      exact absurd h.symm (hne _ _)
  | cons a l ih =>
    cases m with
    | nil =>
      rw [List.flatMap_cons, List.append_assoc, List.append_assoc] at h
      exact absurd h (hne _ _)
    | cons b m =>
      rw [List.forall_mem_cons] at hl hm
      rw [List.flatMap_cons, List.flatMap_cons, List.append_assoc, List.append_assoc,
        List.append_assoc, List.append_assoc] at h
      obtain ⟨hab, hrest⟩ := hl.1 b _ _ hm.1 (follows_tail hseparator hclose l r)
        (follows_tail hseparator hclose m s) (List.append_cancel_left h)
      obtain ⟨hlm, hrs⟩ := ih hl.2 hm.2 hrest
      exact ⟨by rw [List.map_cons, List.map_cons, hab, hlm], hrs⟩

theorem toList_intercalate_cons (separator : String) (text : α → String) (a : α) (l : List α) :
    (String.intercalate separator ((a :: l).map text)).toList =
      (text a).toList ++ l.flatMap fun a => separator.toList ++ (text a).toList := by
  induction l generalizing a with
  | nil => simp
  | cons b l ih =>
    rw [List.map_cons, List.map_cons, String.intercalate_cons_cons, ← List.map_cons,
      String.toList_append, String.toList_append, ih, List.flatMap_cons]
    simp only [List.append_assoc]

/-- A list up to its closing character, which none of the items begins with. -/
theorem Readable.intercalate {l m : List α}
    (hl : ∀ a ∈ l, A a ∧ Readable A text shown Follows a) (hm : ∀ a ∈ m, A a)
    (hseparator : ∀ r, Follows (separator.toList ++ r)) (hclose : ∀ r, Follows (close :: r))
    (hne : ∀ r s, separator.toList ++ r ≠ close :: s)
    (hfirst : ∀ a, A a → ∀ r s, (text a).toList ++ r ≠ close :: s) {r s : List Char}
    (h : (String.intercalate separator (l.map text)).toList ++ close :: r =
      (String.intercalate separator (m.map text)).toList ++ close :: s) :
    l.map shown = m.map shown ∧ r = s := by
  cases l with
  | nil =>
    cases m with
    | nil => exact ⟨rfl, (List.cons.inj h).2⟩
    | cons b m =>
      rw [toList_intercalate_cons, List.append_assoc] at h
      exact absurd h.symm (hfirst b (hm b List.mem_cons_self) _ _)
  | cons a l =>
    cases m with
    | nil =>
      rw [toList_intercalate_cons, List.append_assoc] at h
      exact absurd h (hfirst a (hl a List.mem_cons_self).1 _ _)
    | cons b m =>
      -- Both lists are read as if a separator stood before their first item too.
      apply Readable.tail (fun a ha => (hl a ha).2) hm hseparator hclose hne
      have hcons : ∀ (a : α) (l : List α) (r : List Char),
          (a :: l).flatMap (fun a => separator.toList ++ (text a).toList) ++ close :: r =
            separator.toList ++
              ((String.intercalate separator ((a :: l).map text)).toList ++ close :: r) := by
        intro a l r
        rw [toList_intercalate_cons, List.flatMap_cons]
        simp only [List.append_assoc]
      rw [hcons, hcons, h]

theorem Readable.map_commas {l m : List α} (hl : ∀ a ∈ l, A a ∧ Readable A text shown Follows a)
    (hm : ∀ a ∈ m, A a) (hcomma : ∀ r, Follows (',' :: r)) (hclose : ∀ r, Follows (close :: r))
    (hne : close ≠ ',') (hfirst : ∀ a, A a → ∀ r s, (text a).toList ++ r ≠ close :: s)
    {r s : List Char}
    (h : (Text.commas (l.map text)).toList ++ close :: r =
      (Text.commas (m.map text)).toList ++ close :: s) : l.map shown = m.map shown ∧ r = s := by
  have hseparator : ∀ r, Follows (", ".toList ++ r) := fun r => hcomma (' ' :: r)
  have hdiffer : ∀ r s, ", ".toList ++ r ≠ close :: s :=
    fun r s heq => hne (List.cons.inj heq).1.symm
  exact Readable.intercalate hl hm hseparator hclose hdiffer hfirst h

theorem Readable.commas {l m : List α} (hl : ∀ a ∈ l, A a ∧ Readable A text id Follows a)
    (hm : ∀ a ∈ m, A a) (hcomma : ∀ r, Follows (',' :: r)) (hclose : ∀ r, Follows (close :: r))
    (hne : close ≠ ',') (hfirst : ∀ a, A a → ∀ r s, (text a).toList ++ r ≠ close :: s)
    {r s : List Char}
    (h : (Text.commas (l.map text)).toList ++ close :: r =
      (Text.commas (m.map text)).toList ++ close :: s) : l = m ∧ r = s := by
  have hread := Readable.map_commas hl hm hcomma hclose hne hfirst h
  rwa [List.map_id, List.map_id] at hread

end Lists

end StreamSql
