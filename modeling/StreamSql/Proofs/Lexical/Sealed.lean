import StreamSql.Binary64.Decimal
import StreamSql.Proofs.Lexical.Reading
import StreamSql.Text.Name
import StreamSql.Text.Parts
import StreamSql.Text.Quoted
import StreamSql.Vocabulary

/-!
# Sealed texts

A text is sealed for a reader if reading it outside quotes changes nothing: nothing of it reaches
into the text around it. A reader takes note of quotes and terminators, and perhaps of brackets.
Texts without delimiters are sealed, and so is everything between quotes; joining keeps texts
sealed. A text in brackets is built from the left: its front opens a bracket, sealed texts are
appended, and the bracket is closed.
-/
namespace StreamSql.Lexical

/-- The characters that a reading takes note of. -/
def delimiters : List Char :=
  ['\'', ';', '(', ')', '[', ']']

def Bare (text : String) : Prop :=
  ∀ c ∈ text.toList, c ∉ delimiters

instance (text : String) : Decidable (Bare text) :=
  List.decidableBAll _ _

/-- The text leaves these closing brackets awaited, the latest first. -/
def Opens (closers : List Char) (text : String) : Prop :=
  ∀ awaited, read ⟨false, awaited⟩ text.toList = some ⟨false, closers ++ awaited⟩

/-- What a reader takes note of outside quotes: terminators alone, or brackets as well. -/
inductive Reader where
  | plain | nesting

/-- The text leaves the reader awaiting these closing brackets, if it takes note of them. -/
def Reader.Opens : Reader → List Char → String → Prop
  | .plain, _, text => Closed text
  | .nesting, closers, text => Lexical.Opens closers text

abbrev Reader.Sealed (r : Reader) (text : String) : Prop :=
  r.Opens [] text

variable {r : Reader}

theorem State.step_eq_self {c : Char} (h : c ∉ delimiters) (awaited : List Char) :
    State.step ⟨false, awaited⟩ c = some ⟨false, awaited⟩ := by
  simp only [delimiters, List.mem_cons, List.not_mem_nil, or_false, not_or] at h
  simp [step, h]

theorem closed_of_read {s t : State} {text : String} (hs : s.quoted = false)
    (ht : t.quoted = false) (h : read s text.toList = some t) : Closed text := by
  obtain ⟨hquotes, hterminator, -⟩ := (read_eq_some_iff _ _ _).mp h
  rw [hs, ht] at hquotes
  rw [hs] at hterminator
  exact ⟨hquotes, hterminator⟩

/-- A reader that takes note of less finds nothing more. -/
theorem Reader.Opens.of {closers : List Char} {text : String} (h : Lexical.Opens closers text) :
    r.Opens closers text := by
  cases r with
  | plain => exact closed_of_read rfl rfl (h [])
  | nesting => exact h

theorem Bare.sealed {text : String} (h : Bare text) : r.Sealed text := by
  refine Reader.Opens.of fun awaited => ?_
  unfold Bare at h
  generalize text.toList = cs at h
  induction cs with
  | nil => rfl
  | cons c cs ih =>
    obtain ⟨hc, hcs⟩ := List.forall_mem_cons.mp h
    rw [read_cons, State.step_eq_self hc]
    exact ih hcs

theorem Bare.append {s t : String} (hs : Bare s) (ht : Bare t) : Bare (s ++ t) := by
  intro c hc
  rw [String.toList_append, List.mem_append] at hc
  exact hc.elim (hs c) (ht c)

section Joining

theorem sealed_empty : r.Sealed "" :=
  Reader.Opens.of fun _ => rfl

namespace Reader.Opens

variable {closers closers' : List Char} {s t : String}

/-- A text that reads through the brackets opened before it. -/
theorem pass (hs : r.Opens closers s)
    (ht : ∀ awaited,
      read ⟨false, closers ++ awaited⟩ t.toList = some ⟨false, closers' ++ awaited⟩) :
    r.Opens closers' (s ++ t) := by
  cases r with
  | plain => exact Closed.append hs (closed_of_read rfl rfl (ht []))
  | nesting =>
    intro awaited
    rw [String.toList_append, read_append, hs awaited]
    exact ht awaited

theorem append (hs : r.Opens closers s) (ht : r.Sealed t) : r.Opens closers (s ++ t) := by
  cases r with
  | plain => exact Closed.append hs ht
  | nesting => exact hs.pass fun awaited => ht (closers ++ awaited)

theorem append_bare (hs : r.Opens closers s) (ht : Bare t) : r.Opens closers (s ++ t) :=
  hs.append ht.sealed

theorem «open» {closer : Char} (hs : r.Opens closers s) (ht : r.Opens [closer] t) :
    r.Opens (closer :: closers) (s ++ t) := by
  cases r with
  | plain => exact Closed.append hs ht
  | nesting => exact hs.pass fun awaited => ht (closers ++ awaited)

theorem close (h : r.Opens (')' :: closers) s) : r.Opens closers (s ++ ")") :=
  h.pass fun _ => rfl

theorem closeSquare (h : r.Opens (']' :: closers) s) : r.Opens closers (s ++ "]") :=
  h.pass fun _ => rfl

end Reader.Opens

theorem Bare.append_sealed {s t : String} (hs : Bare s) (ht : r.Sealed t) : r.Sealed (s ++ t) :=
  hs.sealed.append ht

theorem sealed_space : r.Sealed " " :=
  Bare.sealed (by decide)

theorem opens_round : r.Opens [')'] "(" :=
  Reader.Opens.of fun _ => rfl

theorem opens_square : r.Opens [']'] "[" :=
  Reader.Opens.of fun _ => rfl

theorem sealed_intercalate {separator : String} {parts : List String} (hs : r.Sealed separator)
    (h : ∀ part ∈ parts, r.Sealed part) : r.Sealed (String.intercalate separator parts) := by
  induction parts with
  | nil => exact sealed_empty
  | cons part parts ih =>
    obtain ⟨hpart, hparts⟩ := List.forall_mem_cons.mp h
    cases parts with
    | nil => exact hpart
    | cons next parts =>
      rw [String.intercalate_cons_cons]
      exact (hpart.append hs).append (ih hparts)

theorem sealed_commas {parts : List String} (h : ∀ part ∈ parts, r.Sealed part) :
    r.Sealed (Text.commas parts) :=
  sealed_intercalate (Bare.sealed (by decide)) h

theorem sealed_words {parts : List String} (h : ∀ part ∈ parts, r.Sealed part) :
    r.Sealed (Text.words parts) :=
  sealed_intercalate (Bare.sealed (by decide)) h

theorem sealed_optional {α : Type} {text : α → String} {o : Option α}
    (h : ∀ a ∈ o, r.Sealed (text a)) : r.Sealed (Text.optional text o) := by
  cases o with
  | none => exact sealed_empty
  | some a => exact h a rfl

/-- The parts that a present value adds to a list. -/
theorem sealed_present {α : Type} {text : α → String} {o : Option α}
    (h : ∀ a ∈ o, r.Sealed (text a)) : ∀ part ∈ (o.map text).toList, r.Sealed part := by
  intro part hpart
  rw [Option.mem_toList, Option.map_eq_some_iff] at hpart
  obtain ⟨a, ha, rfl⟩ := hpart
  exact h a ha

theorem sealed_flag {word : String} (h : r.Sealed word) (b : Bool) :
    r.Sealed (Text.flag word b) := by
  cases b with
  | false => exact sealed_empty
  | true => exact h

end Joining

section Quotes

theorem read_quoted {cs : List Char} (h : '\'' ∉ cs) (awaited : List Char) :
    read ⟨true, awaited⟩ cs = some ⟨true, awaited⟩ := by
  induction cs with
  | nil => rfl
  | cons c cs ih =>
    rw [List.mem_cons, not_or] at h
    have hstep : State.step ⟨true, awaited⟩ c = some ⟨true, awaited⟩ := by
      simp [State.step, Ne.symm h.1]
    rw [read_cons, hstep]
    exact ih h.2

/-- A doubled quote ends the quotes and begins them again. -/
theorem read_doubleQuotes (cs awaited : List Char) :
    read ⟨true, awaited⟩ (Text.doubleQuotes cs) = some ⟨true, awaited⟩ := by
  induction cs with
  | nil => rfl
  | cons c cs ih =>
    unfold Text.doubleQuotes
    by_cases h : c = '\''
    · rw [if_pos h]
      exact ih
    · have hstep : State.step ⟨true, awaited⟩ c = some ⟨true, awaited⟩ := by
        simp [State.step, h]
      rw [if_neg h, read_cons, hstep]
      exact ih

theorem sealed_between_quotes {text : String} (h : '\'' ∉ text.toList) :
    r.Sealed ("'" ++ text ++ "'") := by
  refine Reader.Opens.of fun awaited => ?_
  simp [read_append, read_quoted h, State.step]

theorem sealed_quote (text : String) : r.Sealed (Text.quote text) := by
  refine Reader.Opens.of fun awaited => ?_
  simp [Text.quote, read_append, read_doubleQuotes, State.step]

end Quotes

section Names

theorem not_mem_delimiters_of_isWordChar {c : Char} (h : Text.isWordChar c) :
    c ∉ delimiters :=
  Text.not_mem_of_isWordChar h (by decide)

theorem bare_of_isIdentifier {name : String} (h : Text.isIdentifier name) : Bare name :=
  fun c hc => not_mem_delimiters_of_isWordChar (Text.isWordChar_of_isIdentifier h c hc)

theorem bare_of_isDotted {start : Char → Bool} (hstart : ∀ c, start c → Text.isWordChar c)
    {name : String} (h : Text.isDotted start false name.toList) : Bare name := by
  intro c hc
  rcases Text.isWordChar_of_isDotted hstart h c hc with rfl | hword
  · decide
  · exact not_mem_delimiters_of_isWordChar hword

theorem bare_of_isQualified {name : String} (h : Text.isQualified name) : Bare name :=
  bare_of_isDotted (fun _ => Text.isWordChar_of_isWordStart) h

theorem bare_of_isDescribable {name : String} (h : Text.isDescribable name) : Bare name :=
  bare_of_isDotted (fun _ => Text.isWordChar_of_isAlpha) h

theorem bare_of_isPropertyName {name : String} (h : Text.isPropertyName name) : Bare name := by
  simp only [Text.isPropertyName, Bool.and_eq_true, List.all_eq_true, Bool.or_eq_true,
    beq_iff_eq] at h
  intro c hc
  rcases h.2 c hc with (hword | rfl) | rfl
  · exact not_mem_delimiters_of_isWordChar hword
  · decide
  · decide

theorem bare_of_isQueryId {name : String} (h : Text.isQueryId name) : Bare name := by
  simp only [Text.isQueryId, Bool.and_eq_true, List.all_eq_true, Bool.or_eq_true,
    beq_iff_eq] at h
  intro c hc
  rcases h.2 c hc with hword | rfl
  · exact not_mem_delimiters_of_isWordChar hword
  · decide

end Names

section Numbers

theorem bare_toString_nat (n : Nat) : Bare (toString n) := by
  intro c hc
  rw [Nat.toString_eq_repr, Nat.toList_repr] at hc
  have hdigit : c.isDigit := Nat.isDigit_of_mem_toDigits (by decide) (by decide) hc
  exact not_mem_delimiters_of_isWordChar (Text.isWordChar_of_isDigit hdigit)

theorem bare_toString_int (n : Int) : Bare (toString n) := by
  cases n with
  | ofNat n => exact bare_toString_nat n
  | negSucc n => exact Bare.append (by decide) (bare_toString_nat (n + 1))

theorem bare_ofBool (b : Bool) : Bare (Text.ofBool b) := by
  cases b <;> decide

theorem bare_placePoint {digits : String} (h : Bare digits) (whole : Int) :
    Bare (Binary64.placePoint digits whole) := by
  have hzeros : ∀ n, Bare (Binary64.zeros n) := by
    intro n c hc
    rw [Binary64.zeros, String.toList_ofList, List.mem_replicate] at hc
    rw [hc.2]
    decide
  unfold Binary64.placePoint
  split
  · exact (Bare.append (by decide) (hzeros _)).append h
  · split
    · exact h.append (hzeros _)
    · refine (Bare.append ?_ (by decide)).append ?_
      · intro c hc
        rw [String.toList_ofList] at hc
        exact h c (List.mem_of_mem_take hc)
      · intro c hc
        rw [String.toList_ofList] at hc
        exact h c (List.mem_of_mem_drop hc)

theorem bare_text (value : Binary64) : Bare value.text := by
  have hsign : ∀ negative, Bare (Binary64.sign negative) := by
    intro negative
    cases negative <;> decide
  cases value with
  | nan => decide
  | infinite negative => exact (hsign negative).append (by decide)
  | finite negative mantissa scale =>
    exact (hsign negative).append (bare_placePoint (bare_toString_nat _) _)

end Numbers

section Tokens

/-- A family whose tokens hold no delimiters. -/
class BareTokens (α : Type) [Keyword α] : Prop where
  bare : ∀ a ∈ (Keyword.all : List α), Bare (Keyword.token a)

theorem bare_token {α : Type} [Keyword α] [BareTokens α] (a : α) : Bare (Keyword.token a) :=
  BareTokens.bare a (Keyword.mem_all a)

instance : BareTokens ScalarType := ⟨by decide +kernel⟩
instance : BareTokens TextFunction := ⟨by decide +kernel⟩
instance : BareTokens NumericFunction := ⟨by decide +kernel⟩
instance : BareTokens DateFunction := ⟨by decide +kernel⟩
instance : BareTokens AggregateFunction := ⟨by decide +kernel⟩
instance : BareTokens CollectionFunction := ⟨by decide +kernel⟩
instance : BareTokens AnalyticFunction := ⟨by decide +kernel⟩
instance : BareTokens ArithmeticOperator := ⟨by decide +kernel⟩
instance : BareTokens BinaryOperator := ⟨by decide +kernel⟩
instance : BareTokens MembershipOperator := ⟨by decide +kernel⟩
instance : BareTokens RangeOperator := ⟨by decide +kernel⟩
instance : BareTokens NullCheck := ⟨by decide +kernel⟩
instance : BareTokens Junction := ⟨by decide +kernel⟩
instance : BareTokens SourceKind := ⟨by decide +kernel⟩
instance : BareTokens JoinKind := ⟨by decide +kernel⟩
instance : BareTokens TimeUnit := ⟨by decide +kernel⟩
instance : BareTokens WindowBoundary := ⟨by decide +kernel⟩
instance : BareTokens TimeField := ⟨by decide +kernel⟩
instance : BareTokens EmitMode := ⟨by decide +kernel⟩
instance : BareTokens Direction := ⟨by decide +kernel⟩
instance : BareTokens NullPlacement := ⟨by decide +kernel⟩
instance : BareTokens Listing := ⟨by decide +kernel⟩

end Tokens

end StreamSql.Lexical
