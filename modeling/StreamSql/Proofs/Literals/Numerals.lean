import Mathlib.Data.List.TakeWhile
import Mathlib.Tactic.IntervalCases
import StreamSql.Expression.Shape
import StreamSql.Proofs.Documents.Normal
import StreamSql.Proofs.Documents.Writing
import StreamSql.Proofs.Layout.Basic
import StreamSql.Proofs.Readable.Texts

/-!
# Integers as they are written

The digits of an integer are read as that integer within 64 bits and as a double beyond them; only
within the signed 64 bits are they the literal of an integer.
-/
namespace StreamSql

open Json (Document Draft Flaw Lexeme Number Numeral Value)

/-! ## Digits -/

theorem Text.head?_toDigits_ne_zero {n : Nat} (h : 0 < n) :
    (Nat.toDigits 10 n).head? ≠ some '0' := by
  induction n using Nat.strong_induction_on with
  | _ n ih =>
    by_cases hlt : n < 10
    · rw [Nat.toDigits_of_lt_base hlt]
      interval_cases n <;> decide
    · rw [Nat.toDigits_of_base_le (by decide) (by omega)]
      have hhead := ih (n / 10) (by omega) (by omega)
      cases hdigits : Nat.toDigits 10 (n / 10) with
      | nil => exact absurd hdigits Nat.toDigits_ne_nil
      | cons c digits =>
        rw [hdigits] at hhead
        simpa using hhead

namespace Json

theorem le_ofDigitChars (significand : Nat) (digits : List Char) :
    significand ≤ Nat.ofDigitChars 10 digits significand := by
  induction digits generalizing significand with
  | nil => exact Nat.le_refl _
  | cons c digits ih =>
    rw [Nat.ofDigitChars_cons]
    exact Nat.le_trans (by omega) (ih _)

/-- The value of one digit more. -/
theorem shift_add_digitValue (significand : Nat) (c : Char) :
    significand * 10 + digitValue c = 10 * significand + (c.toNat - '0'.toNat) := by
  rw [digitValue, Nat.mul_comm]

/-- A significand takes all digits up to its bound. -/
theorem fillSignificand_of_lt {significand : Nat} {digits : List Char}
    (h : Nat.ofDigitChars 10 digits significand < UInt64.size) :
    fillSignificand significand digits = (Nat.ofDigitChars 10 digits significand, 0) := by
  induction digits generalizing significand with
  | nil => rfl
  | cons c digits ih =>
    rw [Nat.ofDigitChars_cons] at h ⊢
    rw [fillSignificand, shift_add_digitValue,
      if_pos (Nat.lt_of_le_of_lt (le_ofDigitChars _ digits) h), ih h]

/-- Digits are left where they come to more. -/
theorem fillSignificand_of_le {significand : Nat} {digits : List Char}
    (hlt : significand < UInt64.size)
    (h : UInt64.size ≤ Nat.ofDigitChars 10 digits significand) :
    0 < (fillSignificand significand digits).2 := by
  induction digits generalizing significand with
  | nil => exact absurd hlt (Nat.not_lt.mpr h)
  | cons c digits ih =>
    rw [Nat.ofDigitChars_cons] at h
    rw [fillSignificand, shift_add_digitValue]
    split
    · next hfits => exact ih hfits h
    · exact Nat.succ_pos _

theorem Numeral.integer?_of_nonneg {digits fraction : List Char} {exponent : Int} :
    Numeral.integer? ⟨false, digits, fraction, exponent⟩ =
      if Nat.ofDigitChars 10 digits 0 < UInt64.size then some (Nat.ofDigitChars 10 digits 0 : Int)
      else none := by
  split
  · next h => simp [integer?, fillSignificand_of_lt h]
  · next h =>
    have hleft := fillSignificand_of_le (by decide) (Nat.not_lt.mp h)
    simp [integer?, hleft]

theorem Numeral.integer?_of_neg {digits fraction : List Char} {exponent : Int} :
    Numeral.integer? ⟨true, digits, fraction, exponent⟩ =
      if 0 < Nat.ofDigitChars 10 digits 0 ∧ Nat.ofDigitChars 10 digits 0 ≤ 2 ^ 63 then
        some (-(Nat.ofDigitChars 10 digits 0 : Int))
      else none := by
  by_cases h : Nat.ofDigitChars 10 digits 0 < UInt64.size
  · simp [integer?, fillSignificand_of_lt h]
  · have hleft := fillSignificand_of_le (by decide) (Nat.not_lt.mp h)
    rw [if_neg]
    · simp [integer?, hleft]
    · have hsize : UInt64.size = 2 ^ 64 := rfl
      omega

/-- Digits that do not begin with a zero make up a number. -/
theorem readNumber_digits {negative : Bool} {digits : List Char} (hne : digits ≠ [])
    (hdigits : ∀ c ∈ digits, c.isDigit) (hzero : ∀ c rest, digits ≠ '0' :: c :: rest) :
    readNumber negative digits =
      match Numeral.integer? ⟨negative, digits, [], 0⟩, Numeral.float? ⟨negative, digits, [], 0⟩ with
      | some n, _ => .complete (.integer n) []
      | none, some x => .complete (.float x) []
      | none, none => .refused .numberOutOfRange [] := by
  have htake : takeDigits digits = (digits, []) := by
    rw [takeDigits, List.takeWhile_eq_self_iff.mpr hdigits, List.dropWhile_eq_nil_iff.mpr hdigits]
  have hwhole : readWhole digits = .ok (digits, []) := by
    have hrequire : requireDigits digits = .ok (digits, []) := by
      obtain ⟨c, rest, rfl⟩ := List.exists_cons_of_ne_nil hne
      rw [requireDigits, htake]
    rw [readWhole, hrequire]
    dsimp only [bind, Except.bind]
    split
    · next c rest => exact absurd rfl (hzero c rest)
    · rfl
  rw [readNumber, hwhole]
  rfl

/-- A text that is one number comes to the number or to nothing. -/
theorem Value.ofText_of_readValue {text : String} {draft : Draft}
    (h : Draft.readValue (2 * text.toList.length + 2) 0 text.toList = (draft, some [])) {v : Value} :
    Value.ofText text = .ok v ↔ draft.value? = .ok v := by
  rw [ofText_eq_ok_iff, Document.ofText, h]
  simp [skipBlank]

/-- What a value begins with that is no number, and what a sign is. -/
theorem ne_of_isDigit {c : Char} (h : c.isDigit) :
    ∀ d ∈ [' ', '\t', '\n', '\r', 'n', 't', 'f', '"', '-', '[', '\x7b'], c ≠ d := by
  have hnone : ∀ d ∈ [' ', '\t', '\n', '\r', 'n', 't', 'f', '"', '-', '[', '\x7b'],
      d.isDigit = false := by simp [Char.isDigit]
  rintro d hd rfl
  exact Bool.false_ne_true ((hnone c hd).symm.trans h)

theorem Draft.readValue_digits {fuel depth : Nat} {digits : List Char} (hne : digits ≠ [])
    (hdigits : ∀ c ∈ digits, c.isDigit) :
    readValue (fuel + 1) depth digits = ofLexeme .number (readNumber false digits) := by
  obtain ⟨c, rest, rfl⟩ := List.exists_cons_of_ne_nil hne
  have hc : c.isDigit := hdigits c List.mem_cons_self
  have hother := ne_of_isDigit hc
  simp only [List.forall_mem_cons, List.not_mem_nil, false_imp_iff, implies_true, and_true]
    at hother
  have hblank : skipBlank (c :: rest) = c :: rest := by
    simp [skipBlank, isBlankChar, hother]
  rw [readValue, hblank]
  split <;> simp_all

theorem Draft.readValue_minus {fuel depth : Nat} {digits : List Char} :
    readValue (fuel + 1) depth ('-' :: digits) = ofLexeme .number (readNumber true digits) := by
  have hblank : skipBlank ('-' :: digits) = '-' :: digits := by
    simp [skipBlank, isBlankChar]
  rw [readValue, hblank]
  rfl

/-- The parts of the text of an integer. -/
def Numeral.ofInt (n : Int) : Numeral :=
  ⟨decide (n < 0), Nat.toDigits 10 n.natAbs, [], 0⟩

theorem Numeral.integer?_ofInt (n : Int) :
    (ofInt n).integer? = if -2 ^ 63 ≤ n ∧ n < 2 ^ 64 then some n else none := by
  have hsize : UInt64.size = 2 ^ 64 := rfl
  by_cases hneg : n < 0
  · rw [ofInt, decide_eq_true hneg, integer?_of_neg, Nat.ofDigitChars_ten_toDigits]
    split <;> split <;> first | rfl | omega | (congr 1; omega)
  · rw [ofInt, decide_eq_false hneg, integer?_of_nonneg, Nat.ofDigitChars_ten_toDigits]
    split <;> split <;> first | rfl | omega | (congr 1; omega)

/-- Digits and a sign are read as the parts they are. -/
theorem Value.ofText_toString_eq_ok_iff {n : Int} {v : Value} :
    Value.ofText (toString n) = .ok v ↔
      if -2 ^ 63 ≤ n ∧ n < 2 ^ 64 then v = .number (.integer n)
      else ∃ x, (Numeral.ofInt n).float? = some x ∧ v = .number (.float x) := by
  have hdigits : ∀ c ∈ Nat.toDigits 10 n.natAbs, c.isDigit :=
    fun c hc => Nat.isDigit_of_mem_toDigits (by decide) (by decide) hc
  have hzero : ∀ c rest, Nat.toDigits 10 n.natAbs ≠ '0' :: c :: rest := by
    intro c rest h
    by_cases hn : n.natAbs = 0
    · rw [hn] at h
      cases h
    · exact Text.head?_toDigits_ne_zero (Nat.pos_of_ne_zero hn) (by rw [h]; rfl)
  have hread : ∀ fuel, Draft.readValue (fuel + 1) 0 (toString n).toList =
      Draft.ofLexeme .number (readNumber (decide (n < 0)) (Nat.toDigits 10 n.natAbs)) := by
    intro fuel
    cases n with
    | ofNat n =>
      have htext : (toString (Int.ofNat n)).toList = Nat.toDigits 10 n := Nat.toList_repr
      rw [htext, decide_eq_false (by simp)]
      exact Draft.readValue_digits Nat.toDigits_ne_nil hdigits
    | negSucc n =>
      have htext : (toString (Int.negSucc n)).toList = '-' :: Nat.toDigits 10 (n + 1) := by
        rw [← Nat.toList_repr]
        exact String.toList_append
      rw [htext, decide_eq_true (Int.negSucc_lt_zero n)]
      exact Draft.readValue_minus
  rw [readNumber_digits Nat.toDigits_ne_nil hdigits hzero] at hread
  have hinteger := Numeral.integer?_ofInt n
  rw [Numeral.ofInt] at hinteger ⊢
  rw [hinteger] at hread
  split
  · next hrange =>
    rw [if_pos hrange] at hread
    rw [Value.ofText_of_readValue (hread _)]
    exact ⟨fun h => (Except.ok.inj h).symm, fun h => congrArg Except.ok h.symm⟩
  · next hrange =>
    rw [if_neg hrange] at hread
    cases hfloat : Numeral.float? ⟨decide (n < 0), Nat.toDigits 10 n.natAbs, [], 0⟩ with
    | none =>
      rw [hfloat] at hread
      rw [Value.ofText_of_readValue (hread _)]
      simp [Draft.value?]
    | some x =>
      rw [hfloat] at hread
      rw [Value.ofText_of_readValue (hread _)]
      simp [Draft.value?, eq_comm]

end Json

/-! ## Literals -/

section Literals

open Shape

theorem Int64.range_iff {n : Int} :
    Int64.minValue.toInt ≤ n ∧ n ≤ Int64.maxValue.toInt ↔ -2 ^ 63 ≤ n ∧ n < 2 ^ 63 := by
  have hmin : Int64.minValue.toInt = -2 ^ 63 := by decide
  have hmax : Int64.maxValue.toInt = 2 ^ 63 - 1 := by decide
  omega

theorem Literal.read_integer (n : Int) :
    Literal.read (Value.number (.integer n)) =
      if Int64.minValue.toInt ≤ n ∧ n ≤ Int64.maxValue.toInt then .ok (.integer (Int64.ofInt n))
      else .ok (.float (Binary64.ofInt n)) := by
  have hint : int64 (Value.number (.integer n)) =
      if Int64.minValue.toInt ≤ n ∧ n ≤ Int64.maxValue.toInt then .ok (Int64.ofInt n)
      else .error (.wrongValue (.number (.integer n)) "i64") := by
    change (if (_ && _) = true then _ else _) = _
    simp only [Bool.and_eq_true, decide_eq_true_eq]
  split
  · next hrange =>
    rw [if_pos hrange] at hint
    refine union_eq_ok ?_
    rw [firstFitting?_of_eq_error rfl, firstFitting?_of_eq_error rfl]
    exact firstFitting?_of_eq_ok (by rw [hint]; rfl)
  · next hrange =>
    rw [if_neg hrange] at hint
    refine union_eq_ok ?_
    rw [firstFitting?_of_eq_error rfl, firstFitting?_of_eq_error rfl,
      firstFitting?_of_eq_error (by rw [hint]; rfl)]
    exact firstFitting?_of_eq_ok rfl

/-- Only an integer within signed 64 bits is kept as one. -/
theorem Literal.read_ofText_toString {n : Int} {v : Value} (h : Value.ofText (toString n) = .ok v) :
    if Int64.minValue.toInt ≤ n ∧ n ≤ Int64.maxValue.toInt then
      Literal.read v = .ok (.integer (Int64.ofInt n))
    else ∃ x, readFloat v = .ok x ∧ Literal.read v = .ok (.float x) := by
  rw [Value.ofText_toString_eq_ok_iff] at h
  by_cases hwide : -2 ^ 63 ≤ n ∧ n < 2 ^ 64
  · rw [if_pos hwide] at h
    subst h
    split
    · next hrange => rw [read_integer, if_pos hrange]
    · next hrange => exact ⟨_, rfl, by rw [read_integer, if_neg hrange]⟩
  · rw [if_neg hwide] at h
    obtain ⟨x, -, rfl⟩ := h
    rw [if_neg (by rw [Int64.range_iff]; omega)]
    exact ⟨x, rfl, rfl⟩

theorem Literal.written_ofInt (doubled : Bool) {n : Int}
    (h : Int64.minValue.toInt ≤ n ∧ n ≤ Int64.maxValue.toInt) :
    (Literal.integer (Int64.ofInt n)).written doubled = toString n := by
  rw [Int64.range_iff] at h
  have hn : (Int64.ofInt n).toInt = n := Int64.toInt_ofInt_of_le h.1 h.2
  cases doubled <;> exact congrArg toString hn

end Literals

end StreamSql
