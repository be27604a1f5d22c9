import StreamSql.Proofs.Literals.Nodes
import StreamSql.Proofs.Literals.Numerals
import StreamSql.Proofs.Literals.Statements

/-!
# Integers in documents and in texts

Every literal of a statement has a place in the document and one in the text. Whatever integer is
written at the first stands at the second, with its own digits if it is within signed 64 bits. Main
result: `compileText_literals`.
-/
namespace StreamSql

open Json (Document Draft Value)
open Json.Value (Context)
open Shape
open Slotted (Slot)

theorem Statement.ofText_iff_of_ofText {text : String} {v : Value} (h : Value.ofText text = .ok v)
    {s : Statement} :
    Statement.ofText text = .ok s ↔ Statement.read (Draft.ofValue v) = .ok s := by
  obtain ⟨hvalue, hflaw⟩ := Json.Value.ofText_eq_ok_iff.mp h
  rw [Statement.ofText_eq_ok_iff, hflaw, ← Draft.eq_ofValue hvalue]
  simp

/-- A document with a statement is a value. -/
theorem Statement.exists_value {text : String} {s : Statement}
    (h : Statement.ofText text = .ok s) : ∃ v, Value.ofText text = .ok v := by
  obtain ⟨hread, hflaw⟩ := Statement.ofText_eq_ok_iff.mp h
  obtain ⟨v, hv⟩ := exists_value?_of_choice_eq_ok hread
  exact ⟨v, Json.Value.ofText_eq_ok_iff.mpr ⟨hv, hflaw⟩⟩

/-- What stands in the text for an integer that is read as the value: its digits, or those of a
double. -/
def IntegerText (n : Int) (w : Value) (text : String) : Prop :=
  if Int64.minValue.toInt ≤ n ∧ n ≤ Int64.maxValue.toInt then text = toString n
  else ∃ x, readFloat w = .ok x ∧ text = x.text

theorem IntegerText.exists_literal {n : Int} {w : Value} (h : Value.ofText (toString n) = .ok w) :
    ∃ l, Literal.read w = .ok l ∧ ∀ doubled, IntegerText n w (l.written doubled) := by
  have hread := Literal.read_ofText_toString h
  unfold IntegerText
  split at hread
  · next hrange =>
    exact ⟨_, hread, fun doubled => by rw [if_pos hrange, Literal.written_ofInt doubled hrange]⟩
  · next hrange =>
    obtain ⟨x, hx, hread⟩ := hread
    refine ⟨_, hread, fun doubled => ?_⟩
    rw [if_neg hrange]
    exact ⟨x, hx, by cases doubled <;> rfl⟩

/-- The literals of the statement of a document that compiles are all in its text. Each has a place
in the document and one in the text, with the same around them whatever integer is written there. -/
theorem compileText_literals {text sql : String} (h : compileText text = .ok sql) :
    ∃ v s, Value.ofText text = .ok v ∧ Statement.ofText text = .ok s ∧
      (∀ depth, ((TreeNode.statement s).literalsTo depth).Subperm s.layout.literals) ∧
      ∀ i l, s.layout.literals[i]? = some l →
        ∃ (C : Context) (before after : String) (doubled : Bool),
          (∃ u, v = C.fill u ∧ Literal.read u = .ok l) ∧
          sql = before ++ l.written doubled ++ after ∧
          ∀ (n : Int) (w : Value) (text' : String), Value.ofText (toString n) = .ok w →
            Value.ofText text' = .ok (C.fill w) → ∃ l' s', Statement.ofText text' = .ok s' ∧
              s'.layout.literals = s.layout.literals.set i l' ∧
              IntegerText n w (l'.written doubled) ∧
              s'.sql = before ++ l'.written doubled ++ after ∧
              ∀ sql', compileText text' = .ok sql' →
                sql' = before ++ l'.written doubled ++ after := by
  obtain ⟨s, hs, hcompile⟩ := compileText_eq_ok_iff.mp h
  obtain ⟨-, rfl⟩ := checked_eq_ok_iff.mp hcompile
  obtain ⟨v, hv⟩ := Statement.exists_value hs
  refine ⟨v, s, hv, hs, (TreeNode.statement s).literalsTo_subperm, fun i l hi => ?_⟩
  obtain ⟨f, hslot, hset⟩ := s.layout.exists_slot_of_getElem? hi
  obtain ⟨C, u, rfl, -, hl, hfill⟩ :=
    Statement.traced_ofValue ((Statement.ofText_iff_of_ofText hv).mp hs) hslot
  obtain ⟨before, after, doubled, hsql⟩ := hslot.exists_sql_eq
  refine ⟨C, before, after, doubled, ⟨u, rfl, hl⟩, ?_, fun n w text' hw htext' => ?_⟩
  · rw [← hsql l, hslot.fill_self, s.sql_layout]
  · obtain ⟨l', hl', hstands⟩ := IntegerText.exists_literal hw
    obtain ⟨s', hread, hlayout⟩ := hfill w l' hl'
    have hs' : Statement.ofText text' = .ok s' := (Statement.ofText_iff_of_ofText htext').mpr hread
    have hsql' : s'.sql = before ++ l'.written doubled ++ after := by
      rw [← s'.sql_layout, hlayout, hsql l']
    refine ⟨l', s', hs', hlayout ▸ hset l', hstands doubled, hsql', fun sql' hcompile' => ?_⟩
    obtain ⟨s'', hs'', hchecked⟩ := compileText_eq_ok_iff.mp hcompile'
    obtain rfl : s' = s'' := Except.ok.inj (hs'.symm.trans hs'')
    exact (checked_eq_ok_iff.mp hchecked).2.symm.trans hsql'

/-- A document that inserts one value, with the digits that it is written in. -/
def insertText (digits : String) : String :=
  r#"{"type":"INSERT","statement":{"type":"VALUES","target":{"name":"t"},"# ++
    r#""data":[{"column":"a","value":{"type":"LITERAL","value":"# ++ digits ++ r#"}}]}}"#

theorem compileText_literals_smallest :
    compileText (insertText "-9223372036854775808") =
        .ok "INSERT INTO t (a) VALUES (-9223372036854775808);" ∧
      ∃ (C : Context) (before after : String) (u : Value),
        Value.ofText (insertText "-9223372036854775808") = .ok (C.fill u) ∧
        Literal.read u = .ok (.integer Int64.minValue) ∧
        ∀ (n : Int) (w : Value) (text' : String), Value.ofText (toString n) = .ok w →
          Value.ofText text' = .ok (C.fill w) → ∃ t, IntegerText n w t ∧
            ∀ sql', compileText text' = .ok sql' → sql' = before ++ t ++ after := by
  have hcompile : compileText (insertText "-9223372036854775808") =
      .ok "INSERT INTO t (a) VALUES (-9223372036854775808);" :=
    Shape.toOption_eq_some_iff.mp (by decide +kernel)
  obtain ⟨v, s, hv, hs, -, hplaces⟩ := compileText_literals hcompile
  have hinserted : ((Statement.ofText (insertText "-9223372036854775808")).toOption.bind
      fun s => s.layout.literals[0]?) = some (.integer Int64.minValue) := by decide +kernel
  rw [hs] at hinserted
  obtain ⟨C, before, after, doubled, ⟨u, rfl, hu⟩, -, hfill⟩ := hplaces _ _ hinserted
  refine ⟨hcompile, C, before, after, u, hv, hu, fun n w text' hw htext' => ?_⟩
  obtain ⟨l', s', -, -, ht, -, hsql⟩ := hfill n w text' hw htext'
  exact ⟨_, ht, hsql⟩

/-- An integer of more than signed 64 bits is neither refused nor kept. -/
theorem integer_literals_rounded :
    compileText (insertText "9223372036854775808") =
        .ok "INSERT INTO t (a) VALUES (9223372036854776000);" ∧
      ¬ ∀ (n : Int) (sql : String), compileText (insertText (toString n)) = .ok sql →
        sql = "INSERT INTO t (a) VALUES (" ++ toString n ++ ");" := by
  have hcompile : compileText (insertText "9223372036854775808") =
      .ok "INSERT INTO t (a) VALUES (9223372036854776000);" :=
    Shape.toOption_eq_some_iff.mp (by decide +kernel)
  refine ⟨hcompile, fun h => ?_⟩
  have hexact := h 9223372036854775808 _ hcompile
  exact absurd hexact (by decide +kernel)

end StreamSql
