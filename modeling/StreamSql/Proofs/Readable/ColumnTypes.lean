import StreamSql.ColumnType.Sql
import StreamSql.Proofs.Readable.Texts
import StreamSql.Proofs.Validity.Rules

/-!
# Column types are read back from their text

A type is a word, and its parts in angle brackets where it has any. The word tells whether it has.
-/
namespace StreamSql

open Text

namespace ColumnType

def word : ColumnType → String
  | .scalar type => Keyword.token type
  | .array _ => "ARRAY"
  | .map _ => "MAP"
  | .struct _ => "STRUCT"

def parts : ColumnType → String
  | .scalar _ => ""
  | .array element => "<" ++ element.sql ++ ">"
  | .map value => "<STRING, " ++ value.sql ++ ">"
  | .struct fields => "<" ++ Text.commas (fields.map StructField.sql) ++ ">"

theorem sql_append (t : ColumnType) (r : List Char) :
    t.sql.toList ++ r = t.word.toList ++ (t.parts.toList ++ r) := by
  cases t <;> simp [sql, word, parts]

theorem isWordChar_of_mem_word (t : ColumnType) : ∀ c ∈ t.word.toList, isWordChar c := by
  cases t with
  | scalar type =>
    have hall : ∀ a ∈ (Keyword.all : List ScalarType),
        (Keyword.token a).toList.all isWordChar := by
      decide +kernel
    exact List.all_eq_true.mp (hall type (Keyword.mem_all type))
  | _ =>
    rw [word]
    exact List.all_eq_true.mp (by decide)

theorem ends_parts (t : ColumnType) {r : List Char} (hr : Ends isWordChar r) :
    Ends isWordChar (t.parts.toList ++ r) := by
  cases t with
  | scalar type => exact hr
  | _ =>
    simp only [parts, String.toList_append, List.append_assoc]
    exact ends_cons.mpr rfl

/-- No scalar type is called like a type with parts. -/
theorem token_scalar_ne (type : ScalarType) :
    Keyword.token type ≠ "ARRAY" ∧ Keyword.token type ≠ "MAP" ∧ Keyword.token type ≠ "STRUCT" := by
  cases type <;> decide

/-- The word is read up to the first character that belongs to none. -/
theorem append_inj {t u : ColumnType} {r s : List Char} (hr : Ends isWordChar r)
    (hs : Ends isWordChar s) (h : t.sql.toList ++ r = u.sql.toList ++ s) :
    t.word = u.word ∧ t.parts.toList ++ r = u.parts.toList ++ s := by
  rw [sql_append, sql_append] at h
  obtain ⟨hword, hparts⟩ := append_inj_of_ends t.isWordChar_of_mem_word u.isWordChar_of_mem_word
    (t.ends_parts hr) (u.ends_parts hs) h
  exact ⟨String.toList_inj.mp hword, hparts⟩

end ColumnType

/-- A name and the type behind it. -/
theorem named_append_inj {m n : String} {t u : ColumnType} {r s : List Char}
    (hm : isIdentifier m) (hn : isIdentifier n) (hu : (TreeNode.columnType u).Valid)
    (ht : Readable (fun t => (TreeNode.columnType t).Valid) ColumnType.sql id (Ends isWordChar) t)
    (hr : Ends isWordChar r) (hs : Ends isWordChar s)
    (h : m.toList ++ ' ' :: (t.sql.toList ++ r) = n.toList ++ ' ' :: (u.sql.toList ++ s)) :
    m = n ∧ t = u ∧ r = s := by
  have hspace : ∀ r, Ends isWordChar (' ' :: r) := fun _ => ends_cons.mpr rfl
  obtain ⟨hname, h⟩ := append_inj_of_ends (isWordChar_of_isIdentifier hm)
    (isWordChar_of_isIdentifier hn) (hspace _) (hspace _) h
  obtain ⟨htype, hrest⟩ := ht u r s hu hr hs (List.cons.inj h).2
  exact ⟨String.toList_inj.mp hname, htype, hrest⟩

theorem identifier_append_ne_cons {name : String} (h : isIdentifier name) {c : Char}
    (hc : isWordChar c = false) (r s : List Char) : name.toList ++ r ≠ c :: s :=
  append_ne_cons (toList_ne_nil_of_isIdentifier h) (isWordChar_of_isIdentifier h) hc r s

theorem StructField.sql_append (f : StructField) (r : List Char) :
    f.sql.toList ++ r = f.name.toList ++ ' ' :: (f.type.sql.toList ++ r) := by
  obtain ⟨name, type⟩ := f
  simp [sql]

theorem StructField.readable {f : StructField} (h : (TreeNode.structField f).Valid)
    (ht : Readable (fun t => (TreeNode.columnType t).Valid) ColumnType.sql id (Ends isWordChar)
      f.type) :
    Readable (fun f => (TreeNode.structField f).Valid) sql id (Ends isWordChar) f := by
  intro g r s hg hr hs heq
  rw [sql_append, sql_append] at heq
  have htype : (TreeNode.columnType g.type).Valid := hg.below (List.mem_singleton_self _)
  obtain ⟨hname, htype, hrest⟩ := named_append_inj h.here hg.here htype ht hr hs heq
  cases f
  cases g
  exact ⟨by rw [id, id, StructField.mk.injEq]; exact ⟨hname, htype⟩, hrest⟩

theorem ColumnType.readable {t : ColumnType} (h : (TreeNode.columnType t).Valid) :
    Readable (fun t => (TreeNode.columnType t).Valid) sql id (Ends isWordChar) t := by
  have hclose : ∀ r, Ends isWordChar ('>' :: r) := fun _ => ends_cons.mpr rfl
  induction t using ColumnType.induction with
  | scalar type =>
    intro u r s hu hr hs heq
    obtain ⟨hword, hparts⟩ := append_inj hr hs heq
    cases u with
    | scalar type' => exact ⟨congrArg scalar (Keyword.eq_of_token_eq hword), hparts⟩
    | array element => exact absurd hword (token_scalar_ne type).1
    | map value => exact absurd hword (token_scalar_ne type).2.1
    | struct fields => exact absurd hword (token_scalar_ne type).2.2
  | array element ih =>
    intro u r s hu hr hs heq
    obtain ⟨hword, hparts⟩ := append_inj hr hs heq
    cases u with
    | scalar type => exact absurd hword.symm (token_scalar_ne type).1
    | array element' =>
      simp only [parts, String.toList_append, List.append_assoc] at hparts
      obtain ⟨helement, hrest⟩ := ih (h.below (List.mem_singleton_self _)) element' _ _
        (hu.below (List.mem_singleton_self _)) (hclose _) (hclose _)
        (List.append_cancel_left hparts)
      exact ⟨congrArg array helement, (List.cons.inj hrest).2⟩
    | map value => exact absurd hword (by simp [word])
    | struct fields => exact absurd hword (by simp [word])
  | map value ih =>
    intro u r s hu hr hs heq
    obtain ⟨hword, hparts⟩ := append_inj hr hs heq
    cases u with
    | scalar type => exact absurd hword.symm (token_scalar_ne type).2.1
    | array element => exact absurd hword (by simp [word])
    | map value' =>
      simp only [parts, String.toList_append, List.append_assoc] at hparts
      obtain ⟨hvalue, hrest⟩ := ih (h.below (List.mem_singleton_self _)) value' _ _
        (hu.below (List.mem_singleton_self _)) (hclose _) (hclose _)
        (List.append_cancel_left hparts)
      exact ⟨congrArg map hvalue, (List.cons.inj hrest).2⟩
    | struct fields => exact absurd hword (by simp [word])
  | struct fields ih =>
    intro u r s hu hr hs heq
    obtain ⟨hword, hparts⟩ := append_inj hr hs heq
    cases u with
    | scalar type => exact absurd hword.symm (token_scalar_ne type).2.2
    | array element => exact absurd hword (by simp [word])
    | map value => exact absurd hword (by simp [word])
    | struct fields' =>
      have hfields : ∀ f ∈ fields, (TreeNode.structField f).Valid ∧
          Readable (fun f => (TreeNode.structField f).Valid) StructField.sql id (Ends isWordChar)
            f := by
        intro f hf
        have hfield : (TreeNode.structField f).Valid := h.below (List.mem_map_of_mem hf)
        have htype : (TreeNode.columnType f.type).Valid := hfield.below (List.mem_singleton_self _)
        exact ⟨hfield, StructField.readable hfield (ih f hf htype)⟩
      have hfields' : ∀ f ∈ fields', (TreeNode.structField f).Valid :=
        fun f hf => hu.below (List.mem_map_of_mem hf)
      have hfirst : ∀ f : StructField, (TreeNode.structField f).Valid → ∀ r s,
          f.sql.toList ++ r ≠ '>' :: s := by
        intro f hf r s
        rw [StructField.sql_append]
        exact identifier_append_ne_cons hf.here rfl _ _
      simp only [parts, String.toList_append, List.append_assoc] at hparts
      obtain ⟨hlist, hrest⟩ := Readable.commas hfields hfields' (fun _ => ends_cons.mpr rfl)
        hclose (by decide) hfirst (List.append_cancel_left hparts)
      exact ⟨congrArg struct hlist, hrest⟩

end StreamSql
