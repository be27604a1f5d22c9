import StreamSql.Client.Batch
import StreamSql.Proofs.Lexical.Statements
import StreamSql.Proofs.Texts.Cuts

/-!
# Batches of statements

A reader who knows only quotes cuts a batch at its terminators. Main result: what is cut out of a
batch of compiled statements is these statements, one for one.
-/
namespace StreamSql

open Lexical

namespace Lexical

section Pieces

/-- What stands between the terminators, from the inside or the outside of quotes. -/
def pieces : Bool → List Char → List (List Char)
  | _, [] => [[]]
  | quoted, c :: cs =>
    if c = ';' ∧ quoted = false then [] :: pieces quoted cs
    else (pieces (if c = '\'' then !quoted else quoted) cs).modifyHead (c :: ·)

/-- The statements of a batch: the pieces in which more than blanks stand, without the blanks around
them. -/
def batched (cs : List Char) : List (List Char) :=
  ((pieces false cs).map Text.trim).filter (!·.isEmpty)

/-- Text without terminators outside quotes goes into the first piece. -/
theorem pieces_append {quoted : Bool} {cs : List Char} (h : ';' ∉ outside quoted cs)
    (ds : List Char) :
    pieces quoted (cs ++ ds) = (pieces (endsQuoted quoted cs) ds).modifyHead (cs ++ ·) := by
  induction cs generalizing quoted with
  | nil => exact List.modifyHead_id ▸ rfl
  | cons c cs ih =>
    have hpass : ¬(c = ';' ∧ quoted = false) := by
      rintro ⟨rfl, rfl⟩
      simp [outside] at h
    have hrest : ';' ∉ outside (if c = '\'' then !quoted else quoted) cs := by
      rw [outside] at h
      by_cases hquote : c = '\''
      · rwa [if_pos hquote] at h ⊢
      · rw [if_neg hquote] at h ⊢
        cases quoted with
        | false => exact fun hmem => h (List.mem_cons_of_mem _ hmem)
        | true => exact h
    rw [List.cons_append, pieces, if_neg hpass, endsQuoted, ih hrest, List.modifyHead_modifyHead]
    rfl

/-- Blanks in front of a statement do not count. -/
theorem batched_space (cs : List Char) : batched (' ' :: cs) = batched cs := by
  have htrim : ∀ piece, Text.trim (' ' :: piece) = Text.trim piece := fun _ => rfl
  rw [batched, batched, pieces, if_neg (by decide)]
  change ((pieces false cs).modifyHead (' ' :: ·) |>.map Text.trim).filter _ = _
  cases pieces false cs with
  | nil => rfl
  | cons piece rest => rw [List.modifyHead_cons, List.map_cons, List.map_cons, htrim]

theorem batched_append {text : String} (h : Closed text) (htext : Text.trim text.toList ≠ [])
    (cs : List Char) :
    batched (text.toList ++ ';' :: cs) = Text.trim text.toList :: batched cs := by
  have hpieces : pieces false (text.toList ++ ';' :: cs) = text.toList :: pieces false cs := by
    rw [pieces_append h.terminator, h.quotes, pieces, if_pos ⟨rfl, rfl⟩, List.modifyHead_cons,
      List.append_nil]
  rw [batched, hpieces, List.map_cons, List.filter_cons_of_pos, batched]
  simpa using htext

end Pieces

section Bodies

/-- A letter stands in front. -/
def Begun (text : String) : Prop :=
  text.toList.head?.any Char.isAlpha

instance (text : String) : Decidable (Begun text) :=
  inferInstanceAs (Decidable (_ = true))

theorem Begun.exists_cons {text : String} (h : Begun text) :
    ∃ c cs, text.toList = c :: cs ∧ c.isAlpha := by
  unfold Begun at h
  cases htext : text.toList with
  | nil => simp [htext] at h
  | cons c cs => exact ⟨c, cs, rfl, by simpa [htext] using h⟩

theorem Begun.append {s : String} (h : Begun s) (t : String) : Begun (s ++ t) := by
  obtain ⟨c, cs, hs, hc⟩ := h.exists_cons
  rw [Begun, String.toList_append, hs]
  exact hc

theorem Begun.of_append {s t : String} (h : Begun (s ++ t)) (ht : ¬Begun t) : Begun s := by
  unfold Begun at *
  rw [String.toList_append] at h
  cases hs : s.toList with
  | nil =>
    rw [hs] at h
    exact absurd h ht
  | cons c cs =>
    rw [hs] at h
    exact h

/-- What may stand before a terminator: nothing in it ends a statement, and it begins with a
letter. -/
structure IsBody (text : String) : Prop where
  closed : Closed text
  begun : Begun text

/-- A body as a reader gets it, without the blanks at its end. -/
def trimmed (body : String) : String :=
  String.ofList (Text.dropTrailing Text.isBlankChar body.toList)

/-- A closed text does not end in a terminator: outside quotes it has none, and it ends outside. -/
theorem Closed.dropTrailing_eq_self {text : String} (h : Closed text) :
    Text.dropTrailing (· == ';') text.toList = text.toList := by
  rw [Text.dropTrailing_eq_rdropWhile, List.rdropWhile_eq_self_iff]
  intro hne hlast
  rw [beq_iff_eq] at hlast
  have hsplit : text.toList.dropLast ++ [';'] = text.toList :=
    hlast ▸ List.dropLast_append_getLast hne
  have hquotes : endsQuoted false text.toList.dropLast = false := by
    have hend := h.quotes
    rw [← hsplit, endsQuoted_append] at hend
    exact hend
  apply h.terminator
  rw [← hsplit, outside_append, hquotes, List.mem_append]
  exact .inr (List.mem_singleton_self _)

theorem exists_trimmed_append (body : String) :
    ∃ blanks, trimmed body ++ blanks = body ∧ ∀ c ∈ blanks.toList, Text.isBlankChar c := by
  obtain ⟨blanks, hbody, hblanks⟩ := Text.exists_dropTrailing_append Text.isBlankChar body.toList
  refine ⟨String.ofList blanks, ?_, by rwa [String.toList_ofList]⟩
  rw [trimmed, ← String.ofList_append, hbody, String.ofList_toList]

theorem trimmed_trimmed (body : String) : trimmed (trimmed body) = trimmed body := by
  simp only [trimmed, String.toList_ofList, Text.dropTrailing_eq_rdropWhile,
    List.rdropWhile_idempotent]

/-- The blanks at the end of a closed text stand outside quotes. -/
theorem Closed.trimmed {body : String} (h : Closed body) : Closed (trimmed body) := by
  obtain ⟨blanks, hbody, hblanks⟩ := exists_trimmed_append body
  rw [← hbody] at h
  exact h.of_append fun hmem => absurd (hblanks _ hmem) (by decide)

theorem Begun.trimmed {body : String} (h : Begun body) : Begun (trimmed body) := by
  obtain ⟨blanks, hbody, hblanks⟩ := exists_trimmed_append body
  rw [← hbody] at h
  refine h.of_append fun hblank => ?_
  obtain ⟨c, cs, hlist, hc⟩ := hblank.exists_cons
  have hnot := hblanks c (hlist ▸ List.mem_cons_self)
  rw [Text.isBlankChar_eq_false_of_isAlpha hc] at hnot
  exact Bool.false_ne_true hnot

theorem Begun.dropWhile_eq_self {text : String} (h : Begun text) :
    text.toList.dropWhile Text.isBlankChar = text.toList := by
  obtain ⟨c, cs, htext, hc⟩ := h.exists_cons
  rw [htext, List.dropWhile_cons_of_neg]
  simp [Text.isBlankChar_eq_false_of_isAlpha hc]

theorem Begun.trim_eq {text : String} (h : Begun text) :
    Text.trim text.toList = (Lexical.trimmed text).toList := by
  rw [Text.trim, h.dropWhile_eq_self, Lexical.trimmed, String.toList_ofList]

namespace IsBody

variable {body : String}

theorem trimmed (h : IsBody body) : IsBody (trimmed body) :=
  ⟨h.closed.trimmed, h.begun.trimmed⟩

/-- A client takes off the one terminator that a body got. -/
theorem unterminated_append (h : IsBody body) :
    Client.unterminated (body ++ ";") = Lexical.trimmed body := by
  have hterminated : Text.trim (body ++ ";").toList = body.toList ++ [';'] := by
    rw [Text.trim, (h.begun.append ";").dropWhile_eq_self, String.toList_append]
    exact List.rdropWhile_concat_neg _ _ _ (by decide)
  have hbody : Text.dropTrailing (· == ';') (body.toList ++ [';']) = body.toList := by
    rw [Text.dropTrailing_eq_rdropWhile, List.rdropWhile_concat_pos _ _ _ (by decide)]
    exact h.closed.dropTrailing_eq_self
  rw [Client.unterminated, hterminated, hbody, Lexical.trimmed]

theorem batched_append (h : IsBody body) (cs : List Char) :
    batched (body.toList ++ ';' :: cs) = (Lexical.trimmed body).toList :: batched cs := by
  obtain ⟨c, rest, hlist, -⟩ := h.begun.trimmed.exists_cons
  rw [Lexical.batched_append h.closed, h.begun.trim_eq]
  rw [h.begun.trim_eq, hlist]
  exact List.cons_ne_nil _ _

theorem batched_intercalate {bodies : List String} (h : IsBody body)
    (hbodies : ∀ b ∈ bodies, IsBody b) :
    batched (String.intercalate "; " (body :: bodies) ++ ";").toList =
      (body :: bodies).map fun b => (Lexical.trimmed b).toList := by
  induction bodies generalizing body with
  | nil =>
    rw [String.toList_append]
    exact h.batched_append []
  | cons next bodies ih =>
    obtain ⟨hnext, hrest⟩ := List.forall_mem_cons.mp hbodies
    have hsplit : (String.intercalate "; " (body :: next :: bodies) ++ ";").toList =
        body.toList ++ ';' :: ' ' :: (String.intercalate "; " (next :: bodies) ++ ";").toList := by
      rw [String.intercalate_cons_cons]
      simp
    rw [hsplit, h.batched_append, batched_space, ih hnext hrest]
    rfl

end IsBody

theorem batched_joinStatements {bodies : List String} (h : ∀ b ∈ bodies, IsBody b) :
    batched (Client.joinStatements (bodies.map (· ++ ";"))).toList =
      bodies.map fun b => (trimmed b).toList := by
  have hunterminated : (bodies.map (· ++ ";")).map Client.unterminated = bodies.map trimmed := by
    rw [List.map_map]
    exact List.map_congr_left fun b hb => (h b hb).unterminated_append
  -- A body has a letter in front, so that the client leaves none of them out.
  have hkept : (bodies.map trimmed).filter (!·.isEmpty) = bodies.map trimmed := by
    rw [List.filter_eq_self, List.forall_mem_map]
    intro b hb
    obtain ⟨c, cs, hlist, -⟩ := (h b hb).begun.trimmed.exists_cons
    rw [Bool.not_eq_true', String.isEmpty_eq_false_iff]
    intro hempty
    rw [hempty] at hlist
    exact List.cons_ne_nil _ _ hlist.symm
  rw [Client.joinStatements, hunterminated, hkept]
  cases bodies with
  | nil => rfl
  | cons body bodies =>
    obtain ⟨hbody, hbodies⟩ := List.forall_mem_cons.mp h
    have hrest : ∀ b ∈ bodies.map trimmed, IsBody b :=
      List.forall_mem_map.mpr fun b hb => (hbodies b hb).trimmed
    refine (hbody.trimmed.batched_intercalate hrest).trans ?_
    simp only [← List.map_cons, List.map_map]
    exact List.map_congr_left fun b _ => congrArg String.toList (trimmed_trimmed b)

end Bodies

theorem begun_words {part : String} (h : Begun part) (parts : List String) :
    Begun (Text.words (part :: parts)) := by
  cases parts with
  | nil => exact h
  | cons next parts =>
    rw [Text.words, String.intercalate_cons_cons, String.append_assoc]
    exact h.append _

end Lexical

theorem Query.sql_begun (q : Query) : Begun q.sql := by
  have hselect : ∀ columns, Begun (selectSql columns) :=
    fun columns => Begun.append (by decide) _
  cases q with
  | star body =>
    rw [sql]
    exact begun_words (by decide) _
  | simple columns order body =>
    rw [sql]
    exact begun_words (hselect columns) _
  | aggregate columns grouping partition order body =>
    rw [sql]
    exact begun_words (hselect columns) _
  | windowed columns grouping partition order body =>
    rw [sql]
    exact begun_words (hselect columns) _

theorem Insert.sql_begun (i : Insert) : Begun i.sql := by
  have hinto : Begun "INSERT INTO " := by decide
  cases i with
  | values target data schema =>
    exact (((((hinto.append _).append _).append _).append _).append _).append _
  | select target data schema =>
    exact ((((hinto.append _).append _).append _).append _).append _

theorem Create.opened_begun (c : Create) : Begun c.opened := by
  have hcreate : Begun "CREATE" := by decide
  exact ((((((hcreate.append _).append _).append _).append _).append _).append _).append _

theorem Property.sql_begun (p : Property) : Begun p.sql := by
  unfold sql
  split
  · exact (((Begun.append (by decide) _).append _).append _).append _
  · exact (Begun.append (by decide) _).append _

theorem Statement.sql_begun (s : Statement) : Begun s.sql := by
  cases s with
  | select q => exact q.sql_begun.append _
  | insert i => exact i.sql_begun
  | create c => exact c.opened_begun.append _
  | drop d =>
    have hdrop : Begun "DROP " := by decide
    exact (((((hdrop.append _).append _).append _).append _).append _).append _
  | terminate t => exact (Begun.append (by decide) _).append _
  | property p => exact p.sql_begun
  | list l => exact ((Begun.append (by decide) _).append _).append _
  | display d => exact ((Begun.append (by decide) _).append _).append _
  | describe d => exact ((Begun.append (by decide) _).append _).append _
  | explain e => exact ((Begun.append (by decide) _).append _).append _

/-- The free texts of a node hold nothing at which a batch is cut. -/
@[mk_iff] structure TreeNode.Uncut (n : TreeNode) : Prop where
  verbatim : ∀ text ∈ n.verbatim, '\'' ∉ text.toList ∧ ';' ∉ text.toList
  constants : ∀ text ∈ n.constants, '\'' ∉ text.toList

theorem TreeNode.Uncut.holds {n : TreeNode} (h : n.Uncut) : Reader.plain.Holds n where
  verbatim := by
    intro text htext
    obtain ⟨hquote, hterminator⟩ := h.verbatim text htext
    exact ⟨endsQuoted_of_not_mem hquote, fun hmem => hterminator (mem_of_mem_outside hmem)⟩
  constants := h.constants

theorem Statement.exists_isBody (s : Statement) (valid : s.check = .ok ())
    (uncut : ∀ n : TreeNode, n.In (.statement s) → n.Uncut) :
    ∃ body, s.compile = .ok (body ++ ";") ∧ IsBody body := by
  have hvalid : (TreeNode.statement s).Valid := s.check_eq_ok_iff.mp valid
  have hcontains : Reader.plain.Contains (.statement s) :=
    TreeNode.everywhere_and.mpr ⟨hvalid, fun n hn => (uncut n hn).holds⟩
  obtain ⟨body, hsql, hclosed⟩ := s.sql_ends hcontains
  have hbegun : Begun (body ++ ";") := hsql ▸ s.sql_begun
  refine ⟨body, ?_, hclosed, hbegun.of_append (by decide)⟩
  rw [compile, valid, hsql]
  rfl

/-- A batch of compiled statements is neither merged nor split: cut at its terminators, it gives
these statements in their order, each without its terminator and the blanks before it. Only the
texts that are written as they were given must be free of quotes and terminators. -/
theorem Statement.compile_batched (statements : List Statement)
    (valid : ∀ s ∈ statements, s.check = .ok ())
    (uncut : ∀ s ∈ statements, ∀ n : TreeNode, n.In (.statement s) → n.Uncut) :
    ∃ bodies : List String,
      statements.map Statement.compile = bodies.map (fun body => .ok (body ++ ";")) ∧
      batched (Client.joinStatements (bodies.map (· ++ ";"))).toList =
        bodies.map fun body => (trimmed body).toList := by
  have hbody : ∀ s ∈ statements, ∃ body, s.compile = .ok (body ++ ";") ∧ IsBody body :=
    fun s hs => s.exists_isBody (valid s hs) (uncut s hs)
  choose! body hcompile hisBody using hbody
  refine ⟨statements.map body, ?_, batched_joinStatements (List.forall_mem_map.mpr hisBody)⟩
  rw [List.map_map]
  exact List.map_congr_left hcompile

/-- The first text has brackets that are never closed and a blank at its end, and the second has a
terminator and a quote in a value. -/
def mixedBatch : List Statement :=
  [.select (.star (.ofSource ⟨.stream, .named ⟨"orders", none, .stream⟩, none,
      [⟨.inner, ⟨"users", none, .table⟩, none, [⟨"orders.user", "users.[id( "⟩]⟩]⟩)),
    .insert (.values ⟨"notes", none⟩ [⟨"note", .string "it's; LIST STREAMS;"⟩] none),
    .list ⟨.table, true⟩]

theorem mixedBatch_compile_batched :
    (∀ s ∈ mixedBatch, s.check = .ok ()) ∧
      (∀ s ∈ mixedBatch, ∀ n : TreeNode, n.In (.statement s) → n.Uncut) ∧
      ∃ bodies : List String,
        mixedBatch.map Statement.compile = bodies.map (fun body => .ok (body ++ ";")) ∧
        batched (Client.joinStatements (bodies.map (· ++ ";"))).toList =
          bodies.map fun body => (trimmed body).toList := by
  have hvalid : ∀ s ∈ mixedBatch, s.check = .ok () := by
    simp only [mixedBatch, List.forall_mem_cons]
    exact ⟨rfl, rfl, rfl, fun _ hs => absurd hs List.not_mem_nil⟩
  have huncut : ∀ s ∈ mixedBatch, ∀ n : TreeNode, n.In (.statement s) → n.Uncut := by
    change ∀ s ∈ mixedBatch, (TreeNode.statement s).Everywhere TreeNode.Uncut
    simp [mixedBatch, TreeNode.everywhere_iff_forall, TreeNode.children, Query.children, Query.body,
      Query.columns, Query.grouping?, Query.partition?, Query.order?, SourceClause.children,
      Source.children, QueryBody.ofSource, Join.children, Insert.children, Statement.children,
      TreeNode.uncut_iff, TreeNode.verbatim, TreeNode.constants]
  exact ⟨hvalid, huncut, Statement.compile_batched mixedBatch hvalid huncut⟩

end StreamSql
