import StreamSql.Client.Batch
import StreamSql.Proofs.Texts.Cuts

/-!
# Terminators of joined statements

A statement loses the blanks at its end, then semicolons, and then blanks once more. Where a blank
stands between two semicolons, a semicolon is left behind, and the statement ends up with more than
one terminator. Main result: everything that is expected of joined statements holds exactly where
no such semicolon is left.
-/
namespace StreamSql.Client

open Text (isBlankChar dropTrailing)

section Statements

/-- Blanks and semicolons, which mean nothing at the end of a statement. -/
def isFiller (c : Char) : Bool :=
  c == ';' || isBlankChar c

/-- Behind a semicolon stands a blank, and behind that blanks and semicolons to the end, at least
one of them a semicolon. -/
def Scattered (statement : String) : Prop :=
  ∃ before blank after, statement.toList = before ++ ';' :: blank :: after ∧ isBlankChar blank ∧
    ';' ∈ after ∧ ∀ c ∈ after, isFiller c

def EndsInSemicolon (text : String) : Prop :=
  text.toList.getLast? = some ';'

/-- No blank stands at either end. -/
structure Unblank (text : String) : Prop where
  first : ∀ c ∈ text.toList.head?, ¬isBlankChar c
  last : ∀ c ∈ text.toList.getLast?, ¬isBlankChar c

/-- A statement without the blanks in front of it and the blanks and semicolons behind it. -/
def bare (statement : String) : String :=
  String.ofList (dropTrailing isFiller (statement.toList.dropWhile isBlankChar))

variable {s : String}

theorem toList_unterminated (s : String) :
    (unterminated s).toList =
      dropTrailing isBlankChar (dropTrailing (· == ';') (Text.trim s.toList)) :=
  String.toList_ofList

theorem eq_semicolon_of_isFiller {c : Char} (h : isFiller c) (hblank : ¬isBlankChar c) :
    c = ';' := by
  simpa [isFiller, hblank] using h

/-- What is left of fillers behind a semicolon ends in a semicolon. -/
theorem exists_dropTrailing_eq_concat {after : List Char} (h : ∀ c ∈ after, isFiller c)
    (before : List Char) :
    ∃ front, dropTrailing isBlankChar (before ++ ';' :: after) = front ++ [';'] := by
  rw [Text.dropTrailing_append_cons (by decide)]
  rcases List.eq_nil_or_concat' (dropTrailing isBlankChar after) with hnil | ⟨front, c, hconcat⟩
  · exact ⟨before, by rw [hnil]⟩
  · obtain ⟨dropped, hafter, -⟩ := Text.exists_dropTrailing_append isBlankChar after
    have hfiller : isFiller c := by
      apply h
      rw [← hafter, hconcat]
      simp
    obtain rfl := eq_semicolon_of_isFiller hfiller (Text.getLast_dropTrailing_not hconcat)
    exact ⟨before ++ ';' :: front, by rw [hconcat]; simp⟩

theorem Scattered.endsInSemicolon (h : Scattered s) : EndsInSemicolon (unterminated s) := by
  obtain ⟨before, blank, after, hs, hblank, hmem, hafter⟩ := h
  obtain ⟨inner, outer, rfl⟩ := List.append_of_mem hmem
  have hpass : blank ≠ ';' := by
    rintro rfl
    exact absurd hblank (by decide)
  -- The last semicolon keeps the blanks in front of it, and the blank the semicolon in front of it.
  have htrim : Text.trim s.toList = (before.dropWhile isBlankChar ++ [';']) ++
      blank :: (inner ++ ';' :: dropTrailing isBlankChar outer) := by
    have hregroup : before.dropWhile isBlankChar ++ ';' :: blank :: (inner ++ ';' :: outer) =
        (before.dropWhile isBlankChar ++ ';' :: blank :: inner) ++ ';' :: outer := by simp
    rw [Text.trim, hs, Text.dropWhile_append_cons (by decide), hregroup,
      Text.dropTrailing_append_cons (by decide)]
    simp
  have hdrop : dropTrailing (· == ';') (Text.trim s.toList) = before.dropWhile isBlankChar ++
      ';' :: blank :: dropTrailing (· == ';') (inner ++ ';' :: dropTrailing isBlankChar outer) := by
    rw [htrim, Text.dropTrailing_append_cons (by simpa using hpass), List.append_assoc,
      List.singleton_append]
  have hfillers : ∀ c ∈ blank :: dropTrailing (· == ';')
      (inner ++ ';' :: dropTrailing isBlankChar outer), isFiller c := by
    rw [List.forall_mem_cons]
    refine ⟨Bool.or_eq_true_iff.2 (.inr hblank), fun c hc => hafter c ?_⟩
    have hc := Text.mem_of_mem_dropTrailing hc
    simp only [List.mem_append, List.mem_cons] at hc ⊢
    exact hc.imp_right (.imp_right Text.mem_of_mem_dropTrailing)
  rw [EndsInSemicolon, List.getLast?_eq_some_iff, toList_unterminated, hdrop]
  exact exists_dropTrailing_eq_concat hfillers _

/-- What each pass over a statement takes off. -/
structure Passes (s : String) (front between semicolons blanks : List Char) : Prop where
  front_append : front ++ s.toList.dropWhile isBlankChar = s.toList
  begun_eq : s.toList.dropWhile isBlankChar =
    (unterminated s).toList ++ (between ++ (semicolons ++ blanks))
  trim_eq : Text.trim s.toList = (unterminated s).toList ++ (between ++ semicolons)
  drop_eq : dropTrailing (· == ';') (Text.trim s.toList) = (unterminated s).toList ++ between
  isBlank_front : ∀ c ∈ front, isBlankChar c
  isBlank_between : ∀ c ∈ between, isBlankChar c
  eq_semicolon : ∀ c ∈ semicolons, c = ';'
  isBlank_blanks : ∀ c ∈ blanks, isBlankChar c

theorem exists_passes (s : String) :
    ∃ front between semicolons blanks, Passes s front between semicolons blanks := by
  obtain ⟨blanks, htrim, hblanks⟩ :=
    Text.exists_dropTrailing_append isBlankChar (s.toList.dropWhile isBlankChar)
  obtain ⟨semicolons, hdrop, hsemicolons⟩ :=
    Text.exists_dropTrailing_append (· == ';') (Text.trim s.toList)
  obtain ⟨between, hkept, hbetween⟩ :=
    Text.exists_dropTrailing_append isBlankChar (dropTrailing (· == ';') (Text.trim s.toList))
  rw [← toList_unterminated] at hkept
  have hwhole : Text.trim s.toList = (unterminated s).toList ++ (between ++ semicolons) := by
    rw [← List.append_assoc, hkept, hdrop]
  refine ⟨s.toList.takeWhile isBlankChar, between, semicolons, blanks, ?_⟩
  constructor
  case front_append => exact List.takeWhile_append_dropWhile
  case begun_eq =>
    rw [← htrim, ← Text.trim, hwhole]
    simp only [List.append_assoc]
  case trim_eq => exact hwhole
  case drop_eq => exact hkept.symm
  case isBlank_front => exact fun c => List.mem_takeWhile_imp
  case isBlank_between => exact hbetween
  case eq_semicolon => exact fun c hc => eq_of_beq (hsemicolons c hc)
  case isBlank_blanks => exact hblanks

variable {front between semicolons blanks : List Char}

theorem Passes.isFiller_ending (h : Passes s front between semicolons blanks) :
    ∀ c ∈ between ++ (semicolons ++ blanks), isFiller c := by
  have hblank : ∀ {c}, isBlankChar c → isFiller c := fun hc => Bool.or_eq_true_iff.2 (.inr hc)
  simp only [List.mem_append]
  rintro c (hc | hc | hc)
  · exact hblank (h.isBlank_between c hc)
  · rw [h.eq_semicolon c hc]
    rfl
  · exact hblank (h.isBlank_blanks c hc)

/-- A semicolon is left behind only where a blank kept the first semicolons from being dropped. -/
theorem Passes.scattered (h : Passes s front between semicolons blanks)
    (hends : EndsInSemicolon (unterminated s)) : Scattered s := by
  obtain ⟨before, hv⟩ := List.getLast?_eq_some_iff.1 hends
  -- Semicolons were dropped right before the blanks, so some blank parts them from the one left.
  obtain ⟨blank, rest, rfl⟩ : ∃ blank rest, between = blank :: rest := by
    refine List.exists_cons_of_ne_nil ?_
    rintro rfl
    have hlast := h.drop_eq
    rw [hv, List.append_nil] at hlast
    exact Text.getLast_dropTrailing_not hlast (beq_self_eq_true _)
  -- The first pass leaves no blank at the end, so semicolons must have stood behind this one.
  obtain ⟨others, rfl⟩ : ∃ others, semicolons = ';' :: others := by
    cases semicolons with
    | cons c others => exact ⟨others, by rw [h.eq_semicolon c List.mem_cons_self]⟩
    | nil =>
      obtain ⟨inner, last, hconcat⟩ := (List.eq_nil_or_concat' (blank :: rest)).resolve_left
        (List.cons_ne_nil _ _)
      have hlast := h.trim_eq
      rw [List.append_nil, hconcat, ← List.append_assoc] at hlast
      refine absurd (h.isBlank_between last ?_) (Text.getLast_dropTrailing_not hlast)
      rw [hconcat]
      exact List.mem_concat_self
  refine ⟨front ++ before, blank, rest ++ (';' :: others ++ blanks), ?_,
    h.isBlank_between _ List.mem_cons_self, by simp, fun c hc => ?_⟩
  · rw [← h.front_append, h.begun_eq, hv]
    simp
  · exact h.isFiller_ending c (List.mem_cons_of_mem _ hc)

/-- What is kept of a statement ends in a semicolon exactly where its semicolons are scattered. -/
theorem endsInSemicolon_iff (s : String) : EndsInSemicolon (unterminated s) ↔ Scattered s := by
  obtain ⟨front, between, semicolons, blanks, h⟩ := exists_passes s
  exact ⟨h.scattered, Scattered.endsInSemicolon⟩

theorem unterminated_unblank (s : String) : Unblank (unterminated s) := by
  obtain ⟨front, between, semicolons, blanks, h⟩ := exists_passes s
  constructor
  case first =>
    intro c hc
    obtain ⟨after, hv⟩ := List.head?_eq_some_iff.1 hc
    have hfirst := List.head?_dropWhile_not isBlankChar s.toList
    rw [h.begun_eq, hv, List.cons_append, List.head?_cons] at hfirst
    simpa using hfirst
  case last =>
    intro c hc
    obtain ⟨before, hv⟩ := List.getLast?_eq_some_iff.1 hc
    exact Text.getLast_dropTrailing_not ((toList_unterminated s).symm.trans hv)

/-- What is kept ends in a semicolon, or in nothing that could be dropped. -/
theorem not_isFiller_last (h : ¬EndsInSemicolon (unterminated s)) :
    ∀ c ∈ (unterminated s).toList.getLast?, ¬isFiller c := by
  intro c hc hfiller
  obtain rfl := eq_semicolon_of_isFiller hfiller ((unterminated_unblank s).last c hc)
  exact h hc

theorem unterminated_eq_bare_iff (s : String) : unterminated s = bare s ↔ ¬Scattered s := by
  obtain ⟨front, between, semicolons, blanks, h⟩ := exists_passes s
  have hbare : (bare s).toList = dropTrailing isFiller (unterminated s).toList := by
    rw [bare, String.toList_ofList, h.begun_eq,
      Text.dropTrailing_append_of_forall h.isFiller_ending]
  rw [← endsInSemicolon_iff]
  constructor
  · intro heq hends
    obtain ⟨before, hv⟩ := List.getLast?_eq_some_iff.1 hends
    rw [← heq] at hbare
    exact Text.getLast_dropTrailing_not (hbare.symm.trans hv) rfl
  · intro hends
    have hlast := not_isFiller_last hends
    rw [← String.toList_inj, hbare]
    rcases List.eq_nil_or_concat' (unterminated s).toList with hnil | ⟨before, c, hv⟩
    · rw [hnil]
      rfl
    · rw [hv, Text.dropTrailing_append_cons (hlast c (by rw [hv]; simp))]
      rfl

/-- Nothing is kept of blanks and semicolons, unless they are scattered. -/
theorem unterminated_eq_empty_iff (s : String) :
    unterminated s = "" ↔ (∀ c ∈ s.toList, isFiller c) ∧ ¬Scattered s := by
  obtain ⟨front, between, semicolons, blanks, h⟩ := exists_passes s
  rw [← endsInSemicolon_iff]
  constructor
  · intro hempty
    refine ⟨fun c hc => ?_, fun hends => ?_⟩
    · rw [← h.front_append, h.begun_eq, hempty, List.mem_append] at hc
      rcases hc with hc | hc
      · exact Bool.or_eq_true_iff.2 (.inr (h.isBlank_front c hc))
      · exact h.isFiller_ending c hc
    · rw [hempty] at hends
      cases hends
  · rintro ⟨hfillers, hends⟩
    have hlast := not_isFiller_last hends
    rw [← String.toList_eq_nil_iff]
    rcases List.eq_nil_or_concat' (unterminated s).toList with hnil | ⟨before, c, hv⟩
    · exact hnil
    · refine absurd (hfillers c ?_) (hlast c (by rw [hv]; simp))
      rw [← h.front_append, h.begun_eq, hv]
      simp

end Statements

section Batches

/-- What is kept of the statements. -/
def kept (statements : List String) : List String :=
  (statements.map unterminated).filter (!·.isEmpty)

variable {s : String} {parts : List String}

theorem intercalate_append_terminator (hne : parts ≠ []) :
    String.intercalate "; " parts ++ ";" = String.intercalate " " (parts.map (· ++ ";")) := by
  have hseparator : "; " = ";" ++ " " := rfl
  induction parts with
  | nil => exact absurd rfl hne
  | cons part parts ih =>
    cases parts with
    | nil => rfl
    | cons next parts =>
      rw [String.intercalate_cons_cons, String.append_assoc, ih (List.cons_ne_nil _ _), hseparator]
      simp only [List.map_cons, String.intercalate_cons_cons, String.append_assoc]

theorem joinStatements_eq_intercalate (statements : List String) :
    joinStatements statements = String.intercalate " " ((kept statements).map (· ++ ";")) := by
  rw [joinStatements, kept]
  generalize (statements.map unterminated).filter (!·.isEmpty) = parts
  cases parts with
  | nil => rfl
  | cons part parts => exact intercalate_append_terminator (List.cons_ne_nil _ _)

theorem kept_append (first second : List String) :
    kept (first ++ second) = kept first ++ kept second := by
  rw [kept, List.map_append, List.filter_append]
  rfl

theorem kept_singleton (s : String) :
    kept [s] = if unterminated s = "" then [] else [unterminated s] := by
  by_cases hempty : unterminated s = "" <;> simp [kept, hempty]

theorem joinStatements_singleton (s : String) :
    joinStatements [s] = if unterminated s = "" then "" else unterminated s ++ ";" := by
  rw [joinStatements_eq_intercalate, kept_singleton]
  split <;> rfl

/-- A statement contributes nothing where nothing is kept of it. -/
theorem unterminated_eq_empty_iff_omitted (s : String) :
    unterminated s = "" ↔
      ∀ before after, joinStatements (before ++ s :: after) = joinStatements (before ++ after) := by
  constructor
  · intro hempty before after
    have hkept : kept (before ++ s :: after) = kept (before ++ after) := by
      rw [List.append_cons, kept_append, kept_append, kept_append, kept_singleton, if_pos hempty,
        List.append_nil]
    rw [joinStatements_eq_intercalate, joinStatements_eq_intercalate, hkept]
  · intro h
    by_contra hne
    have halone := h [] []
    rw [List.nil_append, joinStatements_singleton, if_neg hne] at halone
    have hlength := congrArg String.length halone
    rw [String.length_append] at hlength
    exact absurd hlength (Nat.succ_ne_zero _)

theorem mem_kept {statements : List String} {part : String} :
    part ∈ kept statements ↔ part ≠ "" ∧ ∃ s ∈ statements, unterminated s = part := by
  simp [kept, and_comm]

theorem EndsInSemicolon.ne_empty {text : String} (h : EndsInSemicolon text) : text ≠ "" := by
  rintro rfl
  cases h

theorem forall_kept_iff (statements : List String) :
    (∀ part ∈ kept statements, ¬EndsInSemicolon part) ↔ ∀ s ∈ statements, ¬Scattered s := by
  simp only [← endsInSemicolon_iff, mem_kept]
  constructor
  · exact fun h s hs hends => h _ ⟨hends.ne_empty, s, hs, rfl⟩ hends
  · rintro h _ ⟨-, s, hs, rfl⟩
    exact h s hs

end Batches

section Again

variable {parts : List String}

theorem exists_concat_of_ne_empty {text : String} (hne : text ≠ "") :
    ∃ front last, text.toList = front ++ [last] :=
  (List.eq_nil_or_concat' _).resolve_left (mt String.toList_eq_nil_iff.1 hne)

theorem endsInSemicolon_append {text rest : String} (hne : rest ≠ "") :
    EndsInSemicolon (text ++ rest) ↔ EndsInSemicolon rest := by
  rw [EndsInSemicolon, EndsInSemicolon, String.toList_append, List.getLast?_append]
  cases hlast : rest.toList.getLast? with
  | none => exact absurd (String.toList_eq_nil_iff.1 (List.getLast?_eq_none_iff.1 hlast)) hne
  | some c => rfl

theorem Unblank.append {first last : String} (hfirst : Unblank first) (hlast : Unblank last)
    (hfirst_ne : first ≠ "") (hlast_ne : last ≠ "") (separator : String) :
    Unblank (first ++ separator ++ last) := by
  have hhead : (first ++ separator ++ last).toList.head? = first.toList.head? := by
    cases hlist : first.toList with
    | nil => exact absurd (String.toList_eq_nil_iff.1 hlist) hfirst_ne
    | cons c cs => simp [String.toList_append, hlist]
  have hend : (first ++ separator ++ last).toList.getLast? = last.toList.getLast? := by
    obtain ⟨cs, c, hlist⟩ := exists_concat_of_ne_empty hlast_ne
    simp [String.toList_append, hlist]
  exact ⟨hhead ▸ hfirst.first, hend ▸ hlast.last⟩

/-- Parts that are put together begin as the first one and end as the last one. -/
theorem intercalate_unblank {part : String} {parts : List String}
    (h : ∀ p ∈ part :: parts, Unblank p ∧ p ≠ "") :
    Unblank (String.intercalate "; " (part :: parts)) ∧
      String.intercalate "; " (part :: parts) ≠ "" ∧
        (EndsInSemicolon (String.intercalate "; " (part :: parts)) ↔
          ∃ last ∈ (part :: parts).getLast?, EndsInSemicolon last) := by
  induction parts generalizing part with
  | nil =>
    obtain ⟨hunblank, hne⟩ := h part List.mem_cons_self
    exact ⟨hunblank, hne, by simp⟩
  | cons next parts ih =>
    obtain ⟨hpart, hrest⟩ := List.forall_mem_cons.1 h
    obtain ⟨hunblank, hne, hends⟩ := ih hrest
    rw [String.intercalate_cons_cons, endsInSemicolon_append hne, hends, List.getLast?_cons_cons]
    refine ⟨hpart.1.append hunblank hpart.2 hne _, fun hempty => ?_, Iff.rfl⟩
    rw [String.append_eq_empty_iff] at hempty
    exact hne hempty.2

/-- A terminator that was put is the first thing that is taken off. -/
theorem toList_unterminated_append_terminator {body : String} (hbody : Unblank body)
    (hne : body ≠ "") :
    (unterminated (body ++ ";")).toList =
      dropTrailing isBlankChar (dropTrailing (· == ';') body.toList) := by
  obtain ⟨c, cs, hfirst⟩ := List.exists_cons_of_ne_nil (mt String.toList_eq_nil_iff.1 hne)
  have hblank : ¬isBlankChar c := hbody.first c (by rw [hfirst]; rfl)
  have htrim : Text.trim (body ++ ";").toList = body.toList ++ [';'] := by
    rw [Text.trim, String.toList_append, hfirst, List.cons_append,
      List.dropWhile_cons_of_neg hblank, ← List.cons_append, ← hfirst]
    exact Text.dropTrailing_append_cons (by decide) _ _
  rw [toList_unterminated, htrim, Text.dropTrailing_append_of_forall (by simp)]

/-- It is put again, unless a semicolon stands in front of it. -/
theorem joinStatements_terminated_iff {body : String} (hbody : Unblank body) (hne : body ≠ "") :
    joinStatements [body ++ ";"] = body ++ ";" ↔ ¬EndsInSemicolon body := by
  have hkept := toList_unterminated_append_terminator hbody hne
  obtain ⟨front, last, hlast⟩ := exists_concat_of_ne_empty hne
  rw [EndsInSemicolon, hlast, List.getLast?_concat, Option.some.injEq]
  rw [hlast] at hkept
  constructor
  · rintro heq rfl
    -- The semicolon in front is taken off as well, and only one is put again.
    have hshorter : (unterminated (body ++ ";")).toList.length ≤ front.length := by
      rw [hkept, Text.dropTrailing_append_of_forall (by simp)]
      exact (Text.length_dropTrailing_le _ _).trans (Text.length_dropTrailing_le _ _)
    have hlength := congrArg (·.toList.length) heq
    rw [joinStatements_singleton] at hlength
    split at hlength
    · simp at hlength
    · simp only [String.toList_append, List.length_append, hlast, List.length_singleton] at hlength
      omega
  · intro hpass
    have hblank : ¬isBlankChar last := hbody.last last (by rw [hlast]; simp)
    have hbody : unterminated (body ++ ";") = body := by
      rw [← String.toList_inj, hkept, hlast, Text.dropTrailing_append_cons (by simpa using hpass),
        Text.dropTrailing_append_cons hblank]
      rfl
    rw [joinStatements_singleton, hbody, if_neg hne]

theorem joinStatements_again_iff (statements : List String) :
    joinStatements [joinStatements statements] = joinStatements statements ↔
      ∀ last ∈ (kept statements).getLast?, ¬EndsInSemicolon last := by
  have hparts : ∀ part ∈ kept statements, Unblank part ∧ part ≠ "" := by
    intro part hpart
    obtain ⟨hne, s, -, rfl⟩ := mem_kept.1 hpart
    exact ⟨unterminated_unblank s, hne⟩
  rw [joinStatements_eq_intercalate statements]
  cases hkept : kept statements with
  | nil =>
    have hempty : joinStatements [""] = "" := rfl
    simp [hempty]
  | cons part parts =>
    rw [hkept] at hparts
    obtain ⟨hunblank, hne, hends⟩ := intercalate_unblank hparts
    rw [← intercalate_append_terminator (List.cons_ne_nil _ _),
      joinStatements_terminated_iff hunblank hne, hends]
    simp

/-- What is expected of joined statements, and where it holds. -/
structure Terminated (statements : List String) : Prop where
  /-- Each statement that is kept gets a terminator. -/
  joined_eq : joinStatements statements =
    String.intercalate " " ((kept statements).map (· ++ ";"))
  unblank : ∀ part ∈ kept statements, Unblank part
  bare_iff : ∀ s ∈ statements, unterminated s = bare s ↔ ¬Scattered s
  /-- No semicolon stands before a terminator, unless a statement is scattered. -/
  once_iff : (∀ part ∈ kept statements, ¬EndsInSemicolon part) ↔ ∀ s ∈ statements, ¬Scattered s
  /-- Blanks and semicolons contribute nothing, unless they are scattered. -/
  omitted_iff : ∀ s ∈ statements, ((∀ c ∈ s.toList, isFiller c) ∧ ¬Scattered s) ↔
    ∀ before after, joinStatements (before ++ s :: after) = joinStatements (before ++ after)
  /-- Joining once more changes nothing, unless a semicolon stands before the last terminator. -/
  again_iff : joinStatements [joinStatements statements] = joinStatements statements ↔
    ∀ last ∈ (kept statements).getLast?, ¬EndsInSemicolon last

theorem joinStatements_terminated (statements : List String) : Terminated statements where
  joined_eq := joinStatements_eq_intercalate statements
  unblank := by
    intro part hpart
    obtain ⟨-, s, -, rfl⟩ := mem_kept.1 hpart
    exact unterminated_unblank s
  bare_iff := fun s _ => unterminated_eq_bare_iff s
  once_iff := forall_kept_iff statements
  omitted_iff := fun s _ =>
    (unterminated_eq_empty_iff s).symm.trans (unterminated_eq_empty_iff_omitted s)
  again_iff := joinStatements_again_iff statements

/-- Scattered semicolons give a second terminator, also where there is no statement, and joining
once more takes it away. -/
theorem scattered_joinStatements :
    joinStatements ["LIST STREAMS; ;"] = "LIST STREAMS;;" ∧ joinStatements ["; ;"] = ";;" ∧
      joinStatements [joinStatements ["LIST STREAMS; ;"]] = "LIST STREAMS;" := by
  decide

end Again

end StreamSql.Client
