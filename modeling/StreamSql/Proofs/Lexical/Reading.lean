import Mathlib.Tactic.SplitIfs

/-!
# Reading text for quotes and brackets

A text is read from left to right, and every single quote changes between the inside and the outside
of quotes. Outside, the brackets and the terminators count. The three readings are one machine
(`read_eq_some_iff`).
-/
namespace StreamSql.Lexical

/-- Whether reading ends inside quotes, from the inside or the outside. -/
def endsQuoted : Bool → List Char → Bool
  | quoted, [] => quoted
  | quoted, c :: cs => endsQuoted (if c = '\'' then !quoted else quoted) cs

/-- What stands outside quotes, without the quotes. -/
def outside : Bool → List Char → List Char
  | _, [] => []
  | quoted, c :: cs =>
    if c = '\'' then outside (!quoted) cs
    else if quoted then outside quoted cs
    else c :: outside quoted cs

/-- The closing brackets that are awaited after reading, or nothing if one came that was not the
next awaited. -/
def nesting : List Char → List Char → Option (List Char)
  | awaited, [] => some awaited
  | awaited, c :: cs =>
    if c = '(' then nesting (')' :: awaited) cs
    else if c = '[' then nesting (']' :: awaited) cs
    else if c = ')' ∨ c = ']' then
      if awaited.head? = some c then nesting awaited.tail cs else none
    else nesting awaited cs

theorem endsQuoted_append (quoted : Bool) (cs ds : List Char) :
    endsQuoted quoted (cs ++ ds) = endsQuoted (endsQuoted quoted cs) ds := by
  induction cs generalizing quoted with
  | nil => rfl
  | cons c cs ih => exact ih _

theorem outside_append (quoted : Bool) (cs ds : List Char) :
    outside quoted (cs ++ ds) = outside quoted cs ++ outside (endsQuoted quoted cs) ds := by
  induction cs generalizing quoted with
  | nil => rfl
  | cons c cs ih =>
    rw [List.cons_append, outside, outside, endsQuoted]
    by_cases h : c = '\''
    · rw [if_pos h, if_pos h, if_pos h, ih]
    · rw [if_neg h, if_neg h, if_neg h, ih]
      cases quoted <;> rfl

theorem endsQuoted_of_not_mem {quoted : Bool} {cs : List Char} (h : '\'' ∉ cs) :
    endsQuoted quoted cs = quoted := by
  induction cs with
  | nil => rfl
  | cons c cs ih =>
    rw [List.mem_cons, not_or] at h
    rw [endsQuoted, if_neg (Ne.symm h.1), ih h.2]

theorem mem_of_mem_outside {quoted : Bool} {cs : List Char} {c : Char}
    (h : c ∈ outside quoted cs) : c ∈ cs := by
  induction cs generalizing quoted with
  | nil => exact h
  | cons d ds ih =>
    rw [outside] at h
    split_ifs at h
    · exact List.mem_cons_of_mem _ (ih h)
    · exact List.mem_cons_of_mem _ (ih h)
    · rcases List.mem_cons.mp h with rfl | hmem
      · exact List.mem_cons_self
      · exact List.mem_cons_of_mem _ (ih hmem)

theorem nesting_append (awaited cs ds : List Char) :
    nesting awaited (cs ++ ds) = (nesting awaited cs).bind (nesting · ds) := by
  induction cs generalizing awaited with
  | nil => rfl
  | cons c cs ih =>
    rw [List.cons_append, nesting, nesting]
    split_ifs
    · exact ih _
    · exact ih _
    · exact ih _
    · rfl
    · exact ih _

/-- One statement: its only terminator stands at the end, and no quote or bracket is left open. -/
structure IsStatement (text : String) : Prop where
  quotes : endsQuoted false text.toList = false
  terminator : ∃ body, text.toList = body ++ [';'] ∧ endsQuoted false body = false ∧
    ';' ∉ outside false body
  brackets : nesting [] (outside false text.toList) = some []

/-- No quote is left open, and nothing ends a statement. -/
structure Closed (text : String) : Prop where
  quotes : endsQuoted false text.toList = false
  terminator : ';' ∉ outside false text.toList

theorem Closed.append {s t : String} (hs : Closed s) (ht : Closed t) : Closed (s ++ t) where
  quotes := by rw [String.toList_append, endsQuoted_append, hs.quotes, ht.quotes]
  terminator := by
    rw [String.toList_append, outside_append, hs.quotes, List.mem_append, not_or]
    exact ⟨hs.terminator, ht.terminator⟩

theorem Closed.of_append {s t : String} (h : Closed (s ++ t)) (ht : '\'' ∉ t.toList) :
    Closed s where
  quotes := by
    have hquotes := h.quotes
    rwa [String.toList_append, endsQuoted_append, endsQuoted_of_not_mem ht] at hquotes
  terminator := by
    intro hmem
    apply h.terminator
    rw [String.toList_append, outside_append]
    exact List.mem_append_left _ hmem

structure State where
  quoted : Bool
  awaited : List Char

/-- A terminator or a bracket that is not awaited stops the reading. -/
def State.step (s : State) (c : Char) : Option State :=
  if c = '\'' then some { s with quoted := !s.quoted }
  else if s.quoted then some s
  else if c = ';' then none
  else if c = '(' then some { s with awaited := ')' :: s.awaited }
  else if c = '[' then some { s with awaited := ']' :: s.awaited }
  else if c = ')' ∨ c = ']' then
    if s.awaited.head? = some c then some { s with awaited := s.awaited.tail } else none
  else some s

def read (s : State) (cs : List Char) : Option State :=
  cs.foldlM State.step s

@[simp] theorem read_nil (s : State) : read s [] = some s := rfl

@[simp] theorem read_cons (s : State) (c : Char) (cs : List Char) :
    read s (c :: cs) = (s.step c).bind (read · cs) := rfl

theorem read_append (s : State) (cs ds : List Char) :
    read s (cs ++ ds) = (read s cs).bind (read · ds) :=
  List.foldlM_append

theorem read_eq_some_iff (cs : List Char) (s t : State) :
    read s cs = some t ↔
      endsQuoted s.quoted cs = t.quoted ∧ ';' ∉ outside s.quoted cs ∧
        nesting s.awaited (outside s.quoted cs) = some t.awaited := by
  induction cs generalizing s with
  | nil =>
    obtain ⟨quoted, awaited⟩ := s
    obtain ⟨quoted', awaited'⟩ := t
    simp [endsQuoted, outside, nesting]
  | cons c cs ih =>
    obtain ⟨quoted, awaited⟩ := s
    rw [read_cons]
    by_cases hquote : c = '\''
    · simp [State.step, endsQuoted, outside, hquote, ih]
    · cases quoted with
      | true => simp [State.step, endsQuoted, outside, hquote, ih]
      | false =>
        by_cases hend : c = ';'
        · simp [State.step, outside, hend]
        · by_cases hround : c = '('
          · simp [State.step, endsQuoted, outside, nesting, hround, ih]
          · by_cases hsquare : c = '['
            · simp [State.step, endsQuoted, outside, nesting, hsquare, ih]
            · by_cases hclose : c = ')' ∨ c = ']'
              · by_cases hhead : awaited.head? = some c
                · simp [State.step, endsQuoted, outside, nesting, hquote, hend, hround, hsquare,
                    hclose, hhead, Ne.symm hend, ih]
                · simp [State.step, endsQuoted, outside, nesting, hquote, hend, hround, hsquare,
                    hclose, hhead]
              · simp [State.step, endsQuoted, outside, nesting, hquote, hend, hround, hsquare,
                  hclose, Ne.symm hend, ih]

end StreamSql.Lexical
