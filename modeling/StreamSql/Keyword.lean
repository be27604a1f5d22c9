/-!
# Closed vocabularies

A keyword family lists its members in their documented order and writes each as one token. The
two laws make reading a token the inverse of writing it: `ofToken?_eq_some_iff`.
-/
namespace StreamSql

class Keyword (α : Type) where
  all : List α
  token : α → String
  /-- What the family is called in messages. -/
  label : String
  mem_all : ∀ a, a ∈ all
  tokens_nodup : (all.map token).Nodup

namespace Keyword

variable {α : Type} [Keyword α]

def tokens (α : Type) [Keyword α] : List String :=
  (all : List α).map token

/-- The tokens as messages list them. -/
def expected (α : Type) [Keyword α] : String :=
  String.intercalate ", " (tokens α)

/-- Tokens are matched whole and with their case. -/
def ofToken? (s : String) : Option α :=
  all.find? (fun a => token a == s)

/-- The message for a text that is no token of the family. -/
def refusal (α : Type) [Keyword α] (s : String) : String :=
  "Invalid " ++ label α ++ ": " ++ s ++ ", expected one of " ++ expected α

def parse (s : String) : Except String α :=
  match ofToken? s with
  | some a => .ok a
  | none => .error (refusal α s)

theorem eq_of_token_eq {a b : α} (h : token a = token b) : a = b := by
  have nodup := tokens_nodup (α := α)
  have ha := mem_all a
  have hb := mem_all b
  generalize (all : List α) = l at nodup ha hb
  induction l with
  | nil => cases ha
  | cons x l ih =>
    rw [List.map_cons, List.nodup_cons] at nodup
    rcases List.mem_cons.1 ha with rfl | ma <;> rcases List.mem_cons.1 hb with rfl | mb
    · rfl
    · exact absurd (h ▸ List.mem_map_of_mem mb) nodup.1
    · exact absurd (h ▸ List.mem_map_of_mem ma) nodup.1
    · exact ih nodup.2 ma mb

@[simp] theorem ofToken?_eq_some_iff {s : String} {a : α} :
    ofToken? s = some a ↔ token a = s := by
  constructor
  · intro h
    simpa using List.find?_some h
  · rintro rfl
    cases h : (ofToken? (token a) : Option α) with
    | none => simpa using List.find?_eq_none.1 h a (mem_all a)
    | some b =>
      have : token b = token a := by simpa using List.find?_some h
      rw [eq_of_token_eq this]

end Keyword

end StreamSql
