import StreamSql.Client.Failure
import StreamSql.Client.Request

/-!
# Connections

A connection is the client together with the server it talks to, which is no more than the
outcomes of the attempts to come. Everything that happens is noted in its order.
-/
namespace StreamSql.Client

open Server (Entity)

/-- The body of an answer, which may break off. -/
inductive Body where
  | whole (text : String)
  | cut

/-- What is known of the text of a body. -/
def Body.text : Body → String
  | whole text => text
  | cut => "<unreadable body: error decoding response body>"

structure Response where
  status : Nat
  body : Body

namespace Response

def isSuccess (r : Response) : Bool :=
  200 ≤ r.status && r.status < 300

/-- The request itself is at fault. -/
def isClientError (r : Response) : Bool :=
  400 ≤ r.status && r.status < 500

end Response

/-- What an attempt comes to. -/
inductive Outcome where
  | answered (response : Response)
  | dropped

/-- A server by the outcomes of the attempts to come. -/
structure Script where
  outcomes : List Outcome
  /-- What every attempt after these comes to. -/
  after : Outcome

namespace Script

def head (s : Script) : Outcome :=
  s.outcomes.head?.getD s.after

def tail (s : Script) : Script :=
  { s with outcomes := s.outcomes.tail }

end Script

/-- What the client reports while it works. -/
inductive Notice where
  | retrying (attempt : Nat) (delay : UInt64)
  | failed (url : String) (failure : Failure)
  | warned (warning : String)
  | started (queryId : String)
  | terminated (queryId : String)
  | unhealthy (failure : Failure)

namespace Notice

def level : Notice → String
  | retrying .. | warned _ | unhealthy _ => "WARN"
  | failed .. => "ERROR"
  | started _ | terminated _ => "INFO"

def text : Notice → String
  | retrying attempt delay =>
    "ksqlDB request attempt " ++ toString attempt ++ " failed, retrying in " ++
      toString delay.toNat ++ " ms"
  | failed url failure => "ksqlDB request to " ++ url ++ " failed: " ++ failure.message
  | warned warning => "ksqlDB warning: " ++ warning
  | started queryId => "Started persistent query " ++ queryId
  | terminated queryId => "Terminated query " ++ queryId
  | unhealthy failure => "ksqlDB health check failed: " ++ failure.message

end Notice

inductive Event where
  | sent (request : Request)
  | waited (milliseconds : UInt64)
  | noted (notice : Notice)

structure Connection where
  script : Script
  /-- The highest sequence number of a command so far, negative before the first one. -/
  highest : Int64 := -1
  /-- What has happened, from first to last. -/
  events : List Event := []

namespace Connection

def sequence (s : Connection) : Option Int64 :=
  if s.highest < 0 then none else some s.highest

def requests (s : Connection) : List Request :=
  s.events.filterMap fun
    | .sent request => some request
    | _ => none

def record (s : Connection) (event : Event) : Connection :=
  { s with events := s.events ++ [event] }

/-- Learns the sequence numbers of an answer. -/
def learn (s : Connection) (entities : List Entity) : Connection :=
  { s with highest := (entities.filterMap Entity.sequenceNumber).foldl max s.highest }

end Connection

/-- What a call does in a connection. -/
abbrev Talk := ExceptT Failure (StateM Connection)

namespace Talk

def record (event : Event) : Talk Unit :=
  modify (·.record event)

def note (notice : Notice) : Talk Unit :=
  record (.noted notice)

/-- Makes an attempt. Of the library that sends requests it is assumed, here and for all calls, that
the URL of the server with the path behind it is a URL: each attempt then makes one request and
comes to one outcome. -/
def send (request : Request) : Talk Outcome := do
  record (.sent request)
  let connection ← get
  set { connection with script := connection.script.tail }
  pure connection.script.head

def ofExcept {α : Type} : Except Failure α → Talk α
  | .ok a => pure a
  | .error failure => throw failure

/-- A part of a call that only statements can fail at. -/
def compiled {α : Type} (result : Except Fault α) : Talk α :=
  ofExcept (result.mapError .statement)

/-! ## What a call leaves behind -/

variable {α β : Type}

@[simp] theorem run_pure (a : α) (c : Connection) : (pure a : Talk α).run c = (.ok a, c) := rfl

@[simp] theorem run_throw (failure : Failure) (c : Connection) :
    (throw failure : Talk α).run c = (.error failure, c) := rfl

theorem run_bind (x : Talk α) (next : α → Talk β) (c : Connection) :
    (x >>= next).run c =
      match x.run c with
      | (.ok a, c) => (next a).run c
      | (.error failure, c) => (.error failure, c) := by
  change (ExceptT.bindCont next (x.run c).1) (x.run c).2 = _
  rcases x.run c with ⟨result, c⟩
  cases result <;> rfl

@[simp] theorem run_map (f : α → β) (x : Talk α) (c : Connection) :
    (f <$> x).run c = ((x.run c).1.map f, (x.run c).2) := by
  rw [map_eq_pure_bind, run_bind]
  rcases x.run c with ⟨result, c⟩
  cases result <;> rfl

@[simp] theorem run_get (c : Connection) : (get : Talk Connection).run c = (.ok c, c) := rfl

@[simp] theorem run_modify (f : Connection → Connection) (c : Connection) :
    (modify f : Talk Unit).run c = (.ok (), f c) := rfl

@[simp] theorem run_record (event : Event) (c : Connection) :
    (record event).run c = (.ok (), c.record event) := rfl

@[simp] theorem run_note (notice : Notice) (c : Connection) :
    (note notice).run c = (.ok (), c.record (.noted notice)) := rfl

@[simp] theorem run_send (request : Request) (c : Connection) :
    (send request).run c =
      (.ok c.script.head, { c.record (.sent request) with script := c.script.tail }) := rfl

@[simp] theorem run_ofExcept (result : Except Failure α) (c : Connection) :
    (ofExcept result).run c = (result, c) := by
  cases result <;> rfl

@[simp] theorem run_compiled (result : Except Fault α) (c : Connection) :
    (compiled result).run c = (result.mapError .statement, c) := by
  rw [compiled, run_ofExcept]

theorem run_tryCatch (x : Talk α) (handle : Failure → Talk α) (c : Connection) :
    (tryCatch x handle).run c =
      match x.run c with
      | (.ok a, c) => (.ok a, c)
      | (.error failure, c) => (handle failure).run c := by
  rw [ExceptT.run_tryCatch]
  rcases h : x.run c with ⟨result, d⟩
  have hbind (next : Except Failure α → StateM Connection (Except Failure α)) :
      (x.run >>= next) c = next result d := by
    change (next (x.run c).1) (x.run c).2 = _
    rw [h]
  rw [hbind]
  cases result <;> rfl

end Talk

end StreamSql.Client
