import StreamSql.Client.Connection

/-!
# Repeated attempts

A request is repeated until it succeeds, is refused for good, or has used up its retries. The waits
in between are doubled each time, up to a minute.
-/
namespace StreamSql.Client

/-- The longest wait in milliseconds. -/
def longestDelay : UInt64 := 60000

/-- The power of two, where it has 64 bits. -/
def twoPower? (n : UInt32) : Option UInt64 :=
  if n < 64 then some (1 <<< UInt64.ofNat n.toNat) else none

/-- The product, where it has 64 bits. -/
def product? (a b : UInt64) : Option UInt64 :=
  if a.toNat * b.toNat < UInt64.size then some (a * b) else none

/-- The wait after an attempt, counted from zero. -/
def backoff (delay : UInt64) (attempt : UInt32) : UInt64 :=
  if delay = 0 then 0
  else
    match (twoPower? attempt).bind (product? delay) with
    | some wait => min wait longestDelay
    | none => longestDelay

/-- What the client makes of an outcome. -/
inductive Verdict where
  | accepted (response : Response)
  | final (failure : Failure)
  | passing (failure : Failure)

def Outcome.verdict (url : String) : Outcome → Verdict
  | .dropped => .passing (.unreached url)
  | .answered response =>
    if response.isSuccess then .accepted response
    else
      let failure := Failure.ofAnswer response.status response.body.text
      if response.isClientError then .final failure else .passing failure

def giveUp (url : String) (failure : Failure) : Talk Response := do
  Talk.note (.failed url failure)
  throw failure

def pause (config : Config) (attempt : Nat) : Talk Unit := do
  let delay := backoff config.retryDelay (UInt32.ofNat attempt)
  Talk.note (.retrying (attempt + 1) delay)
  Talk.record (.waited delay)

/-- Makes an attempt and up to `left` more. -/
def attempts (config : Config) (request : Request) (left attempt : Nat) : Talk Response := do
  let url := config.baseUrl ++ request.path
  match (← Talk.send request).verdict url with
  | .accepted response => pure response
  | .final failure => giveUp url failure
  | .passing failure =>
    match left with
    | 0 => giveUp url failure
    | left + 1 => do
      pause config attempt
      attempts config request left (attempt + 1)

/-- Sends a request until an attempt is accepted or the client gives up. -/
def exchange (config : Config) (request : Request) : Talk Response :=
  attempts config request config.maxRetries.toNat 0

/-- Attempts that fail before a request is made, where there is no URL to send it to. The client
waits between them all the same. -/
def vainAttempts (config : Config) : (left attempt : Nat) → Talk Unit
  | 0, _ => pure ()
  | left + 1, attempt => do
    pause config attempt
    vainAttempts config left (attempt + 1)

end StreamSql.Client
