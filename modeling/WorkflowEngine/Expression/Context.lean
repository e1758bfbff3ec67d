import WorkflowEngine.Json.Value
import WorkflowEngine.Text.Case
import WorkflowEngine.Text.Quoted

/-!
# Context of a run

What expressions can look up: the outputs of tasks that are done, the variables of the workflow,
and secrets. Secrets come from a provider that is asked when they are first needed; what it answers
is kept, and a failure is not.
-/

namespace WorkflowEngine.Expression

open Json (Value)

structure Secret where
  key : String
  value : String
  deriving DecidableEq

/-- A source of secrets. `answer n` is what the call after `n` others returns. -/
structure Provider where
  name : String
  answer : Nat → Except String (List Secret)

structure SecretCache where
  provider : Option Provider := none
  calls : Nat := 0
  loaded : Option (List Secret) := none

namespace SecretCache

def isLoaded (c : SecretCache) : Bool := c.loaded.isSome

/-- Makes sure that the secrets are there. Without a provider there are none to load. -/
def load (c : SecretCache) : Except String (Option (List Secret)) × SecretCache :=
  match c.provider with
  | none => (.ok none, c)
  | some provider =>
    match c.loaded with
    | some secrets => (.ok (some secrets), c)
    | none =>
      match provider.answer c.calls with
      | .ok secrets =>
        (.ok (some secrets), { c with calls := c.calls + 1, loaded := some secrets })
      | .error reason => (.error reason, { c with calls := c.calls + 1 })

/-- The first secret under a key, ignoring the case of ASCII letters. -/
def lookup (c : SecretCache) (key : String) : Option Secret :=
  (c.loaded.getD []).find? fun s => Text.sameIgnoringAsciiCase s.key key

def description (c : SecretCache) : String :=
  let provider :=
    match c.provider with
    | none => "None"
    | some p => "Some(" ++ Text.quoted p.name ++ ")"
  "SecretCache \x7b provider: " ++ provider ++ ", loaded: " ++
    (if c.isLoaded then "true" else "false") ++ " \x7d"

end SecretCache

structure Context where
  traceId : String
  outputs : Fields Value := []
  «variables» : Fields Value := []
  secrets : SecretCache := {}

structure ContextSummary where
  traceId : String
  outputs : Nat
  «variables» : Nat
  secretsEnabled : Bool
  secretsLoaded : Bool
  secretProvider : Option String

namespace Context

def setOutput (c : Context) (key : String) (value : Value) : Context :=
  { c with outputs := c.outputs.insert key value }

def setVariable (c : Context) (key : String) (value : Value) : Context :=
  { c with «variables» := c.variables.insert key value }

def summary (c : Context) : ContextSummary where
  traceId := c.traceId
  outputs := c.outputs.length
  «variables» := c.variables.length
  secretsEnabled := c.secrets.provider.isSome
  secretsLoaded := c.secrets.isLoaded
  secretProvider := c.secrets.provider.map (·.name)

end Context

end WorkflowEngine.Expression
