import WorkflowEngine.Execution.Intake

/-!
# Schedules

A schedule asks for a workflow at regular times, counted in nanoseconds. Times that were missed are
not made up for: after a request the schedule moves on to the first time of its grid that lies
ahead.
-/

namespace WorkflowEngine

structure Schedule where
  workflow : String
  user : String
  interval : Nat
  next : Nat
  deriving DecidableEq

def nanosPerMilli : Nat := 1000000

namespace Schedule

def isDue (s : Schedule) (now : Nat) : Bool := s.next ≤ now

/-- The longest step that a schedule can make: 64 bits of nanoseconds. -/
def maxStep : Nat := Nat.pow 2 64 - 1

/-- Moves on past `now`. Without an interval the schedule is due again at once. -/
def advance (s : Schedule) (now : Nat) : Schedule :=
  if s.interval = 0 then { s with next := now }
  else if now < s.next then s
  else
    let missed := (now - s.next) / s.interval + 1
    { s with next := s.next + min (s.interval * missed) maxStep }

end Schedule

/-- Requests what is due at `now`, in nanoseconds; the intake counts milliseconds. `canceled` tells
whether the token is cancelled after so many attempts; then nothing more is requested. A refusal
ends the round as well, and leaves the schedules that were served advanced. -/
def serve (now : Nat) (canceled : Nat → Bool) :
    List Schedule → Intake → Except IntakeError Nat × List Schedule × Intake
  | [], intake => (.ok 0, [], intake)
  | s :: rest, intake =>
    if !s.isDue now then
      let (count, rest, intake) := serve now canceled rest intake
      (count, s :: rest, intake)
    else if canceled intake.attempts then (.ok 0, s :: rest, intake)
    else
      match intake.submit (now / nanosPerMilli) s.workflow s.user with
      | (.error e, intake) => (.error e, s :: rest, intake)
      | (.ok _, intake) =>
        let (count, rest, intake) := serve now canceled rest intake
        (count.map (· + 1), s.advance now :: rest, intake)

end WorkflowEngine
