/-!
# Tickers

A ticker is due at once and then once per period. A tick that comes late starts the period anew
from when it came; up to 5 milliseconds do not count as late.
-/

namespace WorkflowEngine

structure Ticker where
  period : Nat
  next : Nat
  deriving DecidableEq

namespace Ticker

/-- How late a tick may be without moving the ones after it, in milliseconds. -/
def tolerance : Nat := 5

def isDue (t : Ticker) (now : Nat) : Bool := t.next ≤ now

def tick (t : Ticker) (now : Nat) : Ticker :=
  { t with next := (if t.next + tolerance < now then now else t.next) + t.period }

end Ticker

end WorkflowEngine
