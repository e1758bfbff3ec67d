import WorkflowEngine.Json.Value

/-!
# Pieces of work

Work sleeps, waits for its token to be cancelled, cancels it, and ends. Only sleeping takes time;
everything else happens at once.
-/

namespace WorkflowEngine

/-- The reasons of a failure, the outermost first. -/
abbrev Reasons := List String

def Reasons.text (reasons : Reasons) : String := String.intercalate ": " reasons

/-- How work ends. A panic may carry a text. -/
inductive Outcome where
  | value (v : Json.Value)
  | failure (reasons : Reasons)
  | panic (text : Option String)

inductive Work where
  | done (o : Outcome)
  | sleep (milliseconds : Nat) (next : Work)
  /-- Goes on once the token is cancelled. -/
  | awaitCancel (next : Work)
  | cancel (next : Work)
  | hang

/-- Where work stands when nothing more can happen at an instant. -/
inductive Progress where
  | ended (o : Outcome)
  | sleeping (wake : Nat) (next : Work)
  | awaiting (next : Work)
  | hung

/-- Work as far as it gets at an instant, and whether its token is cancelled then. -/
def Work.settle (now : Nat) (canceled : Bool) : Work → Progress × Bool
  | .done o => (.ended o, canceled)
  | .sleep 0 next => next.settle now canceled
  | .sleep (ms + 1) next => (.sleeping (now + (ms + 1)) next, canceled)
  | .awaitCancel next =>
    if canceled then next.settle now canceled else (.awaiting next, canceled)
  | .cancel next => next.settle now true
  | .hang => (.hung, canceled)

namespace Progress

def isDue (now : Nat) (canceled : Bool) : Progress → Bool
  | .ended _ => false
  | .sleeping wake _ => wake ≤ now
  | .awaiting _ => canceled
  | .hung => false

def resume (now : Nat) (canceled : Bool) (p : Progress) : Progress × Bool :=
  if p.isDue now canceled then
    match p with
    | .sleeping _ next => next.settle now canceled
    | .awaiting next => next.settle now canceled
    | p => (p, canceled)
  else (p, canceled)

def wake? : Progress → Option Nat
  | .sleeping wake _ => some wake
  | _ => none

end Progress

end WorkflowEngine
