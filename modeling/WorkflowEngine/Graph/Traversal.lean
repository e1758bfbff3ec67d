/-!
# Depth-first traversal

A graph with nodes `0, 1, …` is a list that holds the targets of each node's edges. The traversal
keeps its own stack: each frame is a node and the position of its next edge. One step looks at one
edge, leaves a node, or enters the next node that has not been visited.
-/

namespace WorkflowEngine.Graph

inductive Mark where
  | unvisited
  | onStack
  | done
  deriving DecidableEq

structure Frame where
  node : Nat
  /-- Position of the edge that is looked at next. -/
  next : Nat
  deriving DecidableEq

/-- `waiting` are the nodes that have not been tried as starts; `stack` has the innermost frame
first, and `finished` the node that was left last. -/
structure Traversal where
  waiting : List Nat
  marks : List Mark
  stack : List Frame
  finished : List Nat

inductive Move where
  | moved (t : Traversal)
  /-- The edge just passed leads to a node on the stack. -/
  | met (target : Nat) (t : Traversal)
  | ended

namespace Traversal

def start (edges : List (List Nat)) : Traversal where
  waiting := List.range edges.length
  marks := List.replicate edges.length .unvisited
  stack := []
  finished := []

def mark (t : Traversal) (node : Nat) : Mark := t.marks.getD node .done

def enter (t : Traversal) (node : Nat) : Traversal :=
  { t with marks := t.marks.set node .onStack, stack := ⟨node, 0⟩ :: t.stack }

def target? (edges : List (List Nat)) (f : Frame) : Option Nat := (edges.getD f.node [])[f.next]?

def step (edges : List (List Nat)) (t : Traversal) : Move :=
  match t.stack with
  | [] =>
    match t.waiting with
    | [] => .ended
    | node :: rest =>
      let t := { t with waiting := rest }
      if t.mark node = .unvisited then .moved (t.enter node) else .moved t
  | frame :: below =>
    match target? edges frame with
    | none =>
      .moved { t with
        marks := t.marks.set frame.node .done
        stack := below
        finished := frame.node :: t.finished }
    | some target =>
      let t := { t with stack := { frame with next := frame.next + 1 } :: below }
      match t.mark target with
      | .onStack => .met target t
      | .unvisited => .moved (t.enter target)
      | .done => .moved t

/-- The first time that an edge leads back to the stack: the stack then, and the edge's target. -/
def firstMeeting (edges : List (List Nat)) : Nat → Traversal → Option (List Frame × Nat)
  | 0, _ => none
  | fuel + 1, t =>
    match t.step edges with
    | .ended => none
    | .met target t => some (t.stack, target)
    | .moved t => firstMeeting edges fuel t

/-- The traversal to its end, passing over edges that lead back. -/
def finish (edges : List (List Nat)) : Nat → Traversal → Traversal
  | 0, t => t
  | fuel + 1, t =>
    match t.step edges with
    | .ended => t
    | .met _ t => finish edges fuel t
    | .moved t => finish edges fuel t

end Traversal

def edgeCount (edges : List (List Nat)) : Nat := edges.flatten.length

/-- Enough steps: one for each start, one for leaving each node, one for each edge. -/
def enoughSteps (edges : List (List Nat)) : Nat := 2 * edges.length + edgeCount edges + 1

/-- A stack whose innermost edge leads to one of its own nodes, and that node. -/
def findMeeting (edges : List (List Nat)) : Option (List Frame × Nat) :=
  (Traversal.start edges).firstMeeting edges (enoughSteps edges)

/-- The nodes in the order in which the traversal leaves them. -/
def postorder (edges : List (List Nat)) : List Nat :=
  ((Traversal.start edges).finish edges (enoughSteps edges)).finished.reverse

end WorkflowEngine.Graph
