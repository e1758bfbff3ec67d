import Mathlib.Data.List.Chain
import Mathlib.Data.Prod.Lex
import WorkflowEngine.Execution.Attempts

/-!
# One attempt after the other

What happens in the attempts at a task is told by events: the handler is called, and a call is over.
The events are those of one attempt after the other (`Try`). All but the last have failed, and each
was followed by the next one after the delay; the token was not cancelled when they failed (`Tries`).

`Stands` says where the attempts stand after such events. It holds after the first turn of a task
(`stands_begin`), and is kept by every turn (`Stands.resume`) and by a cancellation (`Stands.mono`).
-/

namespace WorkflowEngine

/-- What happens in the attempts at a task. The token may be cancelled then. -/
inductive AttemptEvent where
  | called (call : Call) (canceled : Bool)
  | over (time : Nat) (canceled : Bool) (result : TaskEnd)

def AttemptEvent.call? : AttemptEvent → Option Call
  | .called call _ => some call
  | .over .. => none

/-- One attempt: a call of the handler that is over. -/
structure Try where
  call : Call
  /-- Whether the token was cancelled when the handler was called. -/
  canceledBefore : Bool
  time : Nat
  /-- Whether it was cancelled when the call was over. -/
  canceledAfter : Bool
  result : TaskEnd

namespace Try

def events (x : Try) : List AttemptEvent :=
  [.called x.call x.canceledBefore, .over x.time x.canceledAfter x.result]

def Failed (x : Try) : Prop := ∃ fault, x.result = .failed fault

end Try

namespace Assignment

/-! ## The events of a turn -/

/-- The call that is made at an instant. -/
def callAt (s : Assignment) (now : Nat) (a : Activity) : Call where
  time := now
  task := s.task.name
  number := a.callsOf s.task.name + 1
  description := s.task.description
  parameters := s.task.parameters
  context := s.context

/-- What happens while a call is followed. -/
def followEvents (s : Assignment) (now left : Nat) (deadline : Option Nat) (progress : Progress)
    (a : Activity) : List AttemptEvent :=
  match s.callEnd? now deadline progress, left with
  | none, _ => []
  | some (.failed fault), left + 1 =>
    .over now a.canceled (.failed fault) ::
      if a.canceled ∨ s.task.retryDelay ≠ 0 then []
      else
        let (progress, a') := s.call now a.leave
        .called (s.callAt now a.leave) a.canceled ::
          s.followEvents now left (s.deadlineFrom now) progress a'
  | some e, _ => [.over now a.canceled e]

def attemptEvents (s : Assignment) (now left : Nat) (a : Activity) : List AttemptEvent :=
  let (progress, a') := s.call now a
  .called (s.callAt now a) a.canceled :: s.followEvents now left (s.deadlineFrom now) progress a'

def beginEvents (s : Assignment) (now : Nat) (a : Activity) : List AttemptEvent :=
  s.attemptEvents now s.task.retries a

def resumeEvents (s : Assignment) (now : Nat) (tokenFirst : Bool) (attempts : Attempts)
    (a : Activity) : List AttemptEvent :=
  match attempts with
  | .calling progress deadline left =>
    let (progress, canceled) := progress.resume now a.canceled
    s.followEvents now left deadline progress { a with canceled }
  | .delaying wake _ left =>
    if a.canceled ∧ (tokenFirst ∨ now < wake) then []
    else if wake ≤ now then s.attemptEvents now left a
    else []
  | .ended _ => []

/-- All that can happen while a call is followed, with the tries that are left, and what comes of
it. -/
inductive Follows (s : Assignment) (now : Nat) : Nat → Option Nat → Progress → Activity →
    List AttemptEvent → Attempts × Activity → Prop where
  | goesOn {left : Nat} {deadline : Option Nat} {p : Progress} {a : Activity} :
      s.callEnd? now deadline p = none →
      Follows s now left deadline p a [] (.calling p deadline left, a)
  | ends {left : Nat} {deadline : Option Nat} {p : Progress} {a : Activity} {e : TaskEnd} :
      s.callEnd? now deadline p = some e →
      (∀ fault, e = .failed fault → left = 0 ∨ a.canceled = true) →
      Follows s now left deadline p a [.over now a.canceled e] (.ended e, a.leave)
  | delays {left : Nat} {deadline : Option Nat} {p : Progress} {a : Activity} {fault : TaskFault} :
      s.callEnd? now deadline p = some (.failed fault) → a.canceled = false →
      s.task.retryDelay ≠ 0 →
      Follows s now (left + 1) deadline p a [.over now a.canceled (.failed fault)]
        (.delaying (now + s.task.retryDelay) fault left, a.leave)
  | retries {left : Nat} {deadline : Option Nat} {p : Progress} {a : Activity} {fault : TaskFault}
      {events : List AttemptEvent} {outcome : Attempts × Activity} :
      s.callEnd? now deadline p = some (.failed fault) → a.canceled = false →
      s.task.retryDelay = 0 →
      Follows s now left (s.deadlineFrom now) (s.call now a.leave).1 (s.call now a.leave).2 events
        outcome →
      Follows s now (left + 1) deadline p a
        (.over now a.canceled (.failed fault) :: .called (s.callAt now a.leave) a.canceled :: events)
        outcome

theorem follows (s : Assignment) (now left : Nat) (deadline : Option Nat) (p : Progress)
    (a : Activity) : s.Follows now left deadline p a (s.followEvents now left deadline p a)
      (s.follow now left deadline p a) := by
  induction left generalizing deadline p a with
  | zero =>
    rw [follow.eq_def, followEvents.eq_def]
    cases hend : s.callEnd? now deadline p with
    | none => exact .goesOn hend
    | some e =>
      cases e with
      | done v => exact .ends hend nofun
      | panicked => exact .ends hend nofun
      | failed fault => exact .ends hend fun _ _ => .inl rfl
  | succ left ih =>
    rw [follow.eq_def, followEvents.eq_def]
    cases hend : s.callEnd? now deadline p with
    | none => exact .goesOn hend
    | some e =>
      cases e with
      | done v => exact .ends hend nofun
      | panicked => exact .ends hend nofun
      | failed fault =>
        have hleave : a.leave.canceled = a.canceled := rfl
        dsimp only
        by_cases hcanceled : a.canceled = true
        · rw [if_pos (.inl hcanceled), hleave, if_pos hcanceled]
          exact .ends hend fun _ _ => .inr hcanceled
        · rw [hleave, if_neg hcanceled]
          by_cases hdelay : s.task.retryDelay = 0
          · rw [if_neg (by simp [hcanceled, hdelay]), if_neg (not_not.mpr hdelay)]
            exact .retries hend (Bool.eq_false_iff.mpr hcanceled) hdelay (ih ..)
          · rw [if_pos (.inr hdelay), if_pos hdelay]
            exact .delays hend (Bool.eq_false_iff.mpr hcanceled) hdelay

/-! ## Tries -/

/-- Where a call of the handler can stand. -/
inductive Reaches (s : Assignment) (call : Call) : Progress → Prop where
  | begins (canceled : Bool) :
      Reaches s call
        ((s.handler s.task s.context (call.number - 1)).settle call.time canceled).1
  | goesOn {p : Progress} (now : Nat) (canceled : Bool) :
      Reaches s call p → Reaches s call (p.resume now canceled).1

/-- The handler is called for the task, as it was assigned. -/
structure Makes (s : Assignment) (call : Call) : Prop where
  task : call.task = s.task.name
  description : call.description = s.task.description
  parameters : call.parameters = s.task.parameters
  context : call.context = s.context

/-- A failure is followed by another call after the delay, and the token is not cancelled when the
call fails. -/
structure Retries (s : Assignment) (x : Try) (call : Call) : Prop where
  failed : x.Failed
  before : x.canceledAfter = false
  delayed : x.time + s.task.retryDelay ≤ call.time

/-- Calls for the task, each of which came to its result. -/
structure Tries (s : Assignment) (tries : List Try) : Prop where
  makes : ∀ x ∈ tries, s.Makes x.call
  comes : ∀ x ∈ tries, ∃ p, s.Reaches x.call p ∧
    s.callEnd? x.time (s.deadlineFrom x.call.time) p = some x.result
  chain : tries.IsChain fun x y => s.Retries x y.call

/-- Where the attempts stand after events, and with the token cancelled or not. -/
inductive Stands (s : Assignment) : List AttemptEvent → Attempts → Bool → Prop where
  | calling {tries : List Try} {call : Call} {canceled : Bool} {p : Progress} {left : Nat}
      (token : Bool) : s.Tries tries → s.Makes call →
      (∀ x ∈ tries.getLast?, s.Retries x call) → s.Reaches call p →
      tries.length + left = s.task.retries →
      Stands s (tries.flatMap Try.events ++ [.called call canceled])
        (.calling p (s.deadlineFrom call.time) left) token
  | delaying {tries : List Try} {x : Try} {fault : TaskFault} {left : Nat} (token : Bool) :
      s.Tries (tries ++ [x]) → x.result = .failed fault → x.canceledAfter = false →
      tries.length + 1 + left = s.task.retries →
      Stands s ((tries ++ [x]).flatMap Try.events)
        (.delaying (x.time + s.task.retryDelay) fault left) token
  | ended {tries : List Try} {x : Try} {token : Bool} :
      s.Tries (tries ++ [x]) → tries.length ≤ s.task.retries →
      (x.Failed → token = false → tries.length = s.task.retries) →
      Stands s ((tries ++ [x]).flatMap Try.events) (.ended x.result) token

variable {s : Assignment} {log : List AttemptEvent} {attempts : Attempts} {canceled : Bool}
  {deadline : Option Nat} {p : Progress} {left : Nat} {tries : List Try} {x : Try} {now : Nat}
  {a : Activity} {wake : Nat} {fault : TaskFault}

theorem makes_callAt (s : Assignment) (now : Nat) (a : Activity) : s.Makes (s.callAt now a) :=
  ⟨rfl, rfl, rfl, rfl⟩

theorem reaches_call (s : Assignment) (now : Nat) (a : Activity) :
    s.Reaches (s.callAt now a) (s.call now a).1 :=
  @Reaches.begins s (s.callAt now a) a.canceled

theorem Tries.nil : s.Tries [] := ⟨by simp, by simp, .nil⟩

theorem Tries.snoc (h : s.Tries tries) (hmakes : s.Makes x.call)
    (hretries : ∀ y ∈ tries.getLast?, s.Retries y x.call)
    (hreaches : s.Reaches x.call p)
    (hend : s.callEnd? x.time (s.deadlineFrom x.call.time) p = some x.result) :
    s.Tries (tries ++ [x]) := by
  refine ⟨fun y hy => ?_, fun y hy => ?_, ?_⟩
  · rcases List.mem_append.mp hy with hy | hy
    · exact h.makes y hy
    · cases List.mem_singleton.mp hy
      exact hmakes
  · rcases List.mem_append.mp hy with hy | hy
    · exact h.comes y hy
    · cases List.mem_singleton.mp hy
      exact ⟨p, hreaches, hend⟩
  · refine h.chain.append (.singleton x) fun y hy z hz => ?_
    cases Option.mem_some_iff.mp hz
    exact hretries y hy

/-- Whoever is tried again has failed. -/
theorem Tries.failed (h : s.Tries (tries ++ [x])) : ∀ y ∈ tries, y.Failed := by
  have hchain := h.chain
  clear h
  induction tries with
  | nil => simp
  | cons y tries ih =>
    rw [List.cons_append, List.isChain_cons] at hchain
    obtain ⟨hnext, hrest⟩ := hchain
    refine List.forall_mem_cons.mpr ⟨?_, ih hrest⟩
    cases tries with
    | nil => exact (hnext x rfl).failed
    | cons z tries => exact (hnext z rfl).failed

/-! ## Turns -/

/-- Cancelling the token does not change where the attempts stand. -/
theorem Stands.mono {canceled' : Bool} (h : s.Stands log attempts canceled)
    (hcanceled : canceled = true → canceled' = true) : s.Stands log attempts canceled' := by
  cases h with
  | calling _ htries hmakes hretries hreaches hleft =>
    exact .calling canceled' htries hmakes hretries hreaches hleft
  | delaying _ htries hresult hafter hleft => exact .delaying canceled' htries hresult hafter hleft
  | ended htries hmost hall =>
    refine .ended htries hmost fun hfailed hnot => hall hfailed ?_
    cases canceled with
    | false => rfl
    | true => rw [hcanceled rfl] at hnot; cases hnot

/-- A call that is over makes a try. -/
theorem Stands.tries_of_over (h : s.Stands log (.calling p deadline left) canceled) {e : TaskEnd}
    (hend : s.callEnd? now deadline p = some e) (after : Bool) :
    ∃ tries x, s.Tries (tries ++ [x]) ∧ x.time = now ∧ x.canceledAfter = after ∧ x.result = e ∧
      tries.length + left = s.task.retries ∧
      log ++ [.over now after e] = (tries ++ [x]).flatMap Try.events := by
  cases h with
  | @calling tries call before _ _ _ htries hmakes hretries hreaches hleft =>
    let x : Try := ⟨call, before, now, after, e⟩
    refine ⟨tries, x, htries.snoc (x := x) hmakes hretries hreaches hend, rfl, rfl, rfl, hleft, ?_⟩
    simp [x, Try.events]

theorem Stands.ends (h : s.Stands log (.calling p deadline left) a.canceled) {e : TaskEnd}
    (hend : s.callEnd? now deadline p = some e)
    (hlast : ∀ fault, e = .failed fault → left = 0 ∨ a.canceled = true) :
    s.Stands (log ++ [.over now a.canceled e]) (.ended e) a.canceled := by
  obtain ⟨tries, x, htries, -, -, rfl, hleft, hlog⟩ := h.tries_of_over hend a.canceled
  rw [hlog]
  refine .ended htries (by omega) ?_
  rintro ⟨fault, hresult⟩ hnot
  rcases hlast fault hresult with hzero | hcanceled
  · omega
  · rw [hnot] at hcanceled
    cases hcanceled

theorem Stands.fails (h : s.Stands log (.calling p deadline (left + 1)) canceled)
    (hend : s.callEnd? now deadline p = some (.failed fault)) (canceled' : Bool) :
    s.Stands (log ++ [.over now false (.failed fault)])
      (.delaying (now + s.task.retryDelay) fault left) canceled' := by
  obtain ⟨tries, x, htries, rfl, hafter, hresult, hleft, hlog⟩ := h.tries_of_over hend false
  rw [hlog]
  exact .delaying canceled' htries hresult hafter (by omega)

theorem Stands.calls (h : s.Stands log (.delaying wake fault left) canceled)
    (hwake : wake ≤ now) (canceled' : Bool) :
    s.Stands (log ++ [.called (s.callAt now a) a.canceled])
      (.calling (s.call now a).1 (s.deadlineFrom now) left) canceled' := by
  cases h with
  | @delaying tries x _ _ _ htries hresult hafter hleft =>
    refine .calling canceled' htries (s.makes_callAt now a) ?_
      (s.reaches_call now a) ?_
    · intro y hy
      rw [List.getLast?_concat] at hy
      cases Option.mem_some_iff.mp hy
      exact ⟨⟨_, hresult⟩, hafter, hwake⟩
    · rw [List.length_append]
      exact hleft

theorem Follows.stands {events : List AttemptEvent} {outcome : Attempts × Activity}
    (h : s.Follows now left deadline p a events outcome)
    (hstands : s.Stands log (.calling p deadline left) a.canceled) :
    s.Stands (log ++ events) outcome.1 outcome.2.canceled := by
  induction h generalizing log with
  | goesOn => rwa [List.append_nil]
  | ends hend hlast => exact hstands.ends hend hlast
  | delays hend hcanceled =>
    rw [hcanceled]
    exact hstands.fails hend _
  | @retries left deadline p a fault events outcome hend hcanceled hdelay _ ih =>
    rw [hcanceled]
    have hfails := hstands.fails hend false
    rw [hdelay, Nat.add_zero] at hfails
    have hcalls := hfails.calls (a := a.leave) (Nat.le_refl now) (s.call now a.leave).2.canceled
    rw [show a.leave.canceled = false from hcanceled] at hcalls
    have hrest := ih hcalls
    rw [List.append_assoc, List.append_assoc] at hrest
    exact hrest

theorem Stands.attempt (h : s.Stands log (.delaying wake fault left) canceled)
    (hwake : wake ≤ now) :
    s.Stands (log ++ s.attemptEvents now left a) (s.attempt now left a).1
      (s.attempt now left a).2.canceled := by
  have hrest := (s.follows now left ..).stands (h.calls (a := a) hwake (s.call now a).2.canceled)
  rw [List.append_assoc] at hrest
  exact hrest

theorem stands_begin (s : Assignment) (now : Nat) (a : Activity) :
    s.Stands (s.beginEvents now a) (s.begin now a).1 (s.begin now a).2.canceled := by
  have hcalling : s.Stands [.called (s.callAt now a) a.canceled]
      (.calling (s.call now a).1 (s.deadlineFrom now) s.task.retries) (s.call now a).2.canceled :=
    .calling _ .nil (s.makes_callAt now a) (by simp) (s.reaches_call now a) (Nat.zero_add _)
  exact (s.follows ..).stands hcalling

theorem Stands.resume (h : s.Stands log attempts a.canceled) (now : Nat) (tokenFirst : Bool) :
    s.Stands (log ++ s.resumeEvents now tokenFirst attempts a) (s.resume now tokenFirst attempts a).1
      (s.resume now tokenFirst attempts a).2.canceled := by
  cases attempts with
  | calling p deadline left =>
    have hgoes : s.Stands log (.calling (p.resume now a.canceled).1 deadline left)
        (p.resume now a.canceled).2 := by
      cases h with
      | calling _ htries hmakes hretries hreaches hleft =>
        exact .calling _ htries hmakes hretries (hreaches.goesOn now a.canceled) hleft
    exact (s.follows ..).stands (a := { a with canceled := (p.resume now a.canceled).2 }) hgoes
  | delaying wake fault left =>
    rw [Assignment.resume, resumeEvents]
    split
    · rename_i hnoticed
      rw [List.append_nil, hnoticed.1]
      cases h with
      | @delaying tries x _ _ _ htries hresult hafter hleft =>
        rw [← hresult]
        exact .ended htries (by omega) fun _ hnot => absurd hnot (by decide)
    · split
      · rename_i hwake
        exact h.attempt hwake
      · rwa [List.append_nil]
  | ended e => rwa [resumeEvents, List.append_nil]

/-! ## The token and the calls -/

theorem settle_canceled (work : Work) (now : Nat) : (work.settle now true).2 = true := by
  induction work with
  | done o => rfl
  | sleep ms next ih =>
    cases ms with
    | zero => exact ih
    | succ ms => rfl
  | awaitCancel next ih => exact ih
  | cancel next ih => exact ih
  | hang => rfl

theorem resume_canceled (p : Progress) (now : Nat) : (p.resume now true).2 = true := by
  unfold Progress.resume
  split
  · split
    · exact settle_canceled _ now
    · exact settle_canceled _ now
    · rfl
  · rfl

theorem Follows.keeps_canceled {events : List AttemptEvent} {outcome : Attempts × Activity}
    (h : s.Follows now left deadline p a events outcome) (hcanceled : a.canceled = true) :
    outcome.2.canceled = true := by
  cases h with
  | goesOn => exact hcanceled
  | ends => exact hcanceled
  | delays => exact hcanceled
  | retries _ hnot => rw [hcanceled] at hnot; cases hnot

theorem attempt_canceled (h : a.canceled = true) :
    (s.attempt now left a).2.canceled = true := by
  refine (s.follows ..).keeps_canceled ?_
  show ((s.handler s.task s.context (a.callsOf s.task.name)).settle now a.canceled).2 = true
  rw [h]
  exact settle_canceled _ now

/-- A cancelled token stays cancelled. -/
theorem resume_keeps_canceled (h : a.canceled = true) (tokenFirst : Bool) :
    (s.resume now tokenFirst attempts a).2.canceled = true := by
  cases attempts with
  | calling p deadline left =>
    refine (s.follows ..).keeps_canceled ?_
    show (p.resume now a.canceled).2 = true
    rw [h]
    exact resume_canceled p now
  | delaying wake fault left =>
    rw [Assignment.resume]
    split
    · exact h
    · split
      · exact attempt_canceled h
      · exact h
  | ended e => exact h

/-- A delay begins only while the token is not cancelled. -/
theorem Follows.uncanceled {events : List AttemptEvent} {outcome : Attempts × Activity}
    (h : s.Follows now left deadline p a events outcome) {left' : Nat}
    (hdelaying : outcome.1 = .delaying wake fault left') : outcome.2.canceled = false := by
  induction h with
  | goesOn => cases hdelaying
  | ends => cases hdelaying
  | delays _ hcanceled => exact hcanceled
  | retries _ _ _ _ ih => exact ih hdelaying

/-- After a turn a task is in its delay only if the token is not cancelled. -/
theorem resume_uncanceled {tokenFirst : Bool}
    (hdelaying : (s.resume now tokenFirst attempts a).1 = .delaying wake fault left) :
    (s.resume now tokenFirst attempts a).2.canceled = false := by
  cases attempts with
  | calling p deadline left => exact (s.follows ..).uncanceled hdelaying
  | delaying wake' fault' left' =>
    rw [Assignment.resume] at hdelaying ⊢
    split at hdelaying
    · cases hdelaying
    · rename_i hnot
      rw [if_neg hnot]
      split at hdelaying
      · rename_i hwake
        rw [if_pos hwake]
        exact (s.follows ..).uncanceled hdelaying
      · rename_i hwake
        rw [if_neg hwake]
        exact Bool.eq_false_iff.mpr fun hcanceled => hnot ⟨hcanceled, .inr (Nat.lt_of_not_le hwake)⟩
  | ended e => cases hdelaying

theorem Follows.calls {events : List AttemptEvent} {outcome : Attempts × Activity}
    (h : s.Follows now left deadline p a events outcome) :
    outcome.2.calls = a.calls ++ events.filterMap AttemptEvent.call? := by
  induction h with
  | goesOn => exact (List.append_nil _).symm
  | ends => exact (List.append_nil _).symm
  | delays => exact (List.append_nil _).symm
  | @retries _ _ _ a _ _ _ _ _ _ _ ih =>
    exact ih.trans (List.append_assoc a.calls [s.callAt now a.leave] _)

end Assignment

/-- How many pieces there are to the work. -/
def Work.pieces : Work → Nat
  | .sleep _ next => next.pieces + 1
  | .awaitCancel next => next.pieces + 1
  | .cancel next => next.pieces + 1
  | _ => 0

def Progress.pieces : Progress → Nat
  | .sleeping _ next => next.pieces + 1
  | .awaiting next => next.pieces + 1
  | _ => 0

theorem Work.pieces_settle (work : Work) (now : Nat) (canceled : Bool) :
    (work.settle now canceled).1.pieces ≤ work.pieces := by
  induction work generalizing canceled with
  | done o => exact Nat.le_refl _
  | sleep ms next ih =>
    cases ms with
    | zero => exact Nat.le_succ_of_le (ih canceled)
    | succ ms => exact Nat.le_refl _
  | awaitCancel next ih =>
    rw [settle]
    split
    · exact Nat.le_succ_of_le (ih canceled)
    · exact Nat.le_refl _
  | cancel next ih => exact Nat.le_succ_of_le (ih true)
  | hang => exact Nat.le_refl _

theorem Progress.pieces_resume {p : Progress} {now : Nat} {canceled : Bool}
    (h : p.isDue now canceled = true) : (p.resume now canceled).1.pieces < p.pieces := by
  unfold resume
  rw [if_pos h]
  cases p with
  | ended o => cases h
  | sleeping wake next => exact Nat.lt_succ_of_le (next.pieces_settle now canceled)
  | awaiting next => exact Nat.lt_succ_of_le (next.pieces_settle now canceled)
  | hung => cases h

/-- Work that comes to an end, if it does not wait for a cancellation in vain. -/
def Work.Returns (canceled : Prop) : Work → Prop
  | .done _ => True
  | .sleep _ next => next.Returns canceled
  | .awaitCancel next => canceled ∧ next.Returns canceled
  | .cancel next => next.Returns canceled
  | .hang => False

def Progress.Returns (canceled : Prop) : Progress → Prop
  | .ended _ => True
  | .sleeping _ next => next.Returns canceled
  | .awaiting next => canceled ∧ next.Returns canceled
  | .hung => False

theorem Work.Returns.settle {C : Prop} {work : Work} (h : work.Returns C) (now : Nat)
    (canceled : Bool) : (work.settle now canceled).1.Returns C := by
  induction work generalizing canceled with
  | done o => trivial
  | sleep ms next ih =>
    cases ms with
    | zero => exact ih h canceled
    | succ ms => exact h
  | awaitCancel next ih =>
    rw [Work.settle]
    split
    · exact ih h.2 canceled
    · exact h
  | cancel next ih => exact ih h true
  | hang => exact h.elim

theorem Progress.Returns.resume {C : Prop} {p : Progress} (h : p.Returns C) (now : Nat)
    (canceled : Bool) : (p.resume now canceled).1.Returns C := by
  unfold Progress.resume
  split
  · split
    · exact Work.Returns.settle h now canceled
    · exact h.2.settle now canceled
    · exact h
  · exact h

namespace Attempts

/-- How far the attempts are from their end: how often the handler may still be called and whether
it is being called, and how much is left of the call. -/
def rank : Attempts → Nat ×ₗ Nat
  | calling progress _ left => toLex (2 * left + 1, progress.pieces)
  | delaying _ _ left => toLex (2 * left + 2, 0)
  | ended _ => toLex (0, 0)

/-- A turn at that time makes them go on. -/
def Ready (now : Nat) (canceled : Bool) : Attempts → Prop
  | calling progress deadline _ =>
    deadline.any (· ≤ now) = true ∨ (∃ o, progress = .ended o) ∨ progress.isDue now canceled = true
  | delaying wake _ _ => canceled = true ∨ wake ≤ now
  | ended _ => False

end Attempts

namespace Assignment

open Prod.Lex (toLex_le_toLex toLex_lt_toLex)

variable {s : Assignment} {attempts : Attempts} {deadline : Option Nat} {p : Progress} {left : Nat}
  {now n : Nat} {a : Activity} {e : TaskEnd}

/-- The call goes on, or it is over and the attempts are closer to their end. -/
theorem Follows.rank {events : List AttemptEvent} {outcome : Attempts × Activity}
    (h : s.Follows now left deadline p a events outcome) :
    s.callEnd? now deadline p = none ∧ outcome.1 = .calling p deadline left ∨
      outcome.1.rank < toLex (2 * left + 1, 0) := by
  induction h with
  | goesOn hend => exact .inl ⟨hend, rfl⟩
  | ends => exact .inr (toLex_lt_toLex.mpr (.inl (Nat.succ_pos _)))
  | delays => exact .inr (toLex_lt_toLex.mpr (.inl (Nat.lt_succ_self _)))
  | retries _ _ _ _ ih =>
    refine .inr ?_
    rcases ih with ⟨-, hcalling⟩ | hless
    · rw [hcalling]
      exact toLex_lt_toLex.mpr (.inl (by dsimp only; omega))
    · exact hless.trans (toLex_lt_toLex.mpr (.inl (by dsimp only; omega)))

theorem rank_follow_lt (h : s.callEnd? now deadline p = some e) :
    (s.follow now left deadline p a).1.rank < toLex (2 * left + 1, 0) := by
  refine (s.follows ..).rank.resolve_left ?_
  rintro ⟨hnone, -⟩
  rw [h] at hnone
  cases hnone

theorem rank_attempt_lt : (s.attempt now left a).1.rank < toLex (2 * left + 2, 0) := by
  rcases (s.follows now left (s.deadlineFrom now) (s.call now a).1 (s.call now a).2).rank with
    ⟨-, hcalling⟩ | hless
  · rw [attempt, hcalling]
    exact toLex_lt_toLex.mpr (.inl (Nat.lt_succ_self _))
  · exact hless.trans (toLex_lt_toLex.mpr (.inl (Nat.lt_succ_self _)))

theorem rank_follow_le (hpieces : p.pieces ≤ n) :
    (s.follow now left deadline p a).1.rank ≤ toLex (2 * left + 1, n) := by
  rcases (s.follows now left deadline p a).rank with ⟨-, hcalling⟩ | hless
  · rw [hcalling]
    exact toLex_le_toLex.mpr (.inr ⟨rfl, hpieces⟩)
  · exact hless.le.trans (toLex_le_toLex.mpr (.inr ⟨rfl, Nat.zero_le n⟩))

theorem exists_callEnd?_of_deadline (hlate : deadline.any (· ≤ now) = true) (p : Progress) :
    ∃ e, s.callEnd? now deadline p = some e := by
  unfold callEnd?
  split
  · exact ⟨_, rfl⟩
  · exact ⟨_, rfl⟩
  · exact ⟨_, rfl⟩
  · rw [if_pos hlate]
    exact ⟨_, rfl⟩

theorem exists_callEnd?_of_ended (o : Outcome) :
    ∃ e, s.callEnd? now deadline (.ended o) = some e := by
  cases o <;> exact ⟨_, rfl⟩

theorem rank_resume_lt (h : attempts.Ready now a.canceled) (tokenFirst : Bool) :
    (s.resume now tokenFirst attempts a).1.rank < attempts.rank := by
  cases attempts with
  | calling p deadline left =>
    have hbelow : toLex (2 * left + 1, 0) ≤ (Attempts.calling p deadline left).rank :=
      toLex_le_toLex.mpr (.inr ⟨rfl, Nat.zero_le _⟩)
    have hover (hend : ∃ e, s.callEnd? now deadline (p.resume now a.canceled).1 = some e) :
        (s.resume now tokenFirst (.calling p deadline left) a).1.rank <
          (Attempts.calling p deadline left).rank :=
      let ⟨_, hend⟩ := hend
      lt_of_lt_of_le (rank_follow_lt hend) hbelow
    rcases h with hlate | ⟨o, rfl⟩ | hdue
    · exact hover (exists_callEnd?_of_deadline hlate _)
    · exact hover (exists_callEnd?_of_ended o)
    · refine lt_of_le_of_lt (rank_follow_le (Nat.le_refl _)) ?_
      exact toLex_lt_toLex.mpr (.inr ⟨rfl, Progress.pieces_resume hdue⟩)
  | delaying wake fault left =>
    rw [Assignment.resume]
    split
    · exact toLex_lt_toLex.mpr (.inl (Nat.succ_pos _))
    · rename_i hnot
      have hwake : wake ≤ now := by
        rcases h with hcanceled | hwake
        · exact Nat.le_of_not_lt fun hearly => hnot ⟨hcanceled, .inr hearly⟩
        · exact hwake
      rw [if_pos hwake]
      exact rank_attempt_lt
  | ended e => exact h.elim

/-- Any turn leaves the attempts as they are or brings them closer to their end. -/
theorem resume_eq_or_rank_lt (s : Assignment) (now : Nat) (tokenFirst : Bool) (attempts : Attempts)
    (a : Activity) : (s.resume now tokenFirst attempts a).1 = attempts ∨
      (s.resume now tokenFirst attempts a).1.rank < attempts.rank := by
  by_cases hready : attempts.Ready now a.canceled
  · exact .inr (rank_resume_lt hready tokenFirst)
  · cases attempts with
    | calling p deadline left =>
      obtain ⟨-, hnot⟩ := not_or.mp hready
      obtain ⟨-, hdue⟩ := not_or.mp hnot
      have hsame : p.resume now a.canceled = (p, a.canceled) := by
        unfold Progress.resume
        rw [if_neg hdue]
      rw [Assignment.resume, hsame]
      rcases (s.follows now left deadline p a).rank with ⟨-, hcalling⟩ | hless
      · exact .inl hcalling
      · refine .inr (lt_of_lt_of_le hless ?_)
        exact toLex_le_toLex.mpr (.inr ⟨rfl, Nat.zero_le _⟩)
    | delaying wake fault left =>
      obtain ⟨hcanceled, hwake⟩ := not_or.mp hready
      rw [Assignment.resume, if_neg fun h => hcanceled h.1, if_neg hwake]
      exact .inl rfl
    | ended e => exact .inl rfl

/-- Attempts that have not ended go on some time, if every call has a limit or comes to an end. -/
theorem Stands.exists_ready {log : List AttemptEvent} {canceled : Bool}
    (h : s.Stands log attempts canceled) (token : Nat → Bool) (hended : ∀ e, attempts ≠ .ended e)
    (hreturns : s.task.timeout.isSome = true ∨
      ∀ n, (s.handler s.task s.context n).Returns (∃ m, ∀ k, m ≤ k → token k = true)) :
    ∃ m, ∀ k now, m ≤ k → m ≤ now → attempts.Ready now (token k) := by
  cases h with
  | @calling tries call before p left _ _ _ _ hreaches _ =>
    rcases hreturns with htimeout | hreturns
    · obtain ⟨limit, hlimit⟩ := Option.isSome_iff_exists.mp htimeout
      refine ⟨call.time + limit, fun k now _ hnow => .inl ?_⟩
      rw [deadlineFrom, hlimit]
      exact decide_eq_true hnow
    · have hp : p.Returns (∃ m, ∀ k, m ≤ k → token k = true) := by
        clear hended
        induction hreaches with
        | begins canceled => exact (hreturns _).settle call.time canceled
        | goesOn now canceled _ ih => exact ih.resume now canceled
      cases p with
      | ended o => exact ⟨0, fun _ _ _ _ => .inr (.inl ⟨o, rfl⟩)⟩
      | sleeping wake next =>
        exact ⟨wake, fun _ _ _ hnow => .inr (.inr (decide_eq_true hnow))⟩
      | awaiting next =>
        obtain ⟨⟨m, hm⟩, -⟩ := hp
        exact ⟨m, fun k _ hk _ => .inr (.inr (hm k hk))⟩
      | hung => exact hp.elim
  | delaying => exact ⟨_, fun _ _ _ hnow => .inr hnow⟩
  | ended => exact absurd rfl (hended _)

end Assignment

end WorkflowEngine
