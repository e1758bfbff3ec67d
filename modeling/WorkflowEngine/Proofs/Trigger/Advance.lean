import Mathlib.Order.Bounds.Basic
import WorkflowEngine.Proofs.Trigger.Schedule

/-!
# Moving on in machine words

A schedule moves on by a product of 128 bits, which stops at the largest of them. That is turned
into 64 bits, with the largest of these for what does not fit, and added to the time at which the
schedule was due. Times are instants, and there is a last one: a sum beyond it is none, and then the
schedule stays where it is. A clock reads only times that are far from the last instant.

* `advanceWithin_eq`: until the last instant this is `advance`, for every schedule.
* `advance_to_first_ahead`: as long as the time since the schedule was due and its interval fit into
  64 bits, the words hold what they should and the sum is an instant, and the schedule moves on to
  the first time of its grid that lies ahead.
-/

namespace WorkflowEngine

/-- Multiplication in 128 bits. -/
def mulSaturating (m n : Nat) : Nat := min (m * n) (Nat.pow 2 128 - 1)

/-- A number as one of 64 bits, if it fits. -/
def toWord? (n : Nat) : Option Nat := if n < Nat.pow 2 64 then some n else none

/-- An instant and so many nanoseconds, if that is not beyond the last instant. -/
def addWithin? (last t step : Nat) : Option Nat := if t + step ≤ last then some (t + step) else none

/-- A clock, by the latest time that it can read and the last instant that there is. From whatever
it reads, instants go on for the longest step of a schedule. -/
structure Clock where
  latest : Nat
  last : Nat
  room : latest + Schedule.maxStep ≤ last

namespace Schedule

variable {s : Schedule} {now last : Nat}

/-- How far on the grid the first time ahead of `now` is. -/
def missed (s : Schedule) (now : Nat) : Nat := (now - s.next) / s.interval + 1

def product (s : Schedule) (now : Nat) : Nat := mulSaturating s.interval (s.missed now)

def step (s : Schedule) (now : Nat) : Nat := (toWord? (s.product now)).getD maxStep

/-- Moves on past `now`, word by word, where `last` is the last instant. -/
def advanceWithin (last : Nat) (s : Schedule) (now : Nat) : Schedule :=
  if s.interval = 0 then { s with next := now }
  else if now < s.next then s
  else
    match addWithin? last s.next (s.step now) with
    | some next => { s with next }
    | none => s

/-! ## The words -/

/-- Whatever saturates at 128 bits does not fit into 64 bits either. -/
theorem step_eq (s : Schedule) (now : Nat) :
    s.step now = min (s.interval * s.missed now) maxStep := by
  rw [step, toWord?, product, mulSaturating, maxStep]
  have hwider : Nat.pow 2 64 ≤ Nat.pow 2 128 - 1 := by decide
  split
  · rename_i hfits
    have hexact : s.interval * s.missed now < Nat.pow 2 64 := by omega
    rw [Option.getD_some]
    omega
  · rw [Option.getD_none]
    omega

theorem advance_of_ahead (hpos : 0 < s.interval) (hahead : now < s.next) : s.advance now = s := by
  rw [advance, if_neg (Nat.ne_of_gt hpos), if_pos hahead]

theorem advance_of_due (hpos : 0 < s.interval) (hdue : s.next ≤ now) :
    s.advance now = { s with next := s.next + s.step now } := by
  rw [step_eq, advance, if_neg (Nat.ne_of_gt hpos), if_neg (Nat.not_lt.mpr hdue)]
  rfl

theorem advanceWithin_of_ahead (hpos : 0 < s.interval) (hahead : now < s.next) :
    s.advanceWithin last now = s := by
  rw [advanceWithin, if_neg (Nat.ne_of_gt hpos), if_pos hahead]

/-- The words make no difference until the last instant. -/
theorem advanceWithin_eq (hlast : (s.advance now).next ≤ last) :
    s.advanceWithin last now = s.advance now := by
  rcases Nat.eq_zero_or_pos s.interval with hzero | hpos
  · rw [advanceWithin, if_pos hzero, advance, if_pos hzero]
  rcases Nat.lt_or_ge now s.next with hahead | hdue
  · rw [advanceWithin_of_ahead hpos hahead, advance_of_ahead hpos hahead]
  · rw [advance_of_due hpos hdue] at hlast ⊢
    rw [advanceWithin, if_neg (Nat.ne_of_gt hpos), if_neg (Nat.not_lt.mpr hdue), addWithin?,
      if_pos hlast]

/-! ## The first time ahead -/

/-- Between two times of the grid the next one is the first ahead. -/
theorem missed_eq {k : Nat} (hpast : s.grid k ≤ now) (hahead : now < s.grid (k + 1)) :
    s.missed now = k + 1 := by
  rw [grid] at hpast hahead
  rw [missed, Nat.div_eq_of_lt_le (k := k)] <;> omega

theorem isLeast_grid {k : Nat} (hpast : s.grid k ≤ now) (hahead : now < s.grid (k + 1)) :
    IsLeast {t | now < t ∧ ∃ j, 1 ≤ j ∧ t = s.grid j} (s.grid (k + 1)) := by
  refine ⟨⟨hahead, k + 1, Nat.le_add_left 1 k, rfl⟩, ?_⟩
  rintro t ⟨ht, j, -, rfl⟩
  exact s.grid_le_grid (lt_of_grid_lt (Nat.lt_of_le_of_lt hpast ht))

theorem product_eq (hdue : s.next ≤ now) (hrange : s.InRange now) :
    s.product now = s.interval * s.missed now ∧ s.interval * s.missed now < Nat.pow 2 64 := by
  have hmissed := Nat.div_mul_le_self (now - s.next) s.interval
  have hfits := hrange hdue
  have hexact : s.interval * s.missed now < Nat.pow 2 64 := by
    rw [missed, Nat.mul_comm, Nat.succ_mul]
    omega
  have hwider : Nat.pow 2 64 ≤ Nat.pow 2 128 - 1 := by decide
  refine ⟨?_, hexact⟩
  rw [product, mulSaturating]
  omega

theorem interval_le (hdue : s.next ≤ now) (hrange : s.InRange now) : s.interval ≤ maxStep := by
  have hfits := hrange hdue
  show s.interval ≤ Nat.pow 2 64 - 1
  omega

/-- A schedule that is not due stays as it is. One that is due moves on to the first later time of
its grid that lies ahead, at most an interval from now. On the way there the product does not
saturate and fits into 64 bits, and whenever a clock can read the time, the sum is an instant. -/
theorem advance_to_first_ahead (hpos : 0 < s.interval) (hrange : s.InRange now) :
    (now < s.next → s.advance now = s ∧ ∀ last, s.advanceWithin last now = s) ∧
    (s.next ≤ now → s.advance now = s.atGrid (s.missed now) ∧
      IsLeast {t | now < t ∧ ∃ k, 1 ≤ k ∧ t = s.grid k} (s.advance now).next ∧
      (s.advance now).next ≤ now + s.interval ∧
      s.product now = s.interval * s.missed now ∧
      toWord? (s.product now) = some (s.interval * s.missed now) ∧
      ∀ clock : Clock, now ≤ clock.latest →
        addWithin? clock.last s.next (s.interval * s.missed now) = some (s.advance now).next ∧
        s.advanceWithin clock.last now = s.advance now) := by
  refine ⟨fun hahead => ⟨advance_of_ahead hpos hahead, fun _ => ?_⟩, fun hdue => ?_⟩
  · exact advanceWithin_of_ahead hpos hahead
  obtain ⟨k, hadvance, hpast, hahead⟩ := advance_spec hpos hdue hrange
  have hmissed := missed_eq hpast hahead
  have hnext : (s.advance now).next = s.grid (k + 1) := by rw [hadvance, atGrid]
  have hsoon : s.grid (k + 1) ≤ now + s.interval := by
    rw [grid_succ]
    exact Nat.add_le_add_right hpast s.interval
  obtain ⟨hproduct, hfits⟩ := product_eq hdue hrange
  refine ⟨by rw [hadvance, hmissed], hnext ▸ isLeast_grid hpast hahead, hnext ▸ hsoon, hproduct,
    by rw [hproduct, toWord?, if_pos hfits], fun clock hreads => ?_⟩
  have hsum : s.next + s.interval * s.missed now = (s.advance now).next := by
    rw [hnext, hmissed, grid, Nat.mul_comm]
  have hinstant : (s.advance now).next ≤ clock.last :=
    calc (s.advance now).next ≤ now + s.interval := hnext ▸ hsoon
      _ ≤ clock.latest + maxStep := Nat.add_le_add hreads (interval_le hdue hrange)
      _ ≤ clock.last := clock.room
  exact ⟨by rw [addWithin?, hsum, if_pos hinstant], advanceWithin_eq hinstant⟩

/-- A schedule that is due every nanosecond. -/
def everyNano : Schedule := ⟨"w", "u", 1, 0⟩

/-- Thirty days. -/
def month : Nat := 30 * 24 * 3600 * 1000000000

/-- Reads 64 bits of nanoseconds, and has instants for 63 bits of seconds. -/
def widestClock : Clock where
  latest := Nat.pow 2 64 - 1
  last := Nat.pow 2 63 * 1000000000 - 1
  room := by decide

/-- After a month the schedule skips all that it has missed. -/
theorem advance_to_first_ahead_month :
    0 < everyNano.interval ∧ everyNano.InRange month ∧
      everyNano.advance month = { everyNano with next := month + 1 } ∧
      everyNano.product month = month + 1 ∧ toWord? (month + 1) = some (month + 1) ∧
      addWithin? widestClock.last 0 (month + 1) = some (month + 1) ∧
      everyNano.advanceWithin widestClock.last month = { everyNano with next := month + 1 } := by
  have hpos : 0 < everyNano.interval := by decide
  have hrange : everyNano.InRange month := by decide
  have hmissed : everyNano.interval * everyNano.missed month = month + 1 := by decide
  have hgrid : everyNano.atGrid (everyNano.missed month) = { everyNano with next := month + 1 } := by
    decide
  obtain ⟨hadvance, -, -, hproduct, hword, hclock⟩ :=
    (advance_to_first_ahead hpos hrange).2 (by decide)
  obtain ⟨hsum, hwithin⟩ := hclock widestClock (by decide)
  rw [hgrid] at hadvance
  rw [hmissed] at hproduct hword hsum
  rw [hproduct] at hword
  rw [hadvance] at hsum hwithin
  exact ⟨hpos, hrange, hadvance, hproduct, hword, hsum, hwithin⟩

end Schedule

end WorkflowEngine
