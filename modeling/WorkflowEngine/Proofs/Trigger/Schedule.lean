import Mathlib.Data.List.Forall2
import WorkflowEngine.Trigger.Schedule

/-!
# When schedules are served

Rounds over one list of schedules, at times that never go back, whatever is refused or cancelled in
the midst of them. `visits` tells a round schedule by schedule. Between the rounds every schedule
stands at the first time of its grid after it was last served (`OnGrid`), so that it is due exactly
when its grid has a time since then (`served_on_grid`).
-/

namespace WorkflowEngine

namespace Schedule

variable {s : Schedule} {now : Nat}

/-- The times at which a schedule is due when it is never late. -/
def grid (s : Schedule) (k : Nat) : Nat := s.next + k * s.interval

theorem grid_zero (s : Schedule) : s.grid 0 = s.next := by
  simp [grid]

theorem grid_succ (s : Schedule) (k : Nat) : s.grid (k + 1) = s.grid k + s.interval := by
  rw [grid, grid, Nat.succ_mul, Nat.add_assoc]

theorem grid_le_grid (s : Schedule) {j k : Nat} (h : j ≤ k) : s.grid j ≤ s.grid k :=
  Nat.add_le_add_left (Nat.mul_le_mul_right _ h) _

theorem next_le_grid (s : Schedule) (k : Nat) : s.next ≤ s.grid k := Nat.le_add_right ..

theorem lt_of_grid_lt {j k : Nat} (h : s.grid j < s.grid k) : j < k := by
  refine Nat.lt_of_not_le fun hle => ?_
  have := s.grid_le_grid hle
  omega

/-- The schedule when it waits for the `k`-th time of its grid. -/
def atGrid (s : Schedule) (k : Nat) : Schedule := { s with next := s.grid k }

theorem grid_atGrid (s : Schedule) (j k : Nat) : (s.atGrid j).grid k = s.grid (j + k) := by
  simp only [atGrid, grid, Nat.add_mul, Nat.add_assoc]

/-- The time since a schedule has begun and its interval fit into 64 bits of nanoseconds. -/
def InRange (s : Schedule) (now : Nat) : Prop :=
  s.next ≤ now → now - s.next + s.interval < Nat.pow 2 64

instance (s : Schedule) (now : Nat) : Decidable (s.InRange now) :=
  inferInstanceAs (Decidable (_ → _))

theorem InRange.atGrid (h : s.InRange now) (k : Nat) : (s.atGrid k).InRange now := by
  intro hdue
  have hnext := s.next_le_grid k
  have hdue : s.grid k ≤ now := hdue
  have hrange := h (Nat.le_trans hnext hdue)
  show now - s.grid k + s.interval < Nat.pow 2 64
  omega

theorem InRange.mono {now' : Nat} (h : s.InRange now) (hle : now' ≤ now) : s.InRange now' := by
  intro hdue
  have hrange := h (Nat.le_trans hdue hle)
  omega

/-- A schedule that is due moves on to the first time of its grid that lies ahead. -/
theorem advance_spec (hpos : 0 < s.interval) (hdue : s.next ≤ now) (hrange : s.InRange now) :
    ∃ k, s.advance now = s.atGrid (k + 1) ∧ s.grid k ≤ now ∧ now < s.grid (k + 1) := by
  have hmissed := Nat.div_mul_le_self (now - s.next) s.interval
  have hahead := Nat.lt_div_mul_add (a := now - s.next) hpos
  have hfits := hrange hdue
  refine ⟨(now - s.next) / s.interval, ?_, ?_, ?_⟩
  · have hstep : s.interval * ((now - s.next) / s.interval + 1) ≤ maxStep := by
      rw [Nat.mul_comm, Nat.succ_mul]
      show _ ≤ Nat.pow 2 64 - 1
      omega
    rw [advance, if_neg (Nat.ne_of_gt hpos), if_neg (Nat.not_lt.mpr hdue)]
    dsimp only
    rw [Nat.min_eq_left hstep, atGrid, grid, Nat.mul_comm s.interval]
  · rw [grid]
    omega
  · rw [grid_succ, grid]
    omega

end Schedule

/-! ## One round -/

namespace Intake

variable {t t' : Intake} {now : Nat} {workflow user id : String} {e : IntakeError}

theorem submit_ok (h : t.submit now workflow user = (.ok id, t')) :
    ∃ request : ExecutionRequest, request.workflow = workflow ∧ request.user = user ∧
      t'.accepted = t.accepted ++ [⟨request, now⟩] ∧
      t'.queue.channel = t.queue.channel ++ [request] := by
  rw [submit] at h
  dsimp only at h
  split at h
  · cases h
  · split at h
    · cases h
    · rename_i queue henqueue
      cases h
      refine ⟨_, rfl, rfl, rfl, ?_⟩
      rw [ExecutionQueue.enqueue] at henqueue
      split at henqueue
      · cases henqueue
      · cases henqueue
        rfl

theorem submit_error (h : t.submit now workflow user = (.error e, t')) :
    t'.accepted = t.accepted ∧ t'.queue = t.queue := by
  rw [submit] at h
  dsimp only at h
  split at h
  · cases h
    exact ⟨rfl, rfl⟩
  · split at h
    · cases h
      exact ⟨rfl, rfl⟩
    · cases h

end Intake

/-- What comes of a schedule in a round. -/
inductive Visit where
  | notDue
  /-- A request for it was accepted. -/
  | served
  | refused (e : IntakeError)
  /-- The round ended before its turn. -/
  | skipped
  deriving DecidableEq

namespace Visit

def refusal? : Visit → Option IntakeError
  | refused e => some e
  | _ => none

/-- The schedule after a visit. -/
def apply (now : Nat) (s : Schedule) : Visit → Schedule
  | served => s.advance now
  | _ => s

theorem apply_of_ne {now : Nat} {s : Schedule} {v : Visit} (h : v ≠ .served) :
    v.apply now s = s := by
  cases v with
  | served => exact (h rfl).elim
  | _ => rfl

end Visit

/-- A round told schedule by schedule, and the intake after it. -/
def visits (now : Nat) (canceled : Nat → Bool) :
    List Schedule → Intake → List Visit × Intake
  | [], intake => ([], intake)
  | s :: rest, intake =>
    if !s.isDue now then
      let (vs, intake) := visits now canceled rest intake
      (.notDue :: vs, intake)
    else if canceled intake.attempts then
      (.skipped :: List.replicate rest.length .skipped, intake)
    else
      match intake.submit (now / nanosPerMilli) s.workflow s.user with
      | (.error e, intake) => (.refused e :: List.replicate rest.length .skipped, intake)
      | (.ok _, intake) =>
        let (vs, intake) := visits now canceled rest intake
        (.served :: vs, intake)

/-- What a round returns: the first refusal, or else how many schedules were served. -/
def roundResult (vs : List Visit) : Except IntakeError Nat :=
  match vs.findSome? Visit.refusal? with
  | some e => .error e
  | none => .ok (vs.count .served)

/-- The schedules that were served, in order. -/
def servedOf (schedules : List Schedule) (vs : List Visit) : List Schedule :=
  ((schedules.zip vs).filter (·.2 = .served)).map Prod.fst

/-- The round came to its end: no schedule was skipped or refused. -/
def RanToEnd (vs : List Visit) : Prop := ∀ v ∈ vs, v = .notDue ∨ v = .served

instance (vs : List Visit) : Decidable (RanToEnd vs) :=
  inferInstanceAs (Decidable (∀ v ∈ vs, _))

section Round

variable {now : Nat} {canceled : Nat → Bool}

theorem roundResult_notDue (vs : List Visit) : roundResult (.notDue :: vs) = roundResult vs := by
  simp [roundResult, List.findSome?_cons, Visit.refusal?]

theorem roundResult_served (vs : List Visit) :
    roundResult (.served :: vs) = (roundResult vs).map (· + 1) := by
  simp only [roundResult, List.findSome?_cons, Visit.refusal?, List.count_cons_self]
  cases vs.findSome? Visit.refusal? <;> rfl

theorem roundResult_skipped (n : Nat) : roundResult (List.replicate n .skipped) = .ok 0 := by
  have hfind : (List.replicate n Visit.skipped).findSome? Visit.refusal? = none := by
    simp [Visit.refusal?]
  rw [roundResult, hfind, List.count_replicate]
  rfl

theorem zipWith_skipped (schedules : List Schedule) :
    List.zipWith (Visit.apply now) schedules (List.replicate schedules.length .skipped) =
      schedules := by
  induction schedules with
  | nil => rfl
  | cons s rest ih => rw [List.length_cons, List.replicate_succ, List.zipWith_cons_cons, ih]; rfl

theorem servedOf_skipped (schedules : List Schedule) (n : Nat) :
    servedOf schedules (List.replicate n .skipped) = [] := by
  have hskipped : ∀ e ∈ schedules.zip (List.replicate n Visit.skipped), ¬ e.2 = .served := by
    intro e he hserved
    rw [List.eq_of_mem_replicate (List.of_mem_zip he).2] at hserved
    cases hserved
  rw [servedOf, List.filter_eq_nil_iff.mpr (by simpa using hskipped), List.map_nil]

variable (now canceled) in
/-- The program's round is the one that is told. -/
theorem serve_eq (schedules : List Schedule) (intake : Intake) :
    serve now canceled schedules intake =
      (roundResult (visits now canceled schedules intake).1,
        List.zipWith (Visit.apply now) schedules (visits now canceled schedules intake).1,
        (visits now canceled schedules intake).2) := by
  fun_induction visits now canceled schedules intake with
  | case1 => rfl
  | case2 s rest intake hdue vs later hvisits ih =>
    rw [hvisits] at ih
    simp [serve, hdue, ih, roundResult_notDue, Visit.apply]
  | case3 s rest intake hdue hcanceled =>
    rw [serve, if_neg hdue, if_pos hcanceled, List.zipWith_cons_cons, zipWith_skipped,
      ← List.replicate_succ, roundResult_skipped]
    rfl
  | case4 s rest intake hdue hcanceled e later hsubmit =>
    rw [serve, if_neg hdue, if_neg hcanceled, hsubmit, List.zipWith_cons_cons, zipWith_skipped]
    rfl
  | case5 s rest intake hdue hcanceled id later hsubmit vs last hvisits ih =>
    rw [hvisits] at ih
    simp [serve, hdue, hcanceled, hsubmit, ih, roundResult_served, Visit.apply]

variable (now canceled) in
theorem length_visits (schedules : List Schedule) (intake : Intake) :
    (visits now canceled schedules intake).1.length = schedules.length := by
  fun_induction visits now canceled schedules intake with
  | case1 => rfl
  | case2 s rest intake hdue vs later hvisits ih => simpa [hvisits] using ih
  | case3 | case4 => simp
  | case5 s rest intake hdue hcanceled id later hsubmit vs last hvisits ih =>
    simpa [hvisits] using ih

/-- Only a schedule that is due is served, and in a round that comes to its end every such. -/
theorem visits_spec {schedules : List Schedule} {intake : Intake} {i : Nat} {s : Schedule}
    {v : Visit} (hs : schedules[i]? = some s)
    (hv : (visits now canceled schedules intake).1[i]? = some v) :
    (v = .served → s.next ≤ now) ∧ (v = .notDue → now < s.next) := by
  fun_induction visits now canceled schedules intake generalizing i with
  | case1 => cases hs
  | case2 s' rest intake hdue vs later hvisits ih =>
    cases i with
    | zero =>
      cases hs
      cases hv
      simpa [Schedule.isDue] using hdue
    | succ i => exact ih hs (by rw [hvisits]; exact hv)
  | case3 s' rest intake hdue hcanceled =>
    rw [← List.replicate_succ, List.getElem?_replicate] at hv
    grind
  | case4 s' rest intake hdue hcanceled e later hsubmit =>
    cases i with
    | zero =>
      cases hv
      exact ⟨nofun, nofun⟩
    | succ i =>
      rw [List.getElem?_cons_succ, List.getElem?_replicate] at hv
      grind
  | case5 s' rest intake hdue hcanceled id later hsubmit vs last hvisits ih =>
    cases i with
    | zero =>
      cases hs
      cases hv
      simpa [Schedule.isDue] using hdue
    | succ i => exact ih hs (by rw [hvisits]; exact hv)

/-- A request is made for every schedule that is served, and for no other. -/
theorem requests_visits (schedules : List Schedule) (intake : Intake) :
    ∃ new : List Acceptance,
      (visits now canceled schedules intake).2.accepted = intake.accepted ++ new ∧
      (visits now canceled schedules intake).2.queue.channel =
        intake.queue.channel ++ new.map (·.request) ∧
      List.Forall₂ (fun s a => a.request.workflow = s.workflow ∧ a.request.user = s.user ∧
        a.time = now / nanosPerMilli)
        (servedOf schedules (visits now canceled schedules intake).1) new := by
  fun_induction visits now canceled schedules intake with
  | case1 => exact ⟨[], by simp, by simp, .nil⟩
  | case2 s rest intake hdue vs later hvisits ih =>
    rw [hvisits] at ih
    simpa [servedOf] using ih
  | case3 s rest intake hdue hcanceled =>
    refine ⟨[], by simp, by simp, ?_⟩
    rw [← List.replicate_succ, servedOf_skipped]
    exact .nil
  | case4 s rest intake hdue hcanceled e later hsubmit =>
    obtain ⟨haccepted, hqueue⟩ := Intake.submit_error hsubmit
    refine ⟨[], by simp [haccepted], by simp [hqueue], ?_⟩
    have hrest := servedOf_skipped rest rest.length
    rw [servedOf] at hrest ⊢
    simpa using hrest
  | case5 s rest intake hdue hcanceled id later hsubmit vs last hvisits ih =>
    obtain ⟨request, hworkflow, huser, haccepted, hchannel⟩ := Intake.submit_ok hsubmit
    rw [hvisits] at ih
    dsimp only at ih
    obtain ⟨new, haccepted', hchannel', hnew⟩ := ih
    refine ⟨⟨request, now / nanosPerMilli⟩ :: new, by simp [haccepted', haccepted],
      by simp [hchannel', hchannel], ?_⟩
    have hserved : servedOf (s :: rest) (.served :: vs) = s :: servedOf rest vs := by
      simp [servedOf]
    rw [hserved]
    exact .cons ⟨hworkflow, huser, rfl⟩ hnew

/-- A round in which nothing is cancelled or refused runs to its end. -/
theorem ranToEnd_of_ok {schedules : List Schedule} {intake : Intake} {n : Nat}
    (hcanceled : ∀ n, canceled n = false)
    (hok : roundResult (visits now canceled schedules intake).1 = .ok n) :
    RanToEnd (visits now canceled schedules intake).1 := by
  fun_induction visits now canceled schedules intake generalizing n with
  | case1 => nofun
  | case2 s rest intake hdue vs later hvisits ih =>
    rw [hvisits] at ih
    rw [roundResult_notDue] at hok
    exact List.forall_mem_cons.mpr ⟨.inl rfl, ih hok⟩
  | case3 s rest intake hdue hcancel =>
    rw [hcanceled] at hcancel
    cases hcancel
  | case4 s rest intake hdue _ e later hsubmit => cases hok
  | case5 s rest intake hdue _ id later hsubmit vs last hvisits ih =>
    rw [hvisits] at ih
    rw [roundResult_served] at hok
    cases hrest : roundResult vs with
    | error e =>
      rw [hrest] at hok
      cases hok
    | ok m => exact List.forall_mem_cons.mpr ⟨.inr rfl, ih hrest⟩

end Round

/-! ## Rounds -/

/-- A round that is over. -/
structure PastRound where
  now : Nat
  visits : List Visit

/-- Rounds over one list of schedules, the latest first. What happens to the intake between them is
left open, and so is who cancels them. -/
inductive Rounds (start : List Schedule) : List PastRound → List Schedule → Prop where
  | start : Rounds start [] start
  | next {h : List PastRound} {schedules : List Schedule} (now : Nat) (canceled : Nat → Bool)
      (intake : Intake) : Rounds start h schedules → (∀ r ∈ h, r.now ≤ now) →
      Rounds start (⟨now, (visits now canceled schedules intake).1⟩ :: h)
        (serve now canceled schedules intake).2.1

/-- The schedule in that place was served at that time. -/
def ServedAt (h : List PastRound) (i t : Nat) : Prop :=
  ∃ r ∈ h, r.now = t ∧ r.visits[i]? = some .served

theorem servedAt_cons {h : List PastRound} {r : PastRound} {i t : Nat} :
    ServedAt (r :: h) i t ↔ (r.now = t ∧ r.visits[i]? = some .served) ∨ ServedAt h i t := by
  simp [ServedAt]

theorem servedAt_cons_of_ne {h : List PastRound} {r : PastRound} {i t : Nat}
    (hv : r.visits[i]? ≠ some .served) : ServedAt (r :: h) i t ↔ ServedAt h i t := by
  rw [servedAt_cons, or_iff_right fun hr => hv hr.2]

/-- The `k`-th time of its grid is the first after all times at which the schedule was served. -/
structure Awaits (h : List PastRound) (i : Nat) (s : Schedule) (k : Nat) : Prop where
  ahead : ∀ t, ServedAt h i t → t < s.grid k
  first : ∀ j, (∀ t, ServedAt h i t → t < s.grid j) → k ≤ j

/-- Every schedule waits for that time. -/
structure OnGrid (start : List Schedule) (h : List PastRound) (schedules : List Schedule) :
    Prop where
  length : schedules.length = start.length
  awaits : ∀ i s, start[i]? = some s → ∃ k, schedules[i]? = some (s.atGrid k) ∧ Awaits h i s k

section Rounds

variable {start schedules : List Schedule} {h : List PastRound} {now : Nat}
  {canceled : Nat → Bool} {intake : Intake} {i k : Nat} {s : Schedule} {v : Visit}

theorem Awaits.due_iff (hs : Awaits h i s k) :
    (s.atGrid k).next ≤ now ↔ ∃ j, s.grid j ≤ now ∧ ∀ t, ServedAt h i t → t < s.grid j := by
  constructor
  · exact fun hdue => ⟨k, hdue, hs.ahead⟩
  · rintro ⟨j, hj, hserved⟩
    exact Nat.le_trans (s.grid_le_grid (hs.first j hserved)) hj

/-- A schedule that is served moves on to the first time of its grid that lies ahead. -/
theorem awaits_of_served (hpos : 0 < s.interval) (hrange : s.InRange now)
    (hnow : ∀ r ∈ h, r.now ≤ now) (hdue : (s.atGrid k).next ≤ now) {vs : List Visit}
    (hv : vs[i]? = some .served) :
    ∃ k', (s.atGrid k).advance now = s.atGrid k' ∧ now < (s.atGrid k').next ∧
      Awaits (⟨now, vs⟩ :: h) i s k' := by
  obtain ⟨m, hadvance, hpast, hahead⟩ :=
    Schedule.advance_spec (s := s.atGrid k) hpos hdue (hrange.atGrid k)
  rw [Schedule.grid_atGrid] at hpast hahead
  refine ⟨k + (m + 1), ?_, hahead, fun t ht => ?_, fun j hj => ?_⟩
  · rw [hadvance, Schedule.atGrid, Schedule.grid_atGrid]
    rfl
  · rcases servedAt_cons.mp ht with ⟨rfl, -⟩ | ⟨r, hr, rfl, -⟩
    · exact hahead
    · exact Nat.lt_of_le_of_lt (hnow r hr) hahead
  · -- The last time that has passed is already excluded by this very round.
    have hlt : now < s.grid j := hj now (servedAt_cons.mpr (.inl ⟨rfl, hv⟩))
    have := Schedule.lt_of_grid_lt (Nat.lt_of_le_of_lt hpast hlt)
    omega

theorem Awaits.notServed (hs : Awaits h i s k) {r : PastRound}
    (hv : r.visits[i]? ≠ some .served) : Awaits (r :: h) i s k := by
  refine ⟨fun t ht => hs.ahead t ((servedAt_cons_of_ne hv).mp ht), fun j hj => ?_⟩
  exact hs.first j fun t ht => hj t ((servedAt_cons_of_ne hv).mpr ht)

theorem onGrid_start (start : List Schedule) : OnGrid start [] start := by
  constructor
  · rfl
  · intro i s hs
    refine ⟨0, ?_, nofun, fun j _ => Nat.zero_le j⟩
    rw [hs, Schedule.atGrid, Schedule.grid_zero]

theorem getElem?_serve (hs : schedules[i]? = some s)
    (hv : (visits now canceled schedules intake).1[i]? = some v) :
    (serve now canceled schedules intake).2.1[i]? = some (v.apply now s) := by
  rw [serve_eq, List.getElem?_zipWith, hs, hv]

variable (now canceled intake) in
/-- What a round does to the schedule in one place, which waits for the `k`-th time of its grid. -/
theorem OnGrid.visit (hgrid : OnGrid start h schedules) (hs : start[i]? = some s) :
    ∃ k v, schedules[i]? = some (s.atGrid k) ∧ Awaits h i s k ∧
      (visits now canceled schedules intake).1[i]? = some v ∧
      (serve now canceled schedules intake).2.1[i]? = some (v.apply now (s.atGrid k)) := by
  obtain ⟨k, hk, hawaits⟩ := hgrid.awaits i s hs
  have hlt := (List.getElem?_eq_some_iff.mp hk).1
  rw [← length_visits now canceled schedules intake] at hlt
  exact ⟨k, _, hk, hawaits, List.getElem?_eq_getElem hlt,
    getElem?_serve hk (List.getElem?_eq_getElem hlt)⟩

variable (canceled intake) in
theorem OnGrid.next (hgrid : OnGrid start h schedules) (hpos : ∀ s ∈ start, 0 < s.interval)
    (hrange : ∀ s ∈ start, s.InRange now) (hnow : ∀ r ∈ h, r.now ≤ now) :
    OnGrid start (⟨now, (visits now canceled schedules intake).1⟩ :: h)
      (serve now canceled schedules intake).2.1 := by
  constructor
  · rw [serve_eq, List.length_zipWith, length_visits, Nat.min_self, hgrid.length]
  · intro i s hs
    obtain ⟨k, v, hk, hawaits, hv, hafter⟩ := hgrid.visit now canceled intake hs
    have hmem := List.mem_of_getElem? hs
    -- Only a schedule that is served leaves its place on the grid, whatever ended the round.
    by_cases hserved : v = .served
    · subst hserved
      have hdue := (visits_spec hk hv).1 rfl
      obtain ⟨k', hadvance, -, hawaits'⟩ :=
        awaits_of_served (hpos s hmem) (hrange s hmem) hnow hdue hv
      exact ⟨k', by rw [hafter, Visit.apply, hadvance], hawaits'⟩
    · refine ⟨k, ?_, hawaits.notServed fun h => hserved ?_⟩
      · rw [hafter, Visit.apply_of_ne hserved]
      · rw [hv] at h
        exact Option.some_inj.mp h

theorem Rounds.onGrid (hrun : Rounds start h schedules) (hpos : ∀ s ∈ start, 0 < s.interval)
    (hrange : ∀ s ∈ start, ∀ r ∈ h, s.InRange r.now) : OnGrid start h schedules := by
  induction hrun with
  | start => exact onGrid_start start
  | next now canceled intake _ hnow ih =>
    have hbefore := ih fun s hs r hr => hrange s hs r (List.mem_cons_of_mem _ hr)
    exact hbefore.next canceled intake hpos (fun s hs => hrange s hs _ List.mem_cons_self) hnow

/-- What a round means for a schedule that was `s` at the start. -/
structure OnTime (h : List PastRound) (now i : Nat) (s before after : Schedule) (v : Visit) :
    Prop where
  moves : before.next < after.next ↔ v = .served
  stays : v ≠ .served → after = before
  due : v = .served → before.next ≤ now
  due_iff : before.next ≤ now ↔ ∃ k, s.grid k ≤ now ∧ ∀ t, ServedAt h i t → t < s.grid k
  begun : v = .served → s.next ≤ now
  spaced : v = .served → ∀ t, ServedAt h i t → t < now ∧ ∃ k, t < s.grid k ∧ s.grid k ≤ now
  ahead : v = .notDue ∨ v = .served → now < after.next

/-- A schedule that is not skipped is served if it is due. -/
theorem OnTime.served_iff {before after : Schedule} (hv : OnTime h now i s before after v)
    (hmade : v = .notDue ∨ v = .served) :
    v = .served ↔ ∃ k, s.grid k ≤ now ∧ ∀ t, ServedAt h i t → t < s.grid k := by
  rw [← hv.due_iff]
  refine ⟨hv.due, fun hdue => hmade.resolve_left fun hnot => ?_⟩
  have hahead := hv.ahead hmade
  rw [hv.stays (by rw [hnot]; nofun)] at hahead
  omega

variable (canceled intake) in
theorem OnGrid.onTime (hgrid : OnGrid start h schedules) (hs : start[i]? = some s)
    (hpos : 0 < s.interval) (hrange : s.InRange now) (hnow : ∀ r ∈ h, r.now ≤ now) :
    ∃ before after v, schedules[i]? = some before ∧
      (serve now canceled schedules intake).2.1[i]? = some after ∧
      (visits now canceled schedules intake).1[i]? = some v ∧ OnTime h now i s before after v := by
  obtain ⟨k, v, hk, hawaits, hv, hafter⟩ := hgrid.visit now canceled intake hs
  obtain ⟨hdue, hlate⟩ := visits_spec hk hv
  refine ⟨_, _, v, hk, hafter, hv, ?_⟩
  have hspaced (hserved : v = .served) (t : Nat) (ht : ServedAt h i t) :
      t < now ∧ ∃ k, t < s.grid k ∧ s.grid k ≤ now :=
    ⟨Nat.lt_of_lt_of_le (hawaits.ahead t ht) (hdue hserved), k, hawaits.ahead t ht, hdue hserved⟩
  by_cases hserved : v = .served
  · subst hserved
    obtain ⟨k', hadvance, hahead, -⟩ := awaits_of_served hpos hrange hnow (hdue rfl) hv
    rw [Visit.apply, hadvance]
    exact ⟨iff_of_true (Nat.lt_of_le_of_lt (hdue rfl) hahead) rfl, fun h => (h rfl).elim, hdue,
      hawaits.due_iff, fun _ => Nat.le_trans (s.next_le_grid k) (hdue rfl), hspaced,
      fun _ => hahead⟩
  · rw [Visit.apply_of_ne hserved]
    exact ⟨iff_of_false (Nat.lt_irrefl _) hserved, fun _ => rfl, hdue, hawaits.due_iff,
      fun h => (hserved h).elim, hspaced, fun hmade => hlate (hmade.resolve_right hserved)⟩

/-- After any rounds, whatever was refused or cancelled in them, a round serves only what is due,
with one request each. A schedule moves on exactly when a request for it was accepted. It gets none
before it begins, and between two of them lies a time of its grid; if the round comes to its end, it
is served exactly when its grid has a time since it was last served, and nothing is due any more. -/
theorem served_on_grid {result : Except IntakeError Nat} {schedules' : List Schedule}
    {intake' : Intake} {vs : List Visit} (hpos : ∀ s ∈ start, 0 < s.interval)
    (hrange : ∀ s ∈ start, s.InRange now) (hrun : Rounds start h schedules)
    (hnow : ∀ r ∈ h, r.now ≤ now)
    (hserve : serve now canceled schedules intake = (result, schedules', intake'))
    (hvisits : (visits now canceled schedules intake).1 = vs) :
    (result = roundResult vs ∧ schedules'.length = start.length ∧ vs.length = start.length ∧
      ∃ new : List Acceptance, intake'.accepted = intake.accepted ++ new ∧
        intake'.queue.channel = intake.queue.channel ++ new.map (·.request) ∧
        List.Forall₂ (fun s a => a.request.workflow = s.workflow ∧ a.request.user = s.user ∧
          a.time = now / nanosPerMilli) (servedOf schedules vs) new) ∧
    (∀ i s, start[i]? = some s → ∃ before after v, schedules[i]? = some before ∧
      schedules'[i]? = some after ∧ vs[i]? = some v ∧ OnTime h now i s before after v) ∧
    (RanToEnd vs → (∀ i s, start[i]? = some s → (vs[i]? = some .served ↔
        ∃ k, s.grid k ≤ now ∧ ∀ t, ServedAt h i t → t < s.grid k)) ∧
      ∀ s ∈ schedules', ¬ s.isDue now) ∧
    ((∀ n, canceled n = false) → (∃ n, result = .ok n) → RanToEnd vs) := by
  subst hvisits
  have hgrid := hrun.onGrid hpos fun s hs r hr => (hrange s hs).mono (hnow r hr)
  have hlength := length_visits now canceled schedules intake
  have heq := serve_eq now canceled schedules intake
  rw [hserve] at heq
  have hontime (i : Nat) (s : Schedule) (hs : start[i]? = some s) := by
    have hmem := List.mem_of_getElem? hs
    have := hgrid.onTime canceled intake hs (hpos s hmem) (hrange s hmem) hnow
    rwa [hserve] at this
  have hafter := (hgrid.next canceled intake hpos hrange hnow).length
  rw [hserve] at hafter
  refine ⟨⟨congrArg (·.1) heq, hafter, hlength.trans hgrid.length, ?_⟩, hontime,
    fun hend => ⟨?_, ?_⟩, ?_⟩
  · rw [show intake' = (visits now canceled schedules intake).2 from congrArg (·.2.2) heq]
    exact requests_visits schedules intake
  · intro i s hs
    obtain ⟨before, after, v, -, -, hv, hvisit⟩ := hontime i s hs
    rw [hv, Option.some_inj]
    exact hvisit.served_iff (hend v (List.mem_of_getElem? hv))
  · intro a ha
    obtain ⟨i, hi⟩ := List.getElem?_of_mem ha
    have hlt : i < start.length := hafter ▸ (List.getElem?_eq_some_iff.mp hi).1
    obtain ⟨before, after, v, -, hat, hv, hvisit⟩ := hontime i _ (List.getElem?_eq_getElem hlt)
    obtain rfl : after = a := Option.some_inj.mp (hat.symm.trans hi)
    simpa [Schedule.isDue] using hvisit.ahead (hend v (List.mem_of_getElem? hv))
  · rintro hcanceled ⟨n, rfl⟩
    exact ranToEnd_of_ok hcanceled (congrArg (·.1) heq).symm

end Rounds

/-- One schedule is due every ten nanoseconds from the start, the other every three from five on. -/
def pair : List Schedule := [⟨"w", "u", 10, 0⟩, ⟨"v", "u", 3, 5⟩]

/-- Refuses the second request. -/
def pairIntake : Intake := { refuses := fun attempt => attempt == 1 }

def pairLater : List Schedule := (serve 25 (fun _ => false) pair pairIntake).2.1

/-- The round at 25 was ended by a refusal. The one at 26 serves the schedule that was refused, once
for all the times that it missed. -/
theorem served_on_grid_refused :
    Rounds pair [⟨25, [.served, .refused (.refused 1)]⟩] pairLater ∧
      serve 26 (fun _ => false) pairLater {} =
        (.ok 1, [⟨"w", "u", 10, 30⟩, ⟨"v", "u", 3, 29⟩],
          (serve 26 (fun _ => false) pairLater {}).2.2) ∧
      (∀ i s, pair[i]? = some s → ([Visit.notDue, .served][i]? = some .served ↔
        ∃ k, s.grid k ≤ 26 ∧
          ∀ t, ServedAt [⟨25, [.served, .refused (.refused 1)]⟩] i t → t < s.grid k)) ∧
      ∀ s ∈ [(⟨"w", "u", 10, 30⟩ : Schedule), ⟨"v", "u", 3, 29⟩], ¬ s.isDue 26 := by
  have hrun : Rounds pair [⟨25, [.served, .refused (.refused 1)]⟩] pairLater :=
    .next 25 (fun _ => false) pairIntake .start nofun
  have hserve : serve 26 (fun _ => false) pairLater {} =
      (.ok 1, [⟨"w", "u", 10, 30⟩, ⟨"v", "u", 3, 29⟩],
        (serve 26 (fun _ => false) pairLater {}).2.2) := by
    rw [serve_eq]
    simp only [Prod.mk.injEq, and_true]
    decide +kernel
  exact ⟨hrun, hserve, (served_on_grid (by decide) (by decide) hrun (by simp) hserve rfl).2.2.1
    (by decide)⟩

end WorkflowEngine
