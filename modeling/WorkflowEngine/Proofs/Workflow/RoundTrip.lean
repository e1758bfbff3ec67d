import WorkflowEngine.Proofs.Document.Decode
import WorkflowEngine.Proofs.Json.Reader
import WorkflowEngine.Workflow.File

/-!
# Workflows that are written and loaded again

A workflow that is written as JSON text is loaded from it without a change
(`Workflow.ofText_toText`). Every encoded form is a record with some of its parts left out
(`recordFields`), and a part that was left out is decoded to the value that it was left out for.
-/

namespace WorkflowEngine

open Document Json

/-! ## What can be written -/

/-- Free forms of integers, with all their objects in key order. -/
structure FreeForm (fields : Fields Value) : Prop where
  sorted : fields.Sorted
  ordered : ∀ e ∈ fields, e.2.Ordered
  integral : ∀ e ∈ fields, e.2.Integral

structure RetryPolicy.InRange (r : RetryPolicy) : Prop where
  maxRetries : -Int.pow 2 31 ≤ r.maxRetries ∧ r.maxRetries ≤ Int.pow 2 31 - 1
  delay : ∀ ms ∈ r.delay, -Int.pow 2 63 ≤ ms ∧ ms ≤ Int.pow 2 63 - 1

structure Task.InRange (t : Task) : Prop where
  timeout : ∀ ms ∈ t.timeout, ms < Nat.pow 2 64
  parameters : FreeForm t.parameters
  retry : t.retry.InRange

structure Configuration.InRange (c : Configuration) : Prop where
  parallelism : ∀ n ∈ c.parallelism, n < Nat.pow 2 64
  timeout : ∀ ms ∈ c.timeout, ms < Nat.pow 2 64

/-- Every number is an integer of the width that its place has. -/
structure Workflow.InRange (w : Workflow) : Prop where
  «variables» : FreeForm w.variables
  configuration : w.configuration.InRange
  tasks : ∀ t ∈ w.tasks, t.InRange

/-! ## Records -/

/-- The fields of a record whose parts are in the order of their names. -/
def recordFields (names : List String) (parts : List (Option Value)) : List (String × Value) :=
  (names.zip parts).flatMap fun (name, part) => optionalField name id part

section Records

variable {names : List String} {parts : List (Option Value)} {name : String} {part : Option Value}

theorem recordFields_cons : recordFields (name :: names) (part :: parts) =
    optionalField name id part ++ recordFields names parts := rfl

theorem find?_optionalField (key name : String) (part : Option Value) :
    Fields.find? key (optionalField name id part) = if name = key then part else none := by
  cases part <;> simp [optionalField, Fields.find?]

theorem keys_recordFields (names : List String) (parts : List (Option Value)) :
    ((recordFields names parts).map Prod.fst).Sublist names := by
  induction names generalizing parts with
  | nil => exact List.nil_sublist _
  | cons name names ih =>
    cases parts with
    | nil => exact List.nil_sublist _
    | cons part parts =>
      rw [recordFields_cons, List.map_append]
      cases part with
      | none => exact (ih parts).cons _
      | some v => exact (ih parts).cons_cons _

theorem find?_recordFields_of_notMem (h : name ∉ names) :
    Fields.find? name (recordFields names parts) = none := by
  induction names generalizing parts with
  | nil => rfl
  | cons n names ih =>
    cases parts with
    | nil => rfl
    | cons part parts =>
      rw [List.mem_cons, not_or] at h
      rw [recordFields_cons, Fields.find?_append, find?_optionalField, if_neg (Ne.symm h.1), ih h.2]
      rfl

theorem map_find?_recordFields (hnodup : names.Nodup) (hlength : names.length = parts.length) :
    (names.map fun name => Fields.find? name (recordFields names parts)) = parts := by
  induction names generalizing parts with
  | nil => exact (List.length_eq_zero_iff.mp hlength.symm).symm
  | cons name names ih =>
    cases parts with
    | nil => cases hlength
    | cons part parts =>
      obtain ⟨hnew, hrest⟩ := List.nodup_cons.mp hnodup
      have hfirst : Fields.find? name (recordFields (name :: names) (part :: parts)) = part := by
        rw [recordFields_cons, Fields.find?_append, find?_optionalField, if_pos rfl,
          find?_recordFields_of_notMem hnew, Option.or_none]
      have hothers : ∀ n ∈ names, Fields.find? n (recordFields (name :: names) (part :: parts)) =
          Fields.find? n (recordFields names parts) := by
        intro n hn
        have hne : name ≠ n := fun heq => hnew (heq ▸ hn)
        rw [recordFields_cons, Fields.find?_append, find?_optionalField, if_neg hne, Option.none_or]
      rw [List.map_cons, hfirst, List.map_congr_left hothers, ih hrest (Nat.succ.inj hlength)]

/-- The parts of a record are found under their names. -/
theorem parts?_record {levels : Nat} (hnodup : names.Nodup)
    (hlength : names.length = parts.length) :
    parts? names (levels + 1) (ofValue (.obj (recordFields names parts))) =
      some (levels, parts.map (·.map ofValue)) := by
  rw [parts?_ofValue _ (.sublist (keys_recordFields names parts) hnodup)]
  have hfind := congrArg (List.map (Option.map ofValue)) (map_find?_recordFields hnodup hlength)
  rw [List.map_map] at hfind
  exact congrArg (fun found => some (levels, found)) hfind

end Records

/-! The encoded forms are records, in which the parts that are absent are left out. -/

theorem Branch.toValue_eq (b : Branch) : b.toValue =
    .obj (recordFields Branch.names [some (.str b.expression), some (.str b.target)]) := rfl

theorem RetryPolicy.toValue_eq (r : RetryPolicy) : r.toValue =
    .obj (recordFields RetryPolicy.names [some (.ofInt r.maxRetries), r.delay.map .ofInt]) := by
  rw [RetryPolicy.toValue]
  cases r.delay <;> rfl

theorem Configuration.toValue_eq (c : Configuration) : c.toValue = .obj (recordFields
    Configuration.names [c.parallelism.map encodeNat, c.timeout.map encodeNat]) := by
  rw [Configuration.toValue]
  cases c.parallelism <;> cases c.timeout <;> rfl

theorem Task.toValue_eq (t : Task) : t.toValue = .obj (recordFields Task.names
    [some (.str t.name), t.description.map .str, some (.arr (t.dependencies.map .str)),
      some (.arr (t.branches.map Branch.toValue)), t.timeout.map encodeNat,
      if t.parameters.isEmpty then none else some (.obj t.parameters),
      some (.obj [("retryPolicy", t.retry.toValue)])]) := by
  rw [Task.toValue]
  cases t.description <;> cases t.timeout <;> cases t.parameters.isEmpty <;> rfl

theorem Workflow.toValue_eq (w : Workflow) : w.toValue = .obj (recordFields Workflow.names
    [some (.str w.name), some (.str w.description), some (.obj w.variables),
      some w.configuration.toValue, some (.arr (w.tasks.map Task.toValue))]) := rfl

/-! ## Decoding what was encoded -/

variable {levels : Nat}

theorem Branch.decode?_toValue (b : Branch) (hdepth : b.toValue.depth ≤ levels) :
    Branch.decode? levels (ofValue b.toValue) = some b := by
  obtain ⟨l, rfl, -⟩ := Value.depth_obj_le hdepth
  rw [Branch.decode?, Branch.toValue_eq, parts?_record (by decide) rfl]
  rfl

theorem part?_nat {o : Option Nat} (h : ∀ n ∈ o, n < Nat.pow 2 64) :
    part? (optional? nat?) none ((o.map encodeNat).map ofValue) = some o :=
  part?_optional (fun _ => rfl) fun n hn => nat?_ofValue (h n hn)

theorem RetryPolicy.decode?_toValue {r : RetryPolicy} (hr : r.InRange)
    (hdepth : r.toValue.depth ≤ levels) :
    RetryPolicy.decode? levels (ofValue r.toValue) = some r := by
  have hmax := int?_ofValue hr.maxRetries.1 hr.maxRetries.2
  have hdelay : part? (optional? (int? (-Int.pow 2 63) (Int.pow 2 63 - 1))) none
      ((r.delay.map Value.ofInt).map ofValue) = some r.delay :=
    part?_optional (fun _ => rfl) fun ms hms =>
      int?_ofValue (hr.delay ms hms).1 (hr.delay ms hms).2
  obtain ⟨l, rfl, -⟩ := Value.depth_obj_le hdepth
  rw [RetryPolicy.decode?, RetryPolicy.toValue_eq, parts?_record (by decide) rfl]
  simp only [List.map_cons, List.map_nil, Option.map_some]
  rw [part?, hmax, hdelay]

theorem RetryPolicy.decodeHandling?_toValue {r : RetryPolicy} (hr : r.InRange)
    (hdepth : (Value.obj [("retryPolicy", r.toValue)]).depth ≤ levels) :
    RetryPolicy.decodeHandling? levels (ofValue (.obj [("retryPolicy", r.toValue)])) = some r := by
  have hvalue : [("retryPolicy", r.toValue)] = recordFields ["retryPolicy"] [some r.toValue] := rfl
  obtain ⟨l, rfl, hparts⟩ := Value.depth_obj_le hdepth
  rw [RetryPolicy.decodeHandling?, hvalue, parts?_record (by decide) rfl]
  exact RetryPolicy.decode?_toValue hr (hparts _ List.mem_cons_self)

theorem Configuration.decode?_toValue {c : Configuration} (hc : c.InRange)
    (hdepth : c.toValue.depth ≤ levels) :
    Configuration.decode? levels (ofValue c.toValue) = some c := by
  obtain ⟨l, rfl, -⟩ := Value.depth_obj_le hdepth
  rw [Configuration.decode?, Configuration.toValue_eq, parts?_record (by decide) rfl]
  simp only [List.map_cons, List.map_nil]
  rw [part?_nat hc.parallelism, part?_nat hc.timeout]

/-- Parameters are left out when they are empty, and they are empty when they are left out. -/
theorem part?_parameters {parameters : Fields Value} (h : FreeForm parameters)
    (hdepth : parameters.isEmpty = false → (Value.obj parameters).depth ≤ levels) :
    part? (freeForm? levels) []
      ((if parameters.isEmpty then none else some (Value.obj parameters)).map ofValue) =
      some parameters := by
  cases parameters with
  | nil => rfl
  | cons e es => exact freeForm?_ofValue h.sorted h.ordered (hdepth rfl) (.refl _)

theorem Task.decode?_toValue {t : Task} (ht : t.InRange) (hdepth : t.toValue.depth ≤ levels) :
    Task.decode? levels (ofValue t.toValue) = some t := by
  obtain ⟨l, rfl, hparts⟩ := Value.depth_obj_le hdepth
  have hdescription : part? (optional? text?) none ((t.description.map Value.str).map ofValue) =
      some t.description := part?_optional (fun _ => rfl) fun _ _ => rfl
  have hdependencies : list? (fun _ => text?) l (ofValue (.arr (t.dependencies.map .str))) =
      some t.dependencies :=
    list?_ofValue (hparts ("dependencies", _) (by simp)) fun _ _ _ _ => rfl
  have hbranches : list? Branch.decode? l (ofValue (.arr (t.branches.map Branch.toValue))) =
      some t.branches :=
    list?_ofValue (hparts ("conditionalBranches", _) (by simp)) fun b _ _ => b.decode?_toValue
  have hparameters := part?_parameters ht.parameters fun hsome =>
    hparts ("parameters", _) (by simp [hsome])
  have hretry :=
    RetryPolicy.decodeHandling?_toValue ht.retry (hparts ("errorHandling", _) (by simp))
  rw [Task.decode?, Task.toValue_eq, parts?_record (by decide) rfl]
  -- Parts that may be absent are settled as they stand; the others are there.
  simp only [List.map_cons, List.map_nil, Option.map_some]
  rw [hdescription, part?_nat ht.timeout, hparameters]
  rw [part?, part?, part?, hdependencies, hbranches, hretry]
  rfl

/-- A workflow is decoded whatever the order in which its variables were encoded. -/
theorem Workflow.decode?_toValue {w : Workflow} (hw : w.InRange) {entries : Fields Value}
    (hperm : entries.Perm w.variables) (hdepth : w.toValue.depth ≤ levels) :
    Workflow.decode? levels (ofValue ({ w with «variables» := entries } : Workflow).toValue) =
      some w := by
  obtain ⟨l, rfl, hparts⟩ := Value.depth_obj_le hdepth
  have hvariables := freeForm?_ofValue hw.variables.sorted hw.variables.ordered
    (hparts ("variables", _) (by simp [Workflow.fields])) hperm
  have hconfiguration := Configuration.decode?_toValue hw.configuration
    (hparts ("configuration", w.configuration.toValue) (by simp [Workflow.fields]))
  have htasks : list? Task.decode? l (ofValue (.arr (w.tasks.map Task.toValue))) = some w.tasks :=
    list?_ofValue (hparts ("tasks", _) (by simp [Workflow.fields])) fun t ht _ =>
      Task.decode?_toValue (hw.tasks t ht)
  rw [Workflow.decode?, Workflow.toValue_eq, parts?_record (by decide) rfl]
  simp only [List.map_cons, List.map_nil, Option.map_some]
  rw [part?, part?, part?, part?, part?, hvariables, hconfiguration, htasks]
  rfl

/-! ## Integers only -/

theorem integral_ofInt {i : Int} (hlow : -Int.pow 2 63 ≤ i) (hhigh : i < Int.pow 2 64) :
    (Value.ofInt i).Integral :=
  .int (inIntegerRange_iff.mpr ⟨hlow, hhigh⟩)

theorem integral_encodeNat {n : Nat} (h : n < Nat.pow 2 64) : (encodeNat n).Integral := by
  have hlow : Int.pow 2 63 = 9223372036854775808 := by decide
  have hhigh : Int.pow 2 64 = 18446744073709551616 := by decide
  have hlimit : Nat.pow 2 64 = 18446744073709551616 := by decide
  exact integral_ofInt (by omega) (by omega)

theorem integral_record {names : List String} {parts : List (Option Value)}
    (h : ∀ v, some v ∈ parts → v.Integral) : (Value.obj (recordFields names parts)).Integral := by
  refine .obj fun e he => ?_
  obtain ⟨⟨name, part⟩, hpart, he⟩ := List.mem_flatMap.mp he
  cases part with
  | none => cases he
  | some v =>
    obtain rfl := List.mem_singleton.mp he
    exact h v (List.of_mem_zip hpart).2

theorem integral_map {α : Type} {encode : α → Value} {xs : List α}
    (h : ∀ x ∈ xs, (encode x).Integral) : (Value.arr (xs.map encode)).Integral := by
  refine .arr fun v hv => ?_
  obtain ⟨x, hx, rfl⟩ := List.mem_map.mp hv
  exact h x hx

theorem Branch.integral_toValue (b : Branch) : b.toValue.Integral := by
  rw [Branch.toValue_eq]
  refine integral_record fun v hv => ?_
  simp only [List.mem_cons, Option.some.injEq, List.not_mem_nil, or_false] at hv
  rcases hv with rfl | rfl <;> exact .str _

theorem RetryPolicy.InRange.integral_toValue {r : RetryPolicy} (hr : r.InRange) :
    r.toValue.Integral := by
  have hlow : Int.pow 2 63 = 9223372036854775808 := by decide
  have hhigh : Int.pow 2 64 = 18446744073709551616 := by decide
  have hlimit : Int.pow 2 31 = 2147483648 := by decide
  have hmax := hr.maxRetries
  rw [RetryPolicy.toValue_eq]
  refine integral_record fun v hv => ?_
  simp only [List.mem_cons, Option.some.injEq, List.not_mem_nil, or_false] at hv
  rcases hv with rfl | hv
  · exact integral_ofInt (by omega) (by omega)
  · obtain ⟨ms, hms, rfl⟩ := Option.map_eq_some_iff.mp hv.symm
    have hdelay := hr.delay ms hms
    exact integral_ofInt (by omega) (by omega)

theorem Configuration.InRange.integral_toValue {c : Configuration} (hc : c.InRange) :
    c.toValue.Integral := by
  rw [Configuration.toValue_eq]
  refine integral_record fun v hv => ?_
  simp only [List.mem_cons, List.not_mem_nil, or_false] at hv
  rcases hv with hv | hv
  · obtain ⟨n, hn, rfl⟩ := Option.map_eq_some_iff.mp hv.symm
    exact integral_encodeNat (hc.parallelism n hn)
  · obtain ⟨n, hn, rfl⟩ := Option.map_eq_some_iff.mp hv.symm
    exact integral_encodeNat (hc.timeout n hn)

theorem Task.InRange.integral_toValue {t : Task} (ht : t.InRange) : t.toValue.Integral := by
  rw [Task.toValue_eq]
  refine integral_record fun v hv => ?_
  simp only [List.mem_cons, Option.some.injEq, List.not_mem_nil, or_false] at hv
  rcases hv with rfl | hv | rfl | rfl | hv | hv | rfl
  · exact .str _
  · obtain ⟨s, -, rfl⟩ := Option.map_eq_some_iff.mp hv.symm
    exact .str s
  · exact integral_map fun s _ => .str s
  · exact integral_map fun b _ => b.integral_toValue
  · obtain ⟨ms, hms, rfl⟩ := Option.map_eq_some_iff.mp hv.symm
    exact integral_encodeNat (ht.timeout ms hms)
  · split at hv
    · cases hv
    · cases hv
      exact .obj ht.parameters.integral
  · refine .obj fun e he => ?_
    obtain rfl := List.mem_singleton.mp he
    exact ht.retry.integral_toValue

theorem Workflow.InRange.integral_toValue {w : Workflow} (hw : w.InRange) {entries : Fields Value}
    (hperm : entries.Perm w.variables) :
    ({ w with «variables» := entries } : Workflow).toValue.Integral := by
  rw [Workflow.toValue_eq]
  refine integral_record fun v hv => ?_
  simp only [List.mem_cons, Option.some.injEq, List.not_mem_nil, or_false] at hv
  rcases hv with rfl | rfl | rfl | rfl | rfl
  · exact .str _
  · exact .str _
  · exact .obj fun e he => hw.variables.integral e (hperm.mem_iff.mp he)
  · exact hw.configuration.integral_toValue
  · exact integral_map fun t ht => (hw.tasks t ht).integral_toValue

/-- A workflow whose numbers are integers, and that does not nest deeper than a text may, is loaded
from what was written of it, in whatever order its variables were written. -/
theorem Workflow.ofText_toText {w : Workflow} (hw : w.InRange) {entries : Fields Value}
    (hperm : entries.Perm w.variables) (hdepth : w.toValue.depth ≤ Format.json.levels) :
    Workflow.ofText .json (({ w with «variables» := entries } : Workflow).toText .json) =
      .ok w := by
  have hread := readText_pretty (hw.integral_toValue hperm)
  have hdecode := Workflow.decode?_toValue hw hperm hdepth
  rw [Workflow.ofText, Workflow.toText, Workflow.pretty, Format.read, hread, Option.bind_some,
    hdecode]

/-- An object in an array, with a text that has to be escaped. -/
def nested : Value := .arr [.ofInt (-3), .obj [("x", .null), ("y", .str "\n\"\\\x01☃")]]

/-- Empty parts beside absent ones, a dependency that is named twice, and the largest number. -/
def motley : Workflow where
  name := "motley"
  «variables» := [("a", nested), ("b", .obj [])]
  configuration := { parallelism := some 18446744073709551615 }
  tasks :=
    [{ name := "A", description := some "", dependencies := ["B", "B"], retry := ⟨-1, some (-5)⟩ },
      { name := "B", branches := [⟨"$[true]", "A"⟩], parameters := [("p", nested)] }]

theorem sorted_pair {e e' : String × Value} (h : e.1 < e'.1) : Fields.Sorted [e, e'] := by
  rwa [Fields.Sorted, List.pairwise_pair]

theorem ordered_nested : nested.Ordered := by
  refine .arr fun v hv => ?_
  simp only [List.mem_cons, List.not_mem_nil, or_false] at hv
  rcases hv with rfl | rfl
  · exact .num _
  · refine .obj (sorted_pair (by decide)) fun e he => ?_
    simp only [List.mem_cons, List.not_mem_nil, or_false] at he
    rcases he with rfl | rfl
    · exact .null
    · exact .str _

theorem integral_nested : nested.Integral := by
  refine .arr fun v hv => ?_
  simp only [List.mem_cons, List.not_mem_nil, or_false] at hv
  rcases hv with rfl | rfl
  · exact .int (by decide)
  · refine .obj fun e he => ?_
    simp only [List.mem_cons, List.not_mem_nil, or_false] at he
    rcases he with rfl | rfl
    · exact .null
    · exact .str _

theorem freeForm_variables : FreeForm [("a", nested), ("b", .obj [])] := by
  refine ⟨sorted_pair (by decide), fun e he => ?_, fun e he => ?_⟩
  · simp only [List.mem_cons, List.not_mem_nil, or_false] at he
    rcases he with rfl | rfl
    · exact ordered_nested
    · exact .obj .nil nofun
  · simp only [List.mem_cons, List.not_mem_nil, or_false] at he
    rcases he with rfl | rfl
    · exact integral_nested
    · exact .obj nofun

theorem freeForm_parameters : FreeForm [("p", nested)] := by
  refine ⟨List.pairwise_singleton .., fun e he => ?_, fun e he => ?_⟩
  · obtain rfl := List.mem_singleton.mp he
    exact ordered_nested
  · obtain rfl := List.mem_singleton.mp he
    exact integral_nested

theorem inRange_motley : motley.InRange := by
  refine ⟨freeForm_variables, ⟨by decide, nofun⟩, fun t ht => ?_⟩
  simp only [motley, List.mem_cons, List.not_mem_nil, or_false] at ht
  rcases ht with rfl | rfl
  · exact ⟨nofun, ⟨.nil, nofun, nofun⟩, by decide, by decide⟩
  · exact ⟨nofun, freeForm_parameters, by decide, nofun⟩

/-- Written with its variables the other way round. -/
theorem ofText_toText_motley :
    motley.InRange ∧ motley.toValue.depth ≤ Format.json.levels ∧
      Workflow.ofText .json
        (({ motley with «variables» := motley.variables.reverse } : Workflow).toText .json) =
        .ok motley := by
  have hdepth : motley.toValue.depth ≤ Format.json.levels := by decide
  exact ⟨inRange_motley, hdepth,
    Workflow.ofText_toText inRange_motley (List.reverse_perm _) hdepth⟩

end WorkflowEngine
