import WorkflowEngine.Document.Decode
import WorkflowEngine.Proofs.Fields

/-!
# Documents of values

The document of a value is decoded to that value, as far as its nesting goes and if its objects are
in key order (`value?_ofValue`). Records, sequences and free forms are decoded part by part.
-/

namespace WorkflowEngine

namespace Json

mutual

/-- How deep arrays and objects are nested. -/
def Value.depth : Value → Nat
  | .arr items => Value.itemsDepth items + 1
  | .obj fields => Value.fieldsDepth fields + 1
  | _ => 0

def Value.itemsDepth : List Value → Nat
  | [] => 0
  | v :: rest => max v.depth (Value.itemsDepth rest)

def Value.fieldsDepth : List (String × Value) → Nat
  | [] => 0
  | (_, v) :: rest => max v.depth (Value.fieldsDepth rest)

end

/-- Objects at every depth have their fields in key order. -/
inductive Value.Ordered : Value → Prop where
  | null : Ordered .null
  | bool (b : Bool) : Ordered (.bool b)
  | num (n : Number) : Ordered (.num n)
  | str (s : String) : Ordered (.str s)
  | arr {items : List Value} : (∀ v ∈ items, Ordered v) → Ordered (.arr items)
  | obj {fields : Fields Value} : fields.Sorted → (∀ e ∈ fields, Ordered e.2) →
      Ordered (.obj fields)

namespace Value

variable {levels : Nat} {items : List Value} {fields : List (String × Value)}

theorem itemsDepth_le : itemsDepth items ≤ levels ↔ ∀ v ∈ items, v.depth ≤ levels := by
  induction items with
  | nil => simp [itemsDepth]
  | cons v rest ih => rw [itemsDepth, Nat.max_le, ih, List.forall_mem_cons]

theorem fieldsDepth_le : fieldsDepth fields ≤ levels ↔ ∀ e ∈ fields, e.2.depth ≤ levels := by
  induction fields with
  | nil => simp [fieldsDepth]
  | cons e rest ih =>
    obtain ⟨k, v⟩ := e
    rw [fieldsDepth, Nat.max_le, ih, List.forall_mem_cons]

theorem depth_arr_le (h : (Value.arr items).depth ≤ levels) :
    ∃ l, levels = l + 1 ∧ ∀ v ∈ items, v.depth ≤ l := by
  rw [depth] at h
  obtain ⟨l, rfl⟩ := Nat.exists_eq_add_of_le' (Nat.le_of_add_left_le h)
  exact ⟨l, rfl, itemsDepth_le.mp (Nat.le_of_succ_le_succ h)⟩

theorem depth_obj_le (h : (Value.obj fields).depth ≤ levels) :
    ∃ l, levels = l + 1 ∧ ∀ e ∈ fields, e.2.depth ≤ l := by
  rw [depth] at h
  obtain ⟨l, rfl⟩ := Nat.exists_eq_add_of_le' (Nat.le_of_add_left_le h)
  exact ⟨l, rfl, fieldsDepth_le.mp (Nat.le_of_succ_le_succ h)⟩

end Value

end Json

open Json (Value)

namespace Document

variable {levels : Nat}

/-! ## Values -/

theorem values?_ofItems {vs : List Value} (h : ∀ v ∈ vs, value? levels (ofValue v) = some v) :
    values? levels (ofItems vs) = some vs := by
  induction vs with
  | nil => rfl
  | cons v vs ih =>
    rw [ofItems, values?, h v List.mem_cons_self,
      ih fun w hw => h w (List.mem_cons_of_mem _ hw)]
    rfl

theorem fields?_ofFields {es : List (String × Value)}
    (h : ∀ e ∈ es, value? levels (ofValue e.2) = some e.2) (fields : Fields Value) :
    fields? levels (ofFields es) fields =
      some (es.foldl (fun fields e => fields.insert e.1 e.2) fields) := by
  induction es generalizing fields with
  | nil => rfl
  | cons e es ih =>
    obtain ⟨k, v⟩ := e
    have hv : value? levels (ofValue v) = some v := h (k, v) List.mem_cons_self
    rw [ofFields, fields?.eq_def]
    dsimp only
    rw [hv]
    exact ih (fun e he => h e (List.mem_cons_of_mem _ he)) _

theorem value?_ofValue {v : Value} (hv : v.Ordered) (hdepth : v.depth ≤ levels) :
    value? levels (ofValue v) = some v := by
  induction hv generalizing levels with
  | null | bool | num | str => rw [ofValue, value?]; rfl
  | @arr items _ ih =>
    obtain ⟨l, rfl, hitems⟩ := Value.depth_arr_le hdepth
    rw [ofValue, value?, values?_ofItems fun v hv => ih v hv (hitems v hv)]
    rfl
  | @obj fields hsorted _ ih =>
    obtain ⟨l, rfl, hfields⟩ := Value.depth_obj_le hdepth
    rw [ofValue, value?, fields?_ofFields fun e he => ih e he (hfields e he), Option.map_some]
    exact congrArg (some ∘ Value.obj) (Fields.ofList_eq_of_perm hsorted (.refl _))

/-- A free form is decoded to its fields, in whatever order it names them. -/
theorem freeForm?_ofValue {fields es : Fields Value} (hsorted : fields.Sorted)
    (hordered : ∀ e ∈ fields, e.2.Ordered) (hdepth : (Value.obj fields).depth ≤ levels)
    (hperm : es.Perm fields) : freeForm? levels (ofValue (.obj es)) = some fields := by
  obtain ⟨l, rfl, hfields⟩ := Value.depth_obj_le hdepth
  have hvalues : ∀ e ∈ es, value? l (ofValue e.2) = some e.2 := fun e he =>
    value?_ofValue (hordered e (hperm.mem_iff.mp he)) (hfields e (hperm.mem_iff.mp he))
  rw [ofValue, freeForm?, fields?_ofFields hvalues]
  exact congrArg some (Fields.ofList_eq_of_perm hsorted hperm)

/-! ## Sequences -/

theorem ofItems_eq_map (vs : List Value) : ofItems vs = vs.map ofValue := by
  induction vs with
  | nil => rfl
  | cons v vs ih => rw [ofItems, ih, List.map_cons]

theorem mapM_map_eq_some {α β : Type} {decode : β → Option α} {encode : α → β} {xs : List α}
    (h : ∀ x ∈ xs, decode (encode x) = some x) : (xs.map encode).mapM decode = some xs := by
  induction xs with
  | nil => rfl
  | cons x xs ih =>
    rw [List.map_cons, List.mapM_cons, h x List.mem_cons_self,
      ih fun y hy => h y (List.mem_cons_of_mem _ hy)]
    rfl

/-- A sequence is decoded if its items are, one level further in. -/
theorem list?_ofValue {α : Type} {decode : Nat → Document → Option α} {encode : α → Value}
    {xs : List α} (hdepth : (Value.arr (xs.map encode)).depth ≤ levels)
    (h : ∀ x ∈ xs, ∀ levels, (encode x).depth ≤ levels →
      decode levels (ofValue (encode x)) = some x) :
    list? decode levels (ofValue (.arr (xs.map encode))) = some xs := by
  obtain ⟨l, rfl, hitems⟩ := Value.depth_arr_le hdepth
  rw [ofValue, list?, ofItems_eq_map, List.map_map]
  exact mapM_map_eq_some fun x hx => h x hx l (hitems _ (List.mem_map_of_mem hx))

/-! ## Records -/

theorem any_isNone_ofFields (es : List (String × Value)) :
    (ofFields es).any (fun entry => entry.1.isNone) = false := by
  induction es with
  | nil => rfl
  | cons e es ih => exact ih

theorem countP_ofFields (name : String) (es : List (String × Value)) :
    (ofFields es).countP (fun e => e.1 == some name) = (es.map Prod.fst).count name := by
  induction es with
  | nil => rfl
  | cons e es ih =>
    obtain ⟨k, v⟩ := e
    rw [ofFields, List.map_cons, List.countP_cons, List.count_cons, ih]
    simp

theorem lookup_ofFields (name : String) (es : List (String × Value)) :
    (ofFields es).lookup (some name) = (Fields.find? name es).map ofValue := by
  induction es with
  | nil => rfl
  | cons e es ih =>
    obtain ⟨k, v⟩ := e
    rw [ofFields, List.lookup_cons, Fields.find?, ih]
    by_cases hk : k = name
    · simp [hk]
    · have hbeq : (name == k) = false := beq_false_of_ne (Ne.symm hk)
      simp [hk, hbeq]

/-- The parts of a record that has no name twice. -/
theorem parts?_ofValue {es : List (String × Value)} (names : List String)
    (hnodup : (es.map Prod.fst).Nodup) :
    parts? names (levels + 1) (ofValue (.obj es)) =
      some (levels, names.map fun name => (Fields.find? name es).map ofValue) := by
  have honce : (names.any fun name =>
      decide (1 < (ofFields es).countP (fun e => e.1 == some name))) = false := by
    rw [List.any_eq_false]
    intro name _
    rw [countP_ofFields, decide_eq_true_eq, Nat.not_lt]
    exact List.nodup_iff_count.mp hnodup name
  rw [ofValue, parts?, any_isNone_ofFields, if_neg Bool.false_ne_true, honce,
    if_neg Bool.false_ne_true]
  simp only [lookup_ofFields]

/-! ## Parts -/

theorem part?_optional {α : Type} {decode : Document → Option α} {encode : α → Value} {o : Option α}
    (hnull : ∀ a, (ofValue (encode a)).isNull = false)
    (h : ∀ a ∈ o, decode (ofValue (encode a)) = some a) :
    part? (optional? decode) none ((o.map encode).map ofValue) = some o := by
  cases o with
  | none => rfl
  | some a =>
    rw [Option.map_some, Option.map_some, part?, optional?, hnull, if_neg Bool.false_ne_true,
      h a rfl, Option.map_some]

theorem int?_ofValue {low high i : Int} (hlow : low ≤ i) (hhigh : i ≤ high) :
    int? low high (ofValue (.ofInt i)) = some i := by
  have hn : int? low high (ofValue (.ofInt i)) =
      (some i).filter fun n => decide (low ≤ n) && decide (n ≤ high) := rfl
  rw [hn]
  simp [hlow, hhigh]

theorem nat?_ofValue {n : Nat} (h : n < Nat.pow 2 64) : nat? (ofValue (.ofInt n)) = some n := by
  have hlimit : Nat.pow 2 64 = 18446744073709551616 := by decide
  have hlimit' : Int.pow 2 64 = 18446744073709551616 := by decide
  rw [nat?, int?_ofValue (by omega) (by omega)]
  rfl

end Document

end WorkflowEngine
