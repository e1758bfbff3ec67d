import Mathlib.Data.List.Forall2
import WorkflowEngine.Json.Reader
import WorkflowEngine.Proofs.Document.Decode

/-!
# Decoding goes by the value

A document that says of each scalar what it is (`Document.Tagged`), as those do that are read from
JSON text, may be decoded directly, or turned into its value first. Where the first way succeeds the
second one gives the same. It is not the other way round: of entries under one key the value keeps
the last one, and a record is refused.
-/

namespace WorkflowEngine

open Json (Value)

namespace Document

/-! ## The value of a document -/

mutual

/-- The document has this value, however deep it is. -/
inductive HasValue : Document → Value → Prop where
  | null : HasValue (.scalar .null) .null
  | bool (b : Bool) : HasValue (.scalar (.bool b)) (.bool b)
  | number (n : Json.Number) : HasValue (.scalar (.number (some n))) (.num n)
  | text (s : String) : HasValue (.scalar (.text (some s))) (.str s)
  | seq {items : List Document} {vs : List Value} : HaveValues items vs →
      HasValue (.seq items) (.arr vs)
  | map {entries : List (Option String × Document)} {fields : Fields Value} :
      HaveFields entries [] fields → HasValue (.map entries) (.obj fields)

inductive HaveValues : List Document → List Value → Prop where
  | nil : HaveValues [] []
  | cons {d : Document} {v : Value} {rest : List Document} {vs : List Value} : HasValue d v →
      HaveValues rest vs → HaveValues (d :: rest) (v :: vs)

/-- The entries turn the first fields into the second ones. -/
inductive HaveFields : List (Option String × Document) → Fields Value → Fields Value → Prop where
  | nil (fields : Fields Value) : HaveFields [] fields fields
  | cons {key : String} {d : Document} {v : Value} {rest : List (Option String × Document)}
      {fields fields' : Fields Value} : HasValue d v →
      HaveFields rest (fields.insert key v) fields' →
      HaveFields ((some key, d) :: rest) fields fields'

end

/-- No scalar is unquoted text. -/
inductive Tagged : Document → Prop where
  | scalar {s : Scalar} : (∀ text, s ≠ .plain text) → Tagged (.scalar s)
  | seq {items : List Document} : (∀ d ∈ items, Tagged d) → Tagged (.seq items)
  | map {entries : List (Option String × Document)} : (∀ e ∈ entries, Tagged e.2) →
      Tagged (.map entries)

theorem hasValue_scalar {s : Scalar} {v : Value} (hs : ∀ text, s ≠ .plain text)
    (h : s.value? = some v) : HasValue (.scalar s) v := by
  cases s with
  | null =>
    cases h
    exact .null
  | bool b =>
    cases h
    exact .bool b
  | number o =>
    obtain ⟨n, rfl, rfl⟩ := Option.map_eq_some_iff.mp h
    exact .number n
  | text o =>
    obtain ⟨text, rfl, rfl⟩ := Option.map_eq_some_iff.mp h
    exact .text text
  | plain text => exact absurd rfl (hs text)

-- Along the document; a level is used up wherever the value is one deeper.
mutual

theorem hasValue_of_value? {n : Nat} {d : Document} {v : Value} (ht : d.Tagged)
    (h : value? n d = some v) : d.HasValue v ∧ v.depth ≤ n := by
  cases ht with
  | scalar hs =>
    rw [value?] at h
    have hv := hasValue_scalar hs h
    refine ⟨hv, ?_⟩
    cases hv <;> exact Nat.zero_le n
  | @seq items hitems =>
    cases n with
    | zero => cases h
    | succ n =>
      rw [value?] at h
      obtain ⟨vs, hvs, rfl⟩ := Option.map_eq_some_iff.mp h
      obtain ⟨hvalues, hdepth⟩ := haveValues_of_values? hitems hvs
      exact ⟨.seq hvalues, Nat.succ_le_succ (Value.itemsDepth_le.mpr hdepth)⟩
  | @map entries hentries =>
    cases n with
    | zero => cases h
    | succ n =>
      rw [value?] at h
      obtain ⟨fields, hfields, rfl⟩ := Option.map_eq_some_iff.mp h
      obtain ⟨hvalues, hdepth⟩ := haveFields_of_fields? hentries (by simp) hfields
      exact ⟨.map hvalues, Nat.succ_le_succ (Value.fieldsDepth_le.mpr hdepth)⟩

theorem haveValues_of_values? {n : Nat} {items : List Document} {vs : List Value}
    (ht : ∀ d ∈ items, d.Tagged) (h : values? n items = some vs) :
    HaveValues items vs ∧ ∀ v ∈ vs, v.depth ≤ n := by
  cases items with
  | nil =>
    cases h
    exact ⟨.nil, nofun⟩
  | cons d rest =>
    rw [values?.eq_def] at h
    dsimp only at h
    split at h
    · cases h
    · rename_i v hv
      obtain ⟨vs', hvs, rfl⟩ := Option.map_eq_some_iff.mp h
      obtain ⟨hfirst, hdepth⟩ := hasValue_of_value? (ht d List.mem_cons_self) hv
      obtain ⟨hrest, hdepths⟩ :=
        haveValues_of_values? (fun e he => ht e (List.mem_cons_of_mem d he)) hvs
      exact ⟨.cons hfirst hrest, List.forall_mem_cons.mpr ⟨hdepth, hdepths⟩⟩

theorem haveFields_of_fields? {n : Nat} {entries : List (Option String × Document)}
    {fields fields' : Fields Value} (ht : ∀ e ∈ entries, e.2.Tagged)
    (hfields : ∀ e ∈ fields, e.2.depth ≤ n) (h : fields? n entries fields = some fields') :
    HaveFields entries fields fields' ∧ ∀ e ∈ fields', e.2.depth ≤ n := by
  cases entries with
  | nil =>
    cases h
    exact ⟨.nil fields, hfields⟩
  | cons e rest =>
    obtain ⟨key, d⟩ := e
    rw [fields?.eq_def] at h
    dsimp only at h
    split at h
    · rename_i key v hv
      obtain ⟨hfirst, hdepth⟩ := hasValue_of_value? (ht (_, d) List.mem_cons_self) hv
      have hinsert : ∀ e ∈ fields.insert key v, e.2.depth ≤ n := by
        intro e he
        rcases Fields.mem_insert he with rfl | he
        · exact hdepth
        · exact hfields e he
      obtain ⟨hrest, hdepths⟩ :=
        haveFields_of_fields? (fun e he => ht e (List.mem_cons_of_mem _ he)) hinsert h
      exact ⟨.cons hfirst hrest, hdepths⟩
    · cases h

end

-- The value does not depend on how many levels are left.
mutual

theorem HasValue.eq_of_value? {n : Nat} {d : Document} {v v' : Value} (h : d.HasValue v)
    (h' : value? n d = some v') : v' = v := by
  cases h with
  | null | bool | number | text =>
    rw [value?] at h'
    cases h'
    rfl
  | seq hitems =>
    cases n with
    | zero => cases h'
    | succ n =>
      rw [value?] at h'
      obtain ⟨vs, hvs, rfl⟩ := Option.map_eq_some_iff.mp h'
      rw [hitems.eq_of_values? hvs]
  | map hentries =>
    cases n with
    | zero => cases h'
    | succ n =>
      rw [value?] at h'
      obtain ⟨fields, hfields, rfl⟩ := Option.map_eq_some_iff.mp h'
      rw [hentries.eq_of_fields? hfields]

theorem HaveValues.eq_of_values? {n : Nat} {items : List Document} {vs vs' : List Value}
    (h : HaveValues items vs) (h' : values? n items = some vs') : vs' = vs := by
  cases h with
  | nil =>
    cases h'
    rfl
  | cons hfirst hrest =>
    rw [values?.eq_def] at h'
    dsimp only at h'
    split at h'
    · cases h'
    · rename_i v hv
      obtain ⟨vs, hvs, rfl⟩ := Option.map_eq_some_iff.mp h'
      rw [hfirst.eq_of_value? hv, hrest.eq_of_values? hvs]

theorem HaveFields.eq_of_fields? {n : Nat} {entries : List (Option String × Document)}
    {fields result result' : Fields Value} (h : HaveFields entries fields result)
    (h' : fields? n entries fields = some result') : result' = result := by
  cases h with
  | nil =>
    cases h'
    rfl
  | cons hfirst hrest =>
    rw [fields?.eq_def] at h'
    dsimp only at h'
    split at h'
    · rename_i key v hkey hv
      cases hkey
      rw [hfirst.eq_of_value? hv] at h'
      exact hrest.eq_of_fields? h'
    · cases h'

end

mutual

theorem HasValue.ordered {d : Document} {v : Value} (h : d.HasValue v) : v.Ordered := by
  cases h with
  | null => exact .null
  | bool b => exact .bool b
  | number n => exact .num n
  | text s => exact .str s
  | seq hitems => exact .arr hitems.ordered
  | map hentries =>
    obtain ⟨hsorted, hordered⟩ := hentries.ordered .nil (by simp)
    exact .obj hsorted hordered

theorem HaveValues.ordered {items : List Document} {vs : List Value} (h : HaveValues items vs) :
    ∀ v ∈ vs, v.Ordered := by
  cases h with
  | nil => exact nofun
  | cons hfirst hrest => exact List.forall_mem_cons.mpr ⟨hfirst.ordered, hrest.ordered⟩

theorem HaveFields.ordered {entries : List (Option String × Document)}
    {fields result : Fields Value} (h : HaveFields entries fields result) (hsorted : fields.Sorted)
    (hordered : ∀ e ∈ fields, e.2.Ordered) : result.Sorted ∧ ∀ e ∈ result, e.2.Ordered := by
  cases h with
  | nil => exact ⟨hsorted, hordered⟩
  | cons hfirst hrest =>
    refine hrest.ordered (Fields.sorted_insert _ _ hsorted) ?_
    intro e he
    rcases Fields.mem_insert he with rfl | he
    · exact hfirst.ordered
    · exact hordered e he

end

theorem HaveFields.ordered_nil {entries : List (Option String × Document)} {result : Fields Value}
    (h : HaveFields entries [] result) : result.Sorted ∧ ∀ e ∈ result, e.2.Ordered :=
  h.ordered .nil (by simp)

/-- Where a key stands once at most, its entry is what is found under it. -/
theorem HaveFields.find? {entries : List (Option String × Document)} {fields result : Fields Value}
    (h : HaveFields entries fields result) {name : String}
    (honce : entries.countP (fun e => e.1 == some name) ≤ 1) :
    (entries.lookup (some name) = none ∧ Fields.find? name result = fields.find? name) ∨
      ∃ d v, entries.lookup (some name) = some d ∧ Fields.find? name result = some v ∧
        d.HasValue v := by
  induction entries generalizing fields with
  | nil =>
    cases h
    exact .inl ⟨rfl, rfl⟩
  | cons e rest ih =>
    cases h with
    | @cons key d v _ _ _ hfirst hrest =>
      rw [List.countP_cons] at honce
      rw [List.lookup_cons]
      by_cases hkey : key = name
      · subst hkey
        rw [if_pos (beq_self_eq_true (some key))] at honce
        have hzero : rest.countP (fun e => e.1 == some key) = 0 := by omega
        have hnone : rest.lookup (some key) = none := by
          rw [List.lookup_eq_none_iff]
          intro e he
          have hne := List.countP_eq_zero.mp hzero e he
          exact bne_iff_ne.mpr fun heq => hne (beq_iff_eq.mpr heq.symm)
        rcases ih hrest (by omega) with ⟨-, hfind⟩ | ⟨d', v', hlookup, -⟩
        · refine .inr ⟨d, v, by simp, ?_, hfirst⟩
          rw [hfind, Fields.find?_insert, if_pos rfl]
        · rw [hnone] at hlookup
          cases hlookup
      · have hbeq : (some name == some key) = false := by simpa using Ne.symm hkey
        rw [hbeq]
        have hrest' := ih hrest (by omega)
        rw [Fields.find?_insert, if_neg hkey] at hrest'
        exact hrest'

/-! ## Decoding -/

/-- What is decoded from a document is decoded from its value as well, if the levels that are left
go as deep as the value. -/
def GoesByValue {α : Type} (decode : Nat → Document → Option α) : Prop :=
  ∀ (levels : Nat) ⦃levels' : Nat⦄ ⦃d : Document⦄ ⦃v : Value⦄ ⦃a : α⦄, d.HasValue v →
    v.depth ≤ levels' → decode levels d = some a → decode levels' (ofValue v) = some a

variable {α : Type} {d : Document} {v : Value} {levels levels' : Nat}

/-- A scalar that has a value is the document of that value. -/
theorem HasValue.ofValue_eq {s : Scalar} (h : HasValue (.scalar s) v) : ofValue v = .scalar s := by
  cases h <;> rfl

theorem HasValue.isNull_eq (h : d.HasValue v) : (ofValue v).isNull = d.isNull := by
  cases h <;> rfl

theorem goesByValue_text : GoesByValue fun _ => text? := by
  intro levels levels' d v s h _ hs
  cases d with
  | scalar t =>
    rw [h.ofValue_eq]
    exact hs
  | seq items => cases hs
  | map entries => cases hs

theorem goesByValue_int (low high : Int) : GoesByValue fun _ => int? low high := by
  intro levels levels' d v i h _ hi
  cases d with
  | scalar t =>
    rw [h.ofValue_eq]
    exact hi
  | seq items => cases hi
  | map entries => cases hi

theorem goesByValue_nat : GoesByValue fun _ => nat? := by
  intro levels levels' d v n h hdepth hn
  obtain ⟨i, hi, rfl⟩ := Option.map_eq_some_iff.mp hn
  have hint : int? 0 (Int.pow 2 64 - 1) (ofValue v) = some i :=
    goesByValue_int 0 (Int.pow 2 64 - 1) levels h hdepth hi
  exact Option.map_eq_some_iff.mpr ⟨i, hint, rfl⟩

theorem GoesByValue.optional {decode : Document → Option α}
    (hdecode : GoesByValue fun _ => decode) : GoesByValue fun _ => optional? decode := by
  intro levels levels' d v o h hdepth ho
  dsimp only at ho ⊢
  rw [optional?] at ho ⊢
  rw [h.isNull_eq]
  split at ho
  · rename_i hnull
    rw [if_pos hnull]
    exact ho
  · rename_i hnull
    obtain ⟨a, ha, rfl⟩ := Option.map_eq_some_iff.mp ho
    have hvalue : decode (ofValue v) = some a := hdecode levels h hdepth ha
    rw [if_neg hnull, hvalue, Option.map_some]

theorem goesByValue_freeForm : GoesByValue freeForm? := by
  intro levels levels' d v fields h hdepth hfields
  cases h with
  | map hentries =>
    cases levels with
    | zero => cases hfields
    | succ levels =>
      rw [freeForm?] at hfields
      obtain ⟨hsorted, hordered⟩ := hentries.ordered_nil
      rw [hentries.eq_of_fields? hfields]
      exact freeForm?_ofValue hsorted hordered hdepth (.refl _)
  | seq _ => cases levels <;> cases hfields
  | null | bool | number | text => cases levels <;> cases hfields

theorem GoesByValue.mapM {decode : Nat → Document → Option α} (hdecode : GoesByValue decode)
    {items : List Document} {vs : List Value} {xs : List α} (h : HaveValues items vs)
    (hdepth : ∀ v ∈ vs, v.depth ≤ levels') (hxs : items.mapM (decode levels) = some xs) :
    (vs.map ofValue).mapM (decode levels') = some xs := by
  induction items generalizing vs xs with
  | nil =>
    cases h
    exact hxs
  | cons d rest ih =>
    cases h with
    | cons hfirst hrest =>
      rw [List.forall_mem_cons] at hdepth
      rw [List.mapM_cons] at hxs
      obtain ⟨x, hx, hmore⟩ := Option.bind_eq_some_iff.mp hxs
      obtain ⟨ys, hys, heq⟩ := Option.bind_eq_some_iff.mp hmore
      cases heq
      rw [List.map_cons, List.mapM_cons, hdecode levels hfirst hdepth.1 hx, ih hrest hdepth.2 hys]
      rfl

theorem GoesByValue.list {decode : Nat → Document → Option α} (hdecode : GoesByValue decode) :
    GoesByValue (list? decode) := by
  intro levels levels' d v xs h hdepth hxs
  cases h with
  | seq hitems =>
    cases levels with
    | zero => cases hxs
    | succ levels =>
      obtain ⟨l, rfl, hdepths⟩ := Value.depth_arr_le hdepth
      rw [ofValue, list?, ofItems_eq_map]
      exact hdecode.mapM hitems hdepths hxs
  | map _ => cases levels <;> cases hxs
  | null | bool | number | text => cases levels <;> cases hxs

/-! ## Records -/

/-- A part of a record, and the same part of its value. -/
inductive SamePart (levels : Nat) : Option Document → Option Document → Prop where
  | absent : SamePart levels none none
  | given {d : Document} {v : Value} : d.HasValue v → v.depth ≤ levels →
      SamePart levels (some d) (some (ofValue v))

theorem SamePart.part? {decode : Nat → Document → Option α} {part part' : Option Document}
    {default a : α} (h : SamePart levels' part part') (levels : Nat) (hdecode : GoesByValue decode)
    (ha : part? (decode levels) default part = some a) :
    Document.part? (decode levels') default part' = some a := by
  cases h with
  | absent => exact ha
  | given hvalue hdepth => exact hdecode levels hvalue hdepth ha

theorem samePart_items {items : List Document} {vs : List Value} (h : HaveValues items vs)
    (hdepth : ∀ v ∈ vs, v.depth ≤ levels') :
    List.Forall₂ (SamePart levels') (items.map some) ((vs.map ofValue).map some) := by
  induction items generalizing vs with
  | nil =>
    cases h
    exact .nil
  | cons d rest ih =>
    cases h with
    | cons hfirst hrest =>
      rw [List.forall_mem_cons] at hdepth
      exact .cons (.given hfirst hdepth.1) (ih hrest hdepth.2)

theorem samePart_replicate (levels n : Nat) :
    List.Forall₂ (SamePart levels) (List.replicate n none) (List.replicate n none) := by
  induction n with
  | zero => exact .nil
  | succ n ih => exact .cons .absent ih

theorem HaveValues.length_eq {items : List Document} {vs : List Value} (h : HaveValues items vs) :
    vs.length = items.length := by
  induction items generalizing vs with
  | nil =>
    cases h
    rfl
  | cons d rest ih =>
    cases h with
    | cons hfirst hrest => rw [List.length_cons, List.length_cons, ih hrest]

/-- The parts of a record and those of its value. No name stands twice in the record. -/
theorem parts?_of_hasValue {names : List String} {parts : List (Option Document)} {l : Nat}
    (h : d.HasValue v) (hdepth : v.depth ≤ levels')
    (hparts : parts? names levels d = some (l, parts)) :
    ∃ l' parts', parts? names levels' (ofValue v) = some (l', parts') ∧
      List.Forall₂ (SamePart l') parts parts' := by
  cases h with
  | @seq items vs hitems =>
    cases levels with
    | zero => cases hparts
    | succ levels =>
      obtain ⟨l', rfl, hdepths⟩ := Value.depth_arr_le hdepth
      rw [parts?] at hparts
      split at hparts
      · cases hparts
      · rename_i hlength
        cases hparts
        refine ⟨l', (vs.map ofValue).map some ++
          List.replicate (names.length - items.length) none, ?_,
          List.rel_append (samePart_items hitems hdepths) (samePart_replicate ..)⟩
        rw [ofValue, parts?, ofItems_eq_map, List.length_map, hitems.length_eq, if_neg hlength]
  | @map entries fields hentries =>
    cases levels with
    | zero => cases hparts
    | succ levels =>
      obtain ⟨l', rfl, hdepths⟩ := Value.depth_obj_le hdepth
      obtain ⟨hsorted, -⟩ := hentries.ordered_nil
      rw [parts?] at hparts
      split at hparts
      · cases hparts
      · split at hparts
        · cases hparts
        · rename_i honce
          cases hparts
          refine ⟨l', _, parts?_ofValue names hsorted.nodup_keys, ?_⟩
          rw [List.forall₂_map_left_iff, List.forall₂_map_right_iff, List.forall₂_same]
          intro name hname
          have hcount : entries.countP (fun e => e.1 == some name) ≤ 1 := by
            by_contra hlt
            exact honce (List.any_eq_true.mpr ⟨name, hname, decide_eq_true (Nat.lt_of_not_le hlt)⟩)
          rcases hentries.find? hcount with ⟨hlookup, hfind⟩ | ⟨d, v, hlookup, hfind, hvalue⟩
          · rw [hlookup, hfind]
            exact .absent
          · rw [hlookup, hfind]
            exact .given hvalue (hdepths _ (Fields.mem_of_find? hfind))
  | null | bool | number | text => cases levels <;> cases hparts

end Document

/-! ## JSON text -/

namespace Json

open Document (Tagged)

theorem tagged_read (fuel : Nat) :
    (∀ cs d rest, readDocument fuel cs = some (d, rest) → d.Tagged) ∧
    (∀ cs items rest, readItems fuel cs = some (items, rest) → ∀ d ∈ items, d.Tagged) ∧
    ∀ cs entries rest, readEntries fuel cs = some (entries, rest) → ∀ e ∈ entries, e.2.Tagged := by
  induction fuel with
  | zero => exact ⟨nofun, nofun, nofun⟩
  | succ fuel ih =>
    obtain ⟨hdocument, hitems, hentries⟩ := ih
    refine ⟨?_, ?_, ?_⟩
    · intro cs d rest h
      rw [readDocument.eq_def] at h
      dsimp only at h
      split at h
      · split at h
        · cases h
          exact .map (by simp)
        · obtain ⟨⟨entries, rest'⟩, hread, heq⟩ := Option.map_eq_some_iff.mp h
          cases heq
          exact .map (hentries _ _ _ hread)
      · split at h
        · cases h
          exact .seq (by simp)
        · obtain ⟨⟨items, rest'⟩, hread, heq⟩ := Option.map_eq_some_iff.mp h
          cases heq
          exact .seq (hitems _ _ _ hread)
      all_goals
        obtain ⟨_, -, heq⟩ := Option.map_eq_some_iff.mp h
        cases heq
        exact .scalar nofun
    · intro cs items rest h
      rw [readItems.eq_def] at h
      dsimp only at h
      split at h
      · cases h
      · rename_i item rest' hitem
        have hfirst := hdocument _ _ _ hitem
        split at h
        · cases h
          simpa using hfirst
        · obtain ⟨⟨items', rest''⟩, hread, heq⟩ := Option.map_eq_some_iff.mp h
          cases heq
          exact List.forall_mem_cons.mpr ⟨hfirst, hitems _ _ _ hread⟩
        · cases h
    · intro cs entries rest h
      rw [readEntries.eq_def] at h
      dsimp only at h
      split at h
      · split at h
        · cases h
        · split at h
          · split at h
            · cases h
            · rename_i item rest' hitem
              have hfirst := hdocument _ _ _ hitem
              split at h
              · cases h
                simpa using hfirst
              · obtain ⟨⟨entries', rest''⟩, hread, heq⟩ := Option.map_eq_some_iff.mp h
                cases heq
                exact List.forall_mem_cons.mpr ⟨hfirst, hentries _ _ _ hread⟩
              · cases h
          · cases h
      · cases h

theorem tagged_readText {text : String} {d : Document} (h : readText text = some d) : d.Tagged := by
  rw [readText] at h
  split at h
  · rename_i document rest hread
    split at h
    · cases h
      exact (tagged_read _).1 _ _ _ hread
    · cases h
  · cases h

end Json

end WorkflowEngine
