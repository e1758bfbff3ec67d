import WorkflowEngine.Expression.Function
import WorkflowEngine.Proofs.Decimal.Numeral
import WorkflowEngine.Proofs.Expression.Comparison
import WorkflowEngine.Proofs.Json.Same
import WorkflowEngine.Proofs.Json.Text

/-!
# Equality of the language

Equality has three regimes: numbers and numerals are compared as numbers, a text with a value that
is none as texts, and all else as values. A value has a number exactly if its text is a numeral
(`isSome_asNumber_stringify`), so the first regime never meets the others. The other two differ in
one thing: as values zero and negative zero are equal, and as texts they are not.
-/

namespace WorkflowEngine.Expression

open Json (Value Number)

variable {a b c v w : Value}

/-! ## Which texts are numerals -/

section

variable {ch : Char} {cs : List Char}

theorem isBlank_of_ofNumber (h : Decimal.ofNumber ch = true) : Text.isBlank ch = false := by
  simp only [Decimal.ofNumber, Bool.or_eq_true, beq_iff_eq] at h
  rcases h with (((hdigit | rfl) | rfl) | rfl) | rfl
  · have hrange : 48 ≤ ch.toNat ∧ ch.toNat ≤ 57 := by
      simpa [Char.isDigit, UInt32.le_iff_toNat_le] using hdigit
    simp only [Text.isBlank, Text.inRanges, Text.blankRanges, List.any_cons, List.any_nil,
      Bool.or_eq_false_iff, Bool.and_eq_false_iff, decide_eq_false_iff_not, and_true]
    omega
  all_goals decide

theorem trimChars_of_not_blank (h : ∀ ch ∈ cs, Text.isBlank ch = false) :
    Text.trimChars cs = cs := by
  have hstart : ∀ ds : List Char, (∀ ch ∈ ds, Text.isBlank ch = false) →
      Text.trimStartChars ds = ds := by
    intro ds hds
    cases ds with
    | nil => rfl
    | cons ch ds => exact List.dropWhile_cons_of_neg (by simp [hds ch List.mem_cons_self])
  rw [Text.trimChars, hstart cs h, hstart _ fun ch hch => h ch (List.mem_reverse.mp hch),
    List.reverse_reverse]

theorem trimChars_cons (h : Text.isBlank ch = false) (cs : List Char) :
    ∃ ds, Text.trimChars (ch :: cs) = ch :: ds := by
  have hstart : Text.trimStartChars (ch :: cs) = ch :: cs :=
    List.dropWhile_cons_of_neg (by simp [h])
  rw [Text.trimChars, hstart, List.reverse_cons]
  obtain ⟨ds, hds⟩ : ∃ ds, Text.trimStartChars (cs.reverse ++ [ch]) = ds ++ [ch] := by
    rw [Text.trimStartChars, List.dropWhile_append]
    split
    · exact ⟨[], List.dropWhile_cons_of_neg (by simp [h])⟩
    · exact ⟨_, rfl⟩
  exact ⟨ds.reverse, by rw [hds, List.reverse_append]; rfl⟩

theorem readUnsigned_ne_none (h : Decimal.readMagnitude cs ≠ none) :
    Decimal.readUnsigned cs ≠ none := by
  unfold Decimal.readUnsigned
  dsimp only
  split
  · exact Option.some_ne_none _
  · split
    · exact Option.some_ne_none _
    · exact h

/-- The text of a number is a numeral. -/
theorem asNumber_text (n : Number) : (asNumber (.str n.text)).isSome = true := by
  obtain ⟨negative, ch, cs, htext, hdigit, -, hread, -⟩ := n.exists_text
  have htrim : Text.trimChars n.text.toList = n.text.toList :=
    trimChars_of_not_blank fun ch hch => isBlank_of_ofNumber (n.text_ofNumber ch hch)
  have hunsigned := readUnsigned_ne_none hread
  rw [Option.isSome_iff_ne_none, asNumber, Text.trim, Decimal.readFloat, String.toList_ofList, htrim,
    htext]
  cases negative with
  | true => simpa [Json.signChars, Decimal.readFloatChars] using hunsigned
  | false =>
    rw [Json.signChars, if_neg Bool.false_ne_true, List.nil_append, Decimal.readFloatChars.eq_3]
    · exact hunsigned
    · rintro rest ⟨⟩
      exact absurd hdigit (by decide)
    · rintro rest ⟨⟩
      exact absurd hdigit (by decide)

/-- What begins with a bracket or a brace is no numeral. -/
theorem asNumber_bracket (h : ch = '[' ∨ ch = '\x7b') (cs : List Char) :
    asNumber (.str (String.ofList (ch :: cs))) = none := by
  have hblank : Text.isBlank ch = false := by rcases h with rfl | rfl <;> decide
  obtain ⟨ds, hds⟩ := trimChars_cons hblank cs
  have hword : ∀ word ∈ ["inf", "infinity", "nan"],
      String.ofList ((ch :: ds).map Char.toLower) ≠ word := by
    intro word hword heq
    have hhead := congrArg (fun s => s.toList.head?) heq
    simp only [String.toList_ofList, List.map_cons, List.head?_cons] at hhead
    simp only [List.mem_cons, List.not_mem_nil, or_false] at hword
    rcases h with rfl | rfl <;> rcases hword with rfl | rfl | rfl <;> simp at hhead
  have hmagnitude : Decimal.readMagnitude (ch :: ds) = none := by
    rw [Decimal.readMagnitude_eq]
    rcases h with rfl | rfl <;> rfl
  have hunsigned : Decimal.readUnsigned (ch :: ds) = none := by
    simp only [List.mem_cons, List.not_mem_nil, or_false, forall_eq_or_imp, forall_eq] at hword
    simp only [Decimal.readUnsigned, hword, or_self, if_false, hmagnitude]
  rw [asNumber, Text.trim, Decimal.readFloat, String.toList_ofList, String.toList_ofList, hds]
  rcases h with rfl | rfl <;> exact hunsigned

end

theorem numberText_eq (n : Number) : ∃ m : Number, numberText n = m.text := by
  cases n with
  | int i => exact ⟨.int i, rfl⟩
  | float x =>
    rw [numberText]
    split
    · rename_i i _
      split
      · exact ⟨.int i, rfl⟩
      · exact ⟨.float x, rfl⟩
    · exact ⟨.float x, rfl⟩

/-- A value counts as a number exactly if its text does. -/
theorem isSome_asNumber_stringify (v : Value) :
    (asNumber (.str (stringify v))).isSome = (asNumber v).isSome := by
  cases v with
  | null => decide
  | bool b => cases b <;> decide
  | num n =>
    obtain ⟨m, hm⟩ := numberText_eq n
    rw [stringify, hm, asNumber_text]
    rfl
  | str s => rfl
  | arr items =>
    have hnone : asNumber (.str (stringify (.arr items))) = none := asNumber_bracket (.inl rfl) _
    rw [hnone]
    rfl
  | obj fields =>
    have hnone : asNumber (.str (stringify (.obj fields))) = none := asNumber_bracket (.inr rfl) _
    rw [hnone]
    rfl

/-! ## The three regimes -/

/-- Where one of two values has no number, they are compared as texts if one of them is a text, and
else as values. -/
theorem looseEq_of_none (h : asNumber a = none ∨ asNumber b = none) : looseEq a b =
    if a.isStr || b.isStr then !a.isNull && !b.isNull && stringify a == stringify b
    else a.same b := by
  unfold looseEq
  split
  · rename_i hx hy
    simp [hx, hy] at h
  · split
    · rfl
    · rfl
    · rename_i s _ _
      have hcomm : (s == stringify a) = (stringify a == s) := BEq.comm
      rw [hcomm]
      simp [Value.isStr, Value.isNull, stringify]
    · rename_i ha hb _
      have hastr : a.isStr = false := by
        cases a with
        | str s => exact (ha s rfl).elim
        | _ => rfl
      have hbstr : b.isStr = false := by
        cases b with
        | str s => exact (hb s rfl).elim
        | _ => rfl
      rw [hastr, hbstr]
      rfl

/-- No value that has a number equals one that has none. -/
theorem isSome_eq_of_looseEq (h : looseEq a b = true) :
    (asNumber a).isSome = (asNumber b).isSome := by
  by_cases hnumbers : asNumber a = none ∨ asNumber b = none
  · rw [looseEq_of_none hnumbers] at h
    split at h
    · rw [Bool.and_eq_true, beq_iff_eq] at h
      rw [← isSome_asNumber_stringify a, ← isSome_asNumber_stringify b, h.2]
    · cases a <;> cases b <;> simp_all [Value.isStr, Value.same, asNumber]
  · rw [not_or] at hnumbers
    rw [Option.isSome_iff_ne_none.mpr hnumbers.1, Option.isSome_iff_ne_none.mpr hnumbers.2]

theorem looseEq_symm (ha : a.Finite) (hb : b.Finite) : looseEq a b = looseEq b a := by
  by_cases hnumbers : asNumber a = none ∨ asNumber b = none
  · have hsame : a.same b = b.same a := by
      rw [Bool.eq_iff_iff, Value.same_iff a b ha, Value.same_iff b a hb]
      exact eq_comm
    have htext : (stringify a == stringify b) = (stringify b == stringify a) := BEq.comm
    rw [looseEq_of_none hnumbers, looseEq_of_none hnumbers.symm, hsame, htext, Bool.or_comm,
      Bool.and_comm (!a.isNull)]
  · rw [not_or] at hnumbers
    obtain ⟨x, hx⟩ := Option.ne_none_iff_exists'.mp hnumbers.1
    obtain ⟨y, hy⟩ := Option.ne_none_iff_exists'.mp hnumbers.2
    rw [looseEq_of_numbers hx hy, looseEq_of_numbers hy hx]
    exact BEq.comm

/-- The texts of "not a number": its word in any case, with or without a sign, between blanks. -/
def spellsNaN : Value → Bool
  | .str s => (Decimal.unsigned (Text.trimChars s.toList)).map Char.toLower == ['n', 'a', 'n']
  | _ => false

theorem asNumber_eq_nan (hv : v.Finite) : asNumber v = some Float.nan ↔ spellsNaN v = true := by
  cases hv with
  | int i =>
    refine iff_of_false ?_ nofun
    exact fun h => Decimal.ofInt_ne_nan i (Option.some.inj h)
  | float hx =>
    refine iff_of_false ?_ nofun
    exact fun h => Json.ne_nan_of_isFinite hx (Option.some.inj h)
  | str s =>
    rw [spellsNaN, beq_iff_eq, ← Decimal.readFloatChars_eq_nan, asNumber, Decimal.readFloat,
      Text.trim, String.toList_ofList]
  | _ => exact iff_of_false nofun nofun

theorem looseEq_self (hv : v.Finite) : looseEq v v = !spellsNaN v := by
  rw [Bool.eq_iff_iff, Bool.not_eq_true', ← Bool.not_eq_true, ← asNumber_eq_nan hv]
  cases hx : asNumber v with
  | some x =>
    rw [looseEq_of_numbers hx hx, Float.beq_self_iff, Option.some_inj]
  | none =>
    refine iff_of_true ?_ nofun
    rw [looseEq_of_none (.inl hx)]
    cases v <;> simp [Value.isStr, Value.isNull, Value.same_iff _ _ hv]

/-! ## Chains of equalities -/

def isCollection : Value → Bool
  | .arr _ => true
  | .obj _ => true
  | _ => false

/-- A text that is the text of a collection, and a collection that is equal to that one and has
another text. The two differ in the sign of a zero. -/
structure ZeroSignGap (a b c : Value) : Prop where
  collection : isCollection b = true
  text : a = .str b.text
  same : b.plusZeros = c.plusZeros
  differ : b.text ≠ c.text

theorem ZeroSignGap.looseEq (h : ZeroSignGap a b c) : looseEq a c = false := by
  obtain ⟨hcollection, rfl, hsame, hdiffer⟩ := h
  cases b with
  | arr items =>
    cases c with
    | arr items' =>
      rw [looseEq_of_none (.inr rfl)]
      simpa [Value.isStr, Value.isNull, stringify] using hdiffer
    | _ => cases hsame
  | obj fields =>
    cases c with
    | obj fields' =>
      rw [looseEq_of_none (.inr rfl)]
      simpa [Value.isStr, Value.isNull, stringify] using hdiffer
    | _ => cases hsame
  | _ => cases hcollection

/-- Two values that are neither numbers nor texts nor null are the same if their texts are. -/
theorem eq_of_stringify (ha : asNumber a = none) (hb : asNumber b = none) (hastr : a.isStr = false)
    (hbstr : b.isStr = false) (hanull : a.isNull = false) (hbnull : b.isNull = false)
    (h : stringify a = stringify b) : a = b := by
  have htext : ∀ v : Value, asNumber v = none → v.isStr = false → v.isNull = false →
      stringify v = v.text := by
    intro v hv hstr hnull
    cases v with
    | null => cases hnull
    | bool b => cases b <;> rfl
    | num n => cases hv
    | str s => cases hstr
    | arr items => rfl
    | obj fields => rfl
  rw [htext a ha hastr hanull, htext b hb hbstr hbnull] at h
  exact Value.text_injective h

theorem looseEq_str_iff {s : String} (hv : asNumber v = none) :
    looseEq (.str s) v = true ↔ v.isNull = false ∧ s = stringify v := by
  rw [looseEq_of_none (.inr hv)]
  simp [Value.isStr, Value.isNull, stringify]

/-- Through a value that is no text, a text stays equal unless a zero changes its sign. -/
theorem looseEq_str_trans {s : String} (hb : asNumber b = none) (hc : asNumber c = none)
    (hbstr : b.isStr = false) (hab : looseEq (.str s) b = true) (hbc : b.plusZeros = c.plusZeros) :
    looseEq (.str s) c = true ∨ ZeroSignGap (.str s) b c := by
  obtain ⟨hnull, rfl⟩ := (looseEq_str_iff hb).mp hab
  rw [looseEq_str_iff hc]
  cases b with
  | null => cases hnull
  | num n => cases hb
  | str s => cases hbstr
  | bool b =>
    cases c with
    | bool b' =>
      cases hbc
      exact .inl ⟨rfl, rfl⟩
    | _ => cases hbc
  | arr items =>
    cases c with
    | arr items' =>
      by_cases htext : (Value.arr items).text = (Value.arr items').text
      · exact .inl ⟨rfl, htext⟩
      · exact .inr ⟨rfl, rfl, hbc, htext⟩
    | _ => cases hbc
  | obj fields =>
    cases c with
    | obj fields' =>
      by_cases htext : (Value.obj fields).text = (Value.obj fields').text
      · exact .inl ⟨rfl, htext⟩
      · exact .inr ⟨rfl, rfl, hbc, htext⟩
    | _ => cases hbc

/-- A chain of two equalities through a text. -/
theorem looseEq_trans_str {s : String} (hc : c.Finite) (hanone : asNumber a = none)
    (hcnone : asNumber c = none) (hab : looseEq (.str s) a = true)
    (hbc : looseEq (.str s) c = true) : looseEq a c = true := by
  obtain ⟨hanull, hatext⟩ := (looseEq_str_iff hanone).mp hab
  obtain ⟨hcnull, hctext⟩ := (looseEq_str_iff hcnone).mp hbc
  have htext : stringify a = stringify c := hatext.symm.trans hctext
  rw [looseEq_of_none (.inl hanone)]
  split
  · simp [hanull, hcnull, htext]
  · rename_i hstr
    rw [Bool.or_eq_true, not_or, Bool.not_eq_true, Bool.not_eq_true] at hstr
    rw [eq_of_stringify hanone hcnone hstr.1 hstr.2 hanull hcnull htext, Value.same_iff _ _ hc]

theorem looseEq_values_iff (ha : a.Finite) (hnone : asNumber a = none) (hastr : a.isStr = false)
    (hbstr : b.isStr = false) : looseEq a b = true ↔ a.plusZeros = b.plusZeros := by
  rw [looseEq_of_none (.inl hnone), hastr, hbstr]
  exact Value.same_iff a b ha

theorem exists_str (h : v.isStr = true) : ∃ s, v = .str s := by
  cases v with
  | str s => exact ⟨s, rfl⟩
  | _ => cases h

/-- Of three values that have no number, the first equals the third if they both equal the second,
but for the sign of a zero. -/
theorem looseEq_trans_none (ha : a.Finite) (hb : b.Finite) (hc : c.Finite)
    (hanone : asNumber a = none) (hbnone : asNumber b = none) (hcnone : asNumber c = none)
    (hab : looseEq a b = true) (hbc : looseEq b c = true) :
    looseEq a c = true ∨ ZeroSignGap a b c ∨ ZeroSignGap c b a := by
  cases hbstr : b.isStr with
  | true =>
    obtain ⟨s, rfl⟩ := exists_str hbstr
    rw [looseEq_symm ha hb] at hab
    exact .inl (looseEq_trans_str hc hanone hcnone hab hbc)
  | false =>
    cases hastr : a.isStr with
    | true =>
      obtain ⟨s, rfl⟩ := exists_str hastr
      cases hcstr : c.isStr with
      | true =>
        obtain ⟨t, rfl⟩ := exists_str hcstr
        rw [looseEq_symm hb hc] at hbc
        obtain ⟨-, rfl⟩ := (looseEq_str_iff hbnone).mp hab
        obtain ⟨-, rfl⟩ := (looseEq_str_iff hbnone).mp hbc
        exact .inl ((looseEq_str_iff hanone).mpr ⟨rfl, rfl⟩)
      | false =>
        have hsame := (looseEq_values_iff hb hbnone hbstr hcstr).mp hbc
        exact (looseEq_str_trans hbnone hcnone hbstr hab hsame).imp_right .inl
    | false =>
      have hstep : ∀ {c : Value}, c.isStr = false → looseEq b c = true → b.plusZeros = c.plusZeros :=
        fun hcstr => (looseEq_values_iff hb hbnone hbstr hcstr).mp
      have hsame := hstep hastr (looseEq_symm hb ha ▸ hab)
      cases hcstr : c.isStr with
      | true =>
        obtain ⟨t, rfl⟩ := exists_str hcstr
        rw [looseEq_symm hb hc] at hbc
        rw [looseEq_symm ha hc]
        exact (looseEq_str_trans hbnone hanone hbstr hbc hsame).imp_right .inr
      | false =>
        have hsame' := hstep hcstr hbc
        exact .inl ((looseEq_values_iff ha hanone hastr hcstr).mpr (hsame.symm.trans hsame'))

theorem looseEq_trans_or (ha : a.Finite) (hb : b.Finite) (hc : c.Finite)
    (hab : looseEq a b = true) (hbc : looseEq b c = true) :
    looseEq a c = true ∨ ZeroSignGap a b c ∨ ZeroSignGap c b a := by
  have hsome := isSome_eq_of_looseEq hab
  have hsome' := isSome_eq_of_looseEq hbc
  cases hy : asNumber b with
  | some y =>
    rw [hy, Option.isSome_some, Option.isSome_iff_exists] at hsome
    rw [hy, Option.isSome_some, eq_comm, Option.isSome_iff_exists] at hsome'
    obtain ⟨x, hx⟩ := hsome
    obtain ⟨z, hz⟩ := hsome'
    rw [looseEq_of_numbers hx hy] at hab
    rw [looseEq_of_numbers hy hz] at hbc
    rw [looseEq_of_numbers hx hz]
    exact .inl (PartialEquivBEq.trans hab hbc)
  | none =>
    rw [hy, Option.isSome_none, Option.isSome_eq_false_iff, Option.isNone_iff_eq_none] at hsome
    rw [hy, Option.isSome_none, eq_comm, Option.isSome_eq_false_iff, Option.isNone_iff_eq_none]
      at hsome'
    exact looseEq_trans_none ha hb hc hsome hy hsome' hab hbc

theorem spellsNaN_of_looseEq (hv : v.Finite) (h : looseEq w v = true) : spellsNaN v = false := by
  rw [← Bool.not_eq_true, ← asNumber_eq_nan hv]
  intro hnan
  have hsome := isSome_eq_of_looseEq h
  rw [hnan, Option.isSome_some, Option.isSome_iff_exists] at hsome
  obtain ⟨x, hx⟩ := hsome
  rw [looseEq_of_numbers hx hnan, Float.beq_nan_eq_false] at h
  cases h

theorem contains_of_mem {items : List Value} (hv : v.Finite) (hmem : v ∈ items) :
    contains (.arr items) v = !spellsNaN v := by
  rw [contains, Bool.eq_iff_iff, List.any_eq_true]
  constructor
  · rintro ⟨member, -, heq⟩
    rw [spellsNaN_of_looseEq hv heq]
    rfl
  · intro hnan
    exact ⟨v, hmem, (looseEq_self hv).trans hnan⟩

/-- Equality is symmetric; a value equals itself unless it is a text of "not a number", and then an
array contains it if it is one of the items; and two values that equal a third equal each other
unless one of them is the text of the third, the third is an array or an object, and the other
differs from it in the sign of a zero. -/
theorem looseEq_laws (ha : a.Finite) (hb : b.Finite) (hc : c.Finite) :
    looseEq a a = !spellsNaN a ∧
    looseEq a b = looseEq b a ∧
    (looseEq a b = true → looseEq b c = true →
      (looseEq a c = true ↔ ¬ ZeroSignGap a b c ∧ ¬ ZeroSignGap c b a)) ∧
    ∀ items, a ∈ items → containsFunction.run [.arr items, a] = .ok (.bool (!spellsNaN a)) := by
  refine ⟨looseEq_self ha, looseEq_symm ha hb, fun hab hbc => ⟨fun hac => ⟨?_, ?_⟩, ?_⟩, ?_⟩
  · intro hgap
    rw [hgap.looseEq] at hac
    cases hac
  · intro hgap
    rw [looseEq_symm ha hc, hgap.looseEq] at hac
    cases hac
  · rintro ⟨hgap, hgap'⟩
    rcases looseEq_trans_or ha hb hc hab hbc with hac | h | h
    · exact hac
    · exact absurd h hgap
    · exact absurd h hgap'
  · intro items hmem
    exact congrArg (fun found => Except.ok (Value.bool found)) (contains_of_mem ha hmem)

/-- A numeral with blanks around it, an integer and a double. -/
theorem looseEq_laws_numerals :
    let a : Value := .str " 5 "
    let b : Value := .ofInt 5
    let c : Value := .num (.float 5.0)
    looseEq a b = true ∧ looseEq b c = true ∧
    looseEq a a = !spellsNaN a ∧ looseEq a b = looseEq b a ∧
    (looseEq a c = true ↔ ¬ ZeroSignGap a b c ∧ ¬ ZeroSignGap c b a) ∧
    containsFunction.run [.arr [c, a], a] = .ok (.bool (!spellsNaN a)) := by
  intro a b c
  have hab : looseEq a b = true := by decide +kernel
  have hbc : looseEq b c = true := by decide +kernel
  obtain ⟨hself, hsymm, htrans, hcontains⟩ :=
    looseEq_laws (a := a) (b := b) (c := c) (.str _) (.int _) (.float (by decide +kernel))
  exact ⟨hab, hbc, hself, hsymm, htrans hab hbc, hcontains _ (by simp)⟩

/-- The text of an array with a negative zero does not equal the array with zero that equals the one
with negative zero, and a text of "not a number" does not equal itself. -/
theorem looseEq_not_equivalence :
    let minus : Value := .arr [.num (.float (-0.0))]
    let plus : Value := .arr [.num (.float 0.0)]
    looseEq (.str "[-0.0]") minus = true ∧ looseEq minus plus = true ∧
    looseEq (.str "[-0.0]") plus = false ∧
    looseEq (.str "nan") (.str "nan") = false ∧
    contains (.arr [.str "nan"]) (.str "nan") = false := by
  decide +kernel

end WorkflowEngine.Expression
