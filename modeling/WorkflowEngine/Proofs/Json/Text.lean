import WorkflowEngine.Proofs.Decimal.Layout
import WorkflowEngine.Proofs.Json.Tokens

/-!
# No two values have the same text

The compact text of a value says where it ends: a number goes on as long as characters of numbers
come, a string ends with its quote, and an array or an object with its bracket. So a text that
begins with the text of a value begins with that of no other value (`Value.chars_append`).
-/

namespace WorkflowEngine.Json

open Decimal (AllDigits ofNumber)

variable {cs rest rest' : List Char}

/-! ## Numbers -/

/-- The text is not that of a number that goes on. -/
def EndsNumber (rest : List Char) : Prop := ∀ c more, rest = c :: more → ofNumber c = false

theorem endsNumber_nil : EndsNumber [] := nofun

theorem endsNumber_cons {c : Char} (h : ofNumber c = false) : EndsNumber (c :: rest) := by
  rintro c' more hcons
  obtain ⟨rfl, -⟩ := List.cons.inj hcons
  exact h

/-- A number is written as a sign and a magnitude that begins with a digit and can be read. -/
theorem Number.exists_text (n : Number) : ∃ negative c cs,
    n.text.toList = signChars negative ++ c :: cs ∧ c.isDigit = true ∧
      (∀ c' ∈ c :: cs, ofNumber c' = true) ∧ Decimal.readMagnitude (c :: cs) ≠ none ∧
      (AllDigits (c :: cs) ↔ ∃ i, n = .int i) := by
  cases n with
  | int i =>
    obtain ⟨c, cs, hcons, hdigit⟩ := exists_toDigits_eq_cons i.natAbs
    have hall : AllDigits (c :: cs) := by
      rw [← hcons]
      exact Decimal.allDigits_digitChars _
    refine ⟨decide (i < 0), c, cs, ?_, hdigit, hall.ofNumber,
      Decimal.readMagnitude_digits hall (List.cons_ne_nil _ _), iff_of_true hall ⟨i, rfl⟩⟩
    rw [← hcons]
    exact toList_toString i
  | float x =>
    have hwritten := Decimal.magnitude_written (Decimal.Binary.ofFloat x)
    obtain ⟨c, cs, hcons, hdigit⟩ := hwritten.head
    have htext : (Number.text (.float x)).toList =
        signChars (Decimal.isNegative x) ++ c :: cs := by
      rw [Number.text, Decimal.floatText, String.toList_ofList, Decimal.floatChars_eq, hcons,
        signChars]
      split <;> rfl
    have hall := hwritten.ofNumber
    have hread := Decimal.readMagnitude_magnitude (Decimal.Binary.ofFloat x)
    have hpoint := hwritten.not_allDigits
    rw [hcons] at hall hread hpoint
    refine ⟨_, c, cs, htext, hdigit, hall, hread, iff_of_false hpoint ?_⟩
    rintro ⟨i, hi⟩
    cases hi

theorem signChars_append_inj {negative negative' : Bool} {c c' : Char} {cs cs' : List Char}
    (hc : c.isDigit = true) (hc' : c'.isDigit = true)
    (h : signChars negative ++ c :: cs = signChars negative' ++ c' :: cs') :
    negative = negative' ∧ c :: cs = c' :: cs' := by
  have hdash : ∀ c : Char, c.isDigit = true → c ≠ '-' := by
    rintro c hdigit rfl
    exact absurd hdigit (by decide)
  cases negative <;> cases negative' <;> simp only [signChars, Bool.false_eq_true, if_true, if_false,
    List.nil_append, List.singleton_append] at h
  · exact ⟨rfl, h⟩
  · exact absurd (List.cons.inj h).1 (hdash c hc)
  · exact absurd (List.cons.inj h).1.symm (hdash c' hc')
  · exact ⟨rfl, (List.cons.inj h).2⟩

theorem Number.text_injective {m n : Number} (h : m.text = n.text) : m = n := by
  obtain ⟨negative, c, cs, htext, hdigit, -, -, hint⟩ := m.exists_text
  obtain ⟨negative', c', cs', htext', hdigit', -, -, hint'⟩ := n.exists_text
  have hparts := signChars_append_inj hdigit hdigit' (htext ▸ htext' ▸ congrArg String.toList h)
  rw [hparts.2, hint'] at hint
  cases m with
  | int i =>
    obtain ⟨j, rfl⟩ := hint.mpr ⟨i, rfl⟩
    exact congrArg Number.int (Int.repr_injective h)
  | float x =>
    cases n with
    | int j =>
      obtain ⟨i, hi⟩ := hint.mp ⟨j, rfl⟩
      cases hi
    | float y => rw [Decimal.floatText_injective h]

theorem Number.text_ofNumber (n : Number) : ∀ c ∈ n.text.toList, ofNumber c = true := by
  obtain ⟨negative, c, cs, htext, -, hall, -⟩ := n.exists_text
  rw [htext]
  refine List.forall_mem_append.mpr ⟨?_, hall⟩
  cases negative <;> simp [signChars, ofNumber]

theorem Number.text_append {m n : Number} (hrest : EndsNumber rest) (hrest' : EndsNumber rest')
    (h : m.text.toList ++ rest = n.text.toList ++ rest') : m = n ∧ rest = rest' := by
  have hstop : ∀ (n : Number) {rest : List Char}, EndsNumber rest →
      (n.text.toList ++ rest).takeWhile ofNumber = n.text.toList ∧
        (n.text.toList ++ rest).dropWhile ofNumber = rest := by
    intro n rest hrest
    rw [List.takeWhile_append_of_pos n.text_ofNumber, List.dropWhile_append_of_pos n.text_ofNumber]
    cases rest with
    | nil => simp
    | cons c more => simp [hrest c more rfl]
  obtain ⟨htake, hdrop⟩ := hstop m hrest
  obtain ⟨htake', hdrop'⟩ := hstop n hrest'
  rw [h] at htake hdrop
  refine ⟨Number.text_injective (String.toList_injective ?_), hdrop.symm.trans hdrop'⟩
  exact htake.symm.trans htake'

/-! ## Values -/

theorem stringChars_append {s t : String}
    (h : stringChars s ++ rest = stringChars t ++ rest') : s = t ∧ rest = rest' := by
  have hread := readString_stringChars s rest
  have hread' := readString_stringChars t rest'
  simp only [stringChars, List.cons_append, List.append_assoc, List.nil_append,
    List.cons.injEq, true_and] at h
  rw [h, hread'] at hread
  simp only [Option.some.injEq, Prod.mk.injEq] at hread
  exact ⟨hread.1.symm, hread.2.symm⟩

/-- What the text of a value begins with, but for numbers. -/
def Value.mark : Value → Char
  | .null => 'n'
  | .bool true => 't'
  | .bool false => 'f'
  | .num _ => '-'
  | .str _ => '"'
  | .arr _ => '['
  | .obj _ => '\x7b'

theorem Value.exists_chars (v : Value) : ∃ c cs, v.chars = c :: cs ∧
    (c = v.mark ∨ c.isDigit = true ∧ v.mark = '-') := by
  cases v with
  | null => exact ⟨_, _, rfl, .inl rfl⟩
  | bool b => cases b <;> exact ⟨_, _, rfl, .inl rfl⟩
  | num n =>
    obtain ⟨negative, c, cs, htext, hdigit, -⟩ := n.exists_text
    rw [Value.chars, htext]
    cases negative with
    | true => exact ⟨_, _, rfl, .inl rfl⟩
    | false => exact ⟨_, _, rfl, .inr ⟨hdigit, rfl⟩⟩
  | str s => exact ⟨_, _, rfl, .inl rfl⟩
  | arr items => exact ⟨_, _, rfl, .inl rfl⟩
  | obj fields => exact ⟨_, _, rfl, .inl rfl⟩

theorem Value.mark_not_digit (v : Value) : v.mark.isDigit = false := by
  unfold Value.mark
  split <;> decide

theorem Value.mark_eq {v w : Value} (h : v.chars ++ rest = w.chars ++ rest') :
    v.mark = w.mark := by
  obtain ⟨c, cs, hcs, hc⟩ := v.exists_chars
  obtain ⟨c', cs', hcs', hc'⟩ := w.exists_chars
  rw [hcs, hcs'] at h
  obtain ⟨rfl, -⟩ := List.cons.inj h
  rcases hc with rfl | ⟨hdigit, hmark⟩ <;> rcases hc' with hc' | ⟨hdigit', hmark'⟩
  · exact hc'
  · rw [v.mark_not_digit] at hdigit'
    cases hdigit'
  · rw [hc', w.mark_not_digit] at hdigit
    cases hdigit
  · rw [hmark, hmark']

/-- Two values whose texts begin alike: of one kind, and the same if they are words. -/
inductive Value.LikeMarked : Value → Value → Prop where
  | null : LikeMarked .null .null
  | bool (b : Bool) : LikeMarked (.bool b) (.bool b)
  | num (m n : Number) : LikeMarked (.num m) (.num n)
  | str (s t : String) : LikeMarked (.str s) (.str t)
  | arr (vs ws : List Value) : LikeMarked (.arr vs) (.arr ws)
  | obj (es fs : List (String × Value)) : LikeMarked (.obj es) (.obj fs)

theorem Value.likeMarked {v w : Value} (h : v.mark = w.mark) : v.LikeMarked w := by
  rcases v with _ | (_ | _) | _ | _ | _ | _ <;> rcases w with _ | (_ | _) | _ | _ | _ | _ <;>
    first
    | constructor
    | exact absurd h (by simp [mark])

/-- What comes after an item: the bracket, or a comma and the other items. -/
def afterItem (vs : List Value) (rest : List Char) : List Char :=
  match vs with
  | [] => ']' :: rest
  | v :: vs => ',' :: (Value.itemsChars (v :: vs) ++ ']' :: rest)

theorem itemsChars_cons (v : Value) (vs : List Value) (rest : List Char) :
    Value.itemsChars (v :: vs) ++ ']' :: rest = v.chars ++ afterItem vs rest := by
  cases vs <;> simp [Value.itemsChars, afterItem]

theorem afterItem_ends (vs : List Value) (rest : List Char) : EndsNumber (afterItem vs rest) := by
  cases vs <;> exact endsNumber_cons (by decide)

/-- What comes after a field: the brace, or a comma and the other fields. -/
def afterField (es : List (String × Value)) (rest : List Char) : List Char :=
  match es with
  | [] => '\x7d' :: rest
  | e :: es => ',' :: (Value.fieldsChars (e :: es) ++ '\x7d' :: rest)

theorem fieldsChars_cons (k : String) (v : Value) (es : List (String × Value))
    (rest : List Char) : Value.fieldsChars ((k, v) :: es) ++ '\x7d' :: rest =
      stringChars k ++ ':' :: (v.chars ++ afterField es rest) := by
  cases es <;> simp [Value.fieldsChars, afterField]

theorem afterField_ends (es : List (String × Value)) (rest : List Char) :
    EndsNumber (afterField es rest) := by
  cases es <;> exact endsNumber_cons (by decide)

theorem itemsChars_ne_bracket (v : Value) (vs : List Value) (rest rest' : List Char) :
    Value.itemsChars (v :: vs) ++ ']' :: rest ≠ ']' :: rest' := by
  rw [itemsChars_cons]
  obtain ⟨c, cs, hcs, hc⟩ := v.exists_chars
  rw [hcs]
  intro h
  obtain ⟨rfl, -⟩ := List.cons.inj h
  rcases hc with hc | ⟨hdigit, -⟩
  · unfold Value.mark at hc
    split at hc <;> exact absurd hc (by decide)
  · exact absurd hdigit (by decide)

theorem fieldsChars_ne_brace (e : String × Value) (es : List (String × Value))
    (rest rest' : List Char) :
    Value.fieldsChars (e :: es) ++ '\x7d' :: rest ≠ '\x7d' :: rest' := by
  obtain ⟨k, v⟩ := e
  rw [fieldsChars_cons, stringChars]
  intro h
  exact absurd (List.cons.inj h).1 (by decide)

mutual

/-- A text does not begin with the texts of two values. -/
theorem Value.chars_append (v w : Value) {rest rest' : List Char} (hrest : EndsNumber rest)
    (hrest' : EndsNumber rest') (h : v.chars ++ rest = w.chars ++ rest') :
    v = w ∧ rest = rest' := by
  match v, w, Value.likeMarked (Value.mark_eq h) with
  | .null, .null, .null => exact ⟨rfl, List.append_cancel_left h⟩
  | .bool _, .bool _, .bool _ => exact ⟨rfl, List.append_cancel_left h⟩
  | .num m, .num n, .num _ _ =>
    obtain ⟨rfl, hrest⟩ := Number.text_append hrest hrest' h
    exact ⟨rfl, hrest⟩
  | .str s, .str t, .str _ _ =>
    obtain ⟨rfl, hrest⟩ := stringChars_append h
    exact ⟨rfl, hrest⟩
  | .arr vs, .arr ws, .arr _ _ =>
    simp only [Value.chars, List.cons_append, List.append_assoc, List.nil_append, List.cons.injEq,
      true_and] at h
    obtain ⟨rfl, hrest⟩ := itemsChars_append vs ws h
    exact ⟨rfl, hrest⟩
  | .obj es, .obj fs, .obj _ _ =>
    simp only [Value.chars, List.cons_append, List.append_assoc, List.nil_append, List.cons.injEq,
      true_and] at h
    obtain ⟨rfl, hrest⟩ := fieldsChars_append es fs h
    exact ⟨rfl, hrest⟩

theorem itemsChars_append (vs ws : List Value) {rest rest' : List Char}
    (h : Value.itemsChars vs ++ ']' :: rest = Value.itemsChars ws ++ ']' :: rest') :
    vs = ws ∧ rest = rest' := by
  match vs, ws with
  | [], [] => exact ⟨rfl, (List.cons.inj h).2⟩
  | [], w :: ws => exact absurd h.symm (itemsChars_ne_bracket w ws _ _)
  | v :: vs, [] => exact absurd h (itemsChars_ne_bracket v vs _ _)
  | v :: vs, w :: ws =>
    rw [itemsChars_cons, itemsChars_cons] at h
    obtain ⟨rfl, hafter⟩ := Value.chars_append v w (afterItem_ends _ _) (afterItem_ends _ _) h
    match vs, ws with
    | [], [] => exact ⟨rfl, (List.cons.inj hafter).2⟩
    | [], _ :: _ => exact absurd (List.cons.inj hafter).1 (by decide)
    | _ :: _, [] => exact absurd (List.cons.inj hafter).1 (by decide)
    | v' :: vs, w' :: ws =>
      obtain ⟨hsame, hrest⟩ := itemsChars_append (v' :: vs) (w' :: ws) (List.cons.inj hafter).2
      exact ⟨congrArg _ hsame, hrest⟩

theorem fieldsChars_append (es fs : List (String × Value)) {rest rest' : List Char}
    (h : Value.fieldsChars es ++ '\x7d' :: rest = Value.fieldsChars fs ++ '\x7d' :: rest') :
    es = fs ∧ rest = rest' := by
  match es, fs with
  | [], [] => exact ⟨rfl, (List.cons.inj h).2⟩
  | [], f :: fs => exact absurd h.symm (fieldsChars_ne_brace f fs _ _)
  | e :: es, [] => exact absurd h (fieldsChars_ne_brace e es _ _)
  | (k, v) :: es, (l, w) :: fs =>
    rw [fieldsChars_cons, fieldsChars_cons] at h
    obtain ⟨rfl, hvalue⟩ := stringChars_append h
    obtain ⟨rfl, hafter⟩ := Value.chars_append v w (afterField_ends _ _) (afterField_ends _ _)
      (List.cons.inj hvalue).2
    match es, fs with
    | [], [] => exact ⟨rfl, (List.cons.inj hafter).2⟩
    | [], _ :: _ => exact absurd (List.cons.inj hafter).1 (by decide)
    | _ :: _, [] => exact absurd (List.cons.inj hafter).1 (by decide)
    | e :: es, f :: fs =>
      obtain ⟨hsame, hrest⟩ := fieldsChars_append (e :: es) (f :: fs) (List.cons.inj hafter).2
      exact ⟨congrArg _ hsame, hrest⟩

end

theorem Value.text_injective {v w : Value} (h : v.text = w.text) : v = w := by
  have hchars : v.chars ++ [] = w.chars ++ [] := by
    rw [List.append_nil, List.append_nil]
    exact String.ofList_injective h
  exact (Value.chars_append v w endsNumber_nil endsNumber_nil hchars).1

end WorkflowEngine.Json
