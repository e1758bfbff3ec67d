import WorkflowEngine.Proofs.Json.Tokens

/-!
# Texts of JSON values

The texts of a value whose numbers are integers, with any white space between the tokens (`Spells`).
Each of them is read as the document of its value, and what follows it is left (`Spells.reads`).
What is written for a value, compactly or over several lines, is one of its texts.
-/

namespace WorkflowEngine.Json

/-- All numbers are integers, and 64 bits hold them. -/
inductive Value.Integral : Value → Prop where
  | null : Integral .null
  | bool (b : Bool) : Integral (.bool b)
  | int {i : Int} : inIntegerRange i = true → Integral (.num (.int i))
  | str (s : String) : Integral (.str s)
  | arr {items : List Value} : (∀ v ∈ items, Integral v) → Integral (.arr items)
  | obj {fields : List (String × Value)} : (∀ e ∈ fields, Integral e.2) → Integral (.obj fields)

/-! ## The grammar -/

def Blank (ws : List Char) : Prop := ∀ c ∈ ws, isSpace c = true

/-- What a text is made of: values, and what comes after the opening bracket of an array or an
object that is not empty, with its closing bracket. -/
inductive Phrase where
  | value (v : Value)
  | items (vs : List Value)
  | fields (es : List (String × Value))

inductive Spells : Phrase → List Char → Prop where
  | null : Spells (.value .null) ['n', 'u', 'l', 'l']
  | true : Spells (.value (.bool true)) ['t', 'r', 'u', 'e']
  | false : Spells (.value (.bool false)) ['f', 'a', 'l', 's', 'e']
  | int {i : Int} : inIntegerRange i = true → Spells (.value (.num (.int i))) (toString i).toList
  | str (s : String) : Spells (.value (.str s)) (stringChars s)
  | emptyArr {ws : List Char} : Blank ws → Spells (.value (.arr [])) ('[' :: ws ++ [']'])
  | arr {vs : List Value} {cs : List Char} : Spells (.items vs) cs →
      Spells (.value (.arr vs)) ('[' :: cs)
  | emptyObj {ws : List Char} : Blank ws → Spells (.value (.obj [])) ('\x7b' :: ws ++ ['\x7d'])
  | obj {es : List (String × Value)} {cs : List Char} : Spells (.fields es) cs →
      Spells (.value (.obj es)) ('\x7b' :: cs)
  | lastItem {v : Value} {cs ws : List Char} : Spells (.value v) cs → Blank ws →
      Spells (.items [v]) (cs ++ (ws ++ [']']))
  | item {v : Value} {vs : List Value} {cs ws ds : List Char} : Spells (.value v) cs → Blank ws →
      Spells (.items vs) ds → Spells (.items (v :: vs)) (cs ++ (ws ++ ',' :: ds))
  | lastField (k : String) {v : Value} {us cs ws : List Char} :
      Blank us → Spells (.value v) cs → Blank ws →
      Spells (.fields [(k, v)]) (stringChars k ++ (us ++ ':' :: (cs ++ (ws ++ ['\x7d']))))
  | field (k : String) {v : Value} {es : List (String × Value)} {us cs ws ds : List Char} :
      Blank us → Spells (.value v) cs → Blank ws → Spells (.fields es) ds →
      Spells (.fields ((k, v) :: es)) (stringChars k ++ (us ++ ':' :: (cs ++ (ws ++ ',' :: ds))))
  /-- White space may come before anything. -/
  | spaced {p : Phrase} {c : Char} {cs : List Char} : isSpace c = true → Spells p cs →
      Spells p (c :: cs)

/-! ## White space -/

section Reading

variable {fuel : Nat} {c : Char} {cs ws rest : List Char}

theorem skipSpace_append (hws : Blank ws) (cs : List Char) : skipSpace (ws ++ cs) = skipSpace cs :=
  List.dropWhile_append_of_pos hws

theorem skipSpace_cons (hc : isSpace c = false) : skipSpace (c :: cs) = c :: cs := by
  simp [skipSpace, hc]

theorem skipSpace_cons_of_space (hc : isSpace c = true) : skipSpace (c :: cs) = skipSpace cs :=
  List.dropWhile_cons_of_pos hc

theorem skipSpace_skipSpace (cs : List Char) : skipSpace (skipSpace cs) = skipSpace cs := by
  induction cs with
  | nil => rfl
  | cons c cs ih =>
    cases hc : isSpace c with
    | true => rw [skipSpace_cons_of_space hc, ih]
    | false => rw [skipSpace_cons hc, skipSpace_cons hc]

theorem readDocument_skipSpace (fuel : Nat) (cs : List Char) :
    readDocument fuel (skipSpace cs) = readDocument fuel cs := by
  cases fuel with
  | zero => rfl
  | succ fuel => rw [readDocument, readDocument, skipSpace_skipSpace]

theorem readItems_skipSpace (fuel : Nat) (cs : List Char) :
    readItems fuel (skipSpace cs) = readItems fuel cs := by
  cases fuel with
  | zero => rfl
  | succ fuel => rw [readItems, readItems, readDocument_skipSpace]

theorem readEntries_skipSpace (fuel : Nat) (cs : List Char) :
    readEntries fuel (skipSpace cs) = readEntries fuel cs := by
  cases fuel with
  | zero => rfl
  | succ fuel => rw [readEntries, readEntries, skipSpace_skipSpace]

/-! ## Reading -/

/-- What is neither a bracket, a quote nor the beginning of a word is read as a numeral. -/
theorem readDocument_numeral (hc : c.isDigit = true ∨ c = '-') :
    readDocument (fuel + 1) (c :: cs) =
      (readNumeral (c :: cs)).map fun (numeral, rest) =>
        (.scalar (.number numeral.number?), rest) := by
  have hspace : isSpace c = false := by
    cases hspace : isSpace c with
    | false => rfl
    | true =>
      simp only [isSpace, Bool.or_eq_true, beq_iff_eq] at hspace
      rcases hspace with ((rfl | rfl) | rfl) | rfl <;> simp at hc
  rw [readDocument, skipSpace_cons hspace]
  split <;> rename_i heq <;> first | (cases heq; simp at hc) | rfl

/-- No item begins with the bracket that closes an array. -/
theorem readItems_closed (h : skipSpace cs = ']' :: rest) : readItems fuel cs = none := by
  cases fuel with
  | zero => rfl
  | succ fuel =>
    have hnone : readDocument fuel cs = none := by
      cases fuel with
      | zero => rfl
      | succ fuel =>
        rw [readDocument, h]
        rfl
    rw [readItems, hnone]

theorem readEntries_closed (h : skipSpace cs = '\x7d' :: rest) : readEntries fuel cs = none := by
  cases fuel with
  | zero => rfl
  | succ fuel =>
    rw [readEntries, h]
    rfl

theorem readDocument_bracket (fuel : Nat) (cs : List Char) :
    readDocument (fuel + 1) ('[' :: cs) =
      match skipSpace cs with
      | ']' :: rest => some (.seq [], rest)
      | rest => (readItems fuel rest).map fun (items, rest) => (.seq items, rest) := rfl

theorem readDocument_brace (fuel : Nat) (cs : List Char) :
    readDocument (fuel + 1) ('\x7b' :: cs) =
      match skipSpace cs with
      | '\x7d' :: rest => some (.map [], rest)
      | rest => (readEntries fuel rest).map fun (entries, rest) => (.map entries, rest) := rfl

theorem readDocument_arr {items : List Document} (h : readItems fuel cs = some (items, rest)) :
    readDocument (fuel + 1) ('[' :: cs) = some (.seq items, rest) := by
  rw [readDocument_bracket]
  split
  · rename_i hclosed
    rw [readItems_closed hclosed] at h
    cases h
  · rw [readItems_skipSpace, h]
    rfl

theorem readDocument_obj {entries : List (Option String × Document)}
    (h : readEntries fuel cs = some (entries, rest)) :
    readDocument (fuel + 1) ('\x7b' :: cs) = some (.map entries, rest) := by
  rw [readDocument_brace]
  split
  · rename_i hclosed
    rw [readEntries_closed hclosed] at h
    cases h
  · rw [readEntries_skipSpace, h]
    rfl

/-! What comes after an item or an entry, past white space, decides whether there are more. -/

theorem readItems_last {item : Document} (hws : Blank ws)
    (h : readDocument fuel cs = some (item, ws ++ ']' :: rest)) :
    readItems (fuel + 1) cs = some ([item], rest) := by
  have hclose : skipSpace (ws ++ ']' :: rest) = ']' :: rest := by
    rw [skipSpace_append hws, skipSpace_cons (by decide)]
  simp only [readItems, h, hclose]

theorem readItems_next {item : Document} {items : List Document} {ds : List Char} (hws : Blank ws)
    (h : readDocument fuel cs = some (item, ws ++ ',' :: ds))
    (hlater : readItems fuel ds = some (items, rest)) :
    readItems (fuel + 1) cs = some (item :: items, rest) := by
  have hcomma : skipSpace (ws ++ ',' :: ds) = ',' :: ds := by
    rw [skipSpace_append hws, skipSpace_cons (by decide)]
  simp only [readItems, h, hcomma, hlater, Option.map_some]

/-- What is read once an item has been read after its key. -/
def readAfterItem (fuel : Nat) (k : String) (item : Document) (cs : List Char) :
    Option (List (Option String × Document) × List Char) :=
  match skipSpace cs with
  | '\x7d' :: rest => some ([(some k, item)], rest)
  | ',' :: rest =>
    (readEntries fuel rest).map fun (entries, rest) => ((some k, item) :: entries, rest)
  | _ => none

theorem readEntries_key {ds us : List Char} {item : Document} (k : String) (hus : Blank us)
    (h : readDocument fuel cs = some (item, ds)) :
    readEntries (fuel + 1) (stringChars k ++ (us ++ ':' :: cs)) =
      readAfterItem fuel k item ds := by
  have hkey : stringChars k ++ (us ++ ':' :: cs) =
      '"' :: (k.toList.flatMap escapeChar ++ '"' :: (us ++ ':' :: cs)) := by
    simp [stringChars]
  have hcolon : skipSpace (us ++ ':' :: cs) = ':' :: cs := by
    rw [skipSpace_append hus, skipSpace_cons (by decide)]
  rw [readEntries, hkey, skipSpace_cons (by decide)]
  simp only [readString_stringChars, hcolon, h]
  rfl

theorem readEntries_last {us : List Char} {item : Document} (k : String) (hus : Blank us)
    (hws : Blank ws) (h : readDocument fuel cs = some (item, ws ++ '\x7d' :: rest)) :
    readEntries (fuel + 1) (stringChars k ++ (us ++ ':' :: cs)) =
      some ([(some k, item)], rest) := by
  rw [readEntries_key k hus h, readAfterItem, skipSpace_append hws, skipSpace_cons (by decide)]
  rfl

theorem readEntries_next {us ds : List Char} {item : Document}
    {entries : List (Option String × Document)} (k : String) (hus : Blank us) (hws : Blank ws)
    (h : readDocument fuel cs = some (item, ws ++ ',' :: ds))
    (hlater : readEntries fuel ds = some (entries, rest)) :
    readEntries (fuel + 1) (stringChars k ++ (us ++ ':' :: cs)) =
      some ((some k, item) :: entries, rest) := by
  rw [readEntries_key k hus h, readAfterItem, skipSpace_append hws, skipSpace_cons (by decide)]
  simp only [hlater, Option.map_some]

/-- What the phrase is read as, with enough fuel for the length of its text. -/
def Reads : Phrase → List Char → Prop
  -- Twice the length, since items and fields start at the character at which their first value or
  -- key does, and each of the two readers takes one unit of fuel there.
  | .value v, cs => ∀ fuel rest, 2 * cs.length ≤ fuel → EndsNumeral rest →
      readDocument fuel (cs ++ rest) = some (.ofValue v, rest)
  | .items vs, cs => ∀ fuel rest, 2 * cs.length < fuel →
      readItems fuel (cs ++ rest) = some (Document.ofItems vs, rest)
  | .fields es, cs => ∀ fuel rest, 2 * cs.length < fuel →
      readEntries fuel (cs ++ rest) = some (Document.ofFields es, rest)

/-- White space and the marks between values end a numeral. -/
theorem endsNumeral_append {mark : Char} (hws : Blank ws) (hmark : mark ∈ [',', ']', '\x7d']) :
    EndsNumeral (ws ++ mark :: rest) := by
  cases ws with
  | nil =>
    simp only [List.mem_cons, List.not_mem_nil, or_false] at hmark
    rcases hmark with rfl | rfl | rfl <;> exact endsNumeral_cons (by decide) nofun nofun nofun
  | cons c ws =>
    have hc := hws c List.mem_cons_self
    simp only [isSpace, Bool.or_eq_true, beq_iff_eq] at hc
    rcases hc with ((rfl | rfl) | rfl) | rfl <;>
      exact endsNumeral_cons (by decide) nofun nofun nofun

/-- A text that is read in one step. -/
theorem reads_of_step {v : Value} (hpos : cs ≠ []) (h : ∀ fuel rest, EndsNumeral rest →
    readDocument (fuel + 1) (cs ++ rest) = some (.ofValue v, rest)) : Reads (.value v) cs := by
  intro fuel rest hfuel hrest
  have hlength := List.length_pos_iff.mpr hpos
  obtain ⟨fuel, rfl⟩ : ∃ f, fuel = f + 1 := ⟨fuel - 1, by omega⟩
  exact h fuel rest hrest

theorem reads_int {i : Int} (hrange : inIntegerRange i = true) :
    Reads (.value (.num (.int i))) (toString i).toList := by
  obtain ⟨c, cs, hchars, hc⟩ :
      ∃ c cs, (toString i).toList = c :: cs ∧ (c.isDigit = true ∨ c = '-') := by
    rw [toList_toString]
    cases decide (i < 0) with
    | true => exact ⟨_, _, rfl, .inr rfl⟩
    | false =>
      obtain ⟨c, cs, hdigits, hdigit⟩ := exists_toDigits_eq_cons i.natAbs
      exact ⟨c, cs, hdigits, .inl hdigit⟩
  refine reads_of_step (by rw [hchars]; nofun) fun fuel rest hrest => ?_
  obtain ⟨numeral, hread, hnumber⟩ := readNumeral_toString hrange hrest
  rw [hchars] at hread ⊢
  rw [List.cons_append] at hread ⊢
  rw [readDocument_numeral hc, hread, Option.map_some]
  dsimp only
  rw [hnumber]
  rfl

theorem reads_str (s : String) : Reads (.value (.str s)) (stringChars s) := by
  refine reads_of_step nofun fun fuel rest _ => ?_
  have hquote : stringChars s ++ rest = '"' :: (s.toList.flatMap escapeChar ++ '"' :: rest) := by
    simp [stringChars]
  rw [hquote, readDocument, skipSpace_cons (by decide)]
  simp only [readString_stringChars, Option.map_some]
  rfl

/-- Every text of a value is read as the document of that value. -/
theorem Spells.reads {p : Phrase} (h : Spells p cs) : Reads p cs := by
  induction h with
  | null | true | false => exact reads_of_step nofun fun fuel rest _ => rfl
  | int hrange => exact reads_int hrange
  | str s => exact reads_str s
  | @emptyArr ws hws =>
    refine reads_of_step nofun fun fuel rest _ => ?_
    have hclosed : skipSpace (ws ++ ']' :: rest) = ']' :: rest := by
      rw [skipSpace_append hws, skipSpace_cons (by decide)]
    simp only [List.cons_append, List.append_assoc, List.nil_append]
    rw [readDocument_bracket, hclosed]
    rfl
  | @arr vs cs _ ih =>
    intro fuel rest hfuel hrest
    rw [List.length_cons] at hfuel
    obtain ⟨fuel, rfl⟩ : ∃ f, fuel = f + 1 := ⟨fuel - 1, by omega⟩
    exact readDocument_arr (ih fuel rest (by omega))
  | @emptyObj ws hws =>
    refine reads_of_step nofun fun fuel rest _ => ?_
    have hclosed : skipSpace (ws ++ '\x7d' :: rest) = '\x7d' :: rest := by
      rw [skipSpace_append hws, skipSpace_cons (by decide)]
    simp only [List.cons_append, List.append_assoc, List.nil_append]
    rw [readDocument_brace, hclosed]
    rfl
  | @obj es cs _ ih =>
    intro fuel rest hfuel hrest
    rw [List.length_cons] at hfuel
    obtain ⟨fuel, rfl⟩ : ∃ f, fuel = f + 1 := ⟨fuel - 1, by omega⟩
    exact readDocument_obj (ih fuel rest (by omega))
  | @lastItem v cs ws _ hws ih =>
    intro fuel rest hfuel
    simp only [List.length_append, List.length_cons] at hfuel
    obtain ⟨fuel, rfl⟩ : ∃ f, fuel = f + 1 := ⟨fuel - 1, by omega⟩
    simp only [List.append_assoc, List.cons_append, List.nil_append]
    exact readItems_last hws (ih fuel _ (by omega) (endsNumeral_append hws (by simp)))
  | @item v vs cs ws ds _ hws _ ihv ih =>
    intro fuel rest hfuel
    simp only [List.length_append, List.length_cons] at hfuel
    obtain ⟨fuel, rfl⟩ : ∃ f, fuel = f + 1 := ⟨fuel - 1, by omega⟩
    simp only [List.append_assoc, List.cons_append]
    exact readItems_next hws (ihv fuel _ (by omega) (endsNumeral_append hws (by simp)))
      (ih fuel rest (by omega))
  | @lastField k v us cs ws hus _ hws ih =>
    intro fuel rest hfuel
    simp only [List.length_append, List.length_cons] at hfuel
    obtain ⟨fuel, rfl⟩ : ∃ f, fuel = f + 1 := ⟨fuel - 1, by omega⟩
    simp only [List.append_assoc, List.cons_append, List.nil_append]
    exact readEntries_last k hus hws (ih fuel _ (by omega) (endsNumeral_append hws (by simp)))
  | @field k v es us cs ws ds hus _ hws _ ihv ih =>
    intro fuel rest hfuel
    simp only [List.length_append, List.length_cons] at hfuel
    obtain ⟨fuel, rfl⟩ : ∃ f, fuel = f + 1 := ⟨fuel - 1, by omega⟩
    simp only [List.append_assoc, List.cons_append]
    exact readEntries_next k hus hws (ihv fuel _ (by omega) (endsNumeral_append hws (by simp)))
      (ih fuel rest (by omega))
  | @spaced p c cs hc _ ih =>
    have hskip (rest : List Char) : skipSpace (c :: cs ++ rest) = skipSpace (cs ++ rest) :=
      skipSpace_cons_of_space hc
    cases p with
    | value v =>
      intro fuel rest hfuel hrest
      rw [← readDocument_skipSpace, hskip, readDocument_skipSpace]
      exact ih fuel rest (by rw [List.length_cons] at hfuel; omega) hrest
    | items vs =>
      intro fuel rest hfuel
      rw [← readItems_skipSpace, hskip, readItems_skipSpace]
      exact ih fuel rest (by rw [List.length_cons] at hfuel; omega)
    | fields es =>
      intro fuel rest hfuel
      rw [← readEntries_skipSpace, hskip, readEntries_skipSpace]
      exact ih fuel rest (by rw [List.length_cons] at hfuel; omega)

/-- A text that spells a value is read to its end. -/
theorem Spells.readText {v : Value} {text : String} (h : Spells (.value v) text.toList) :
    readText text = some (.ofValue v) := by
  have hread := h.reads (2 * text.toList.length + 2) [] (Nat.le_add_right ..) endsNumeral_nil
  rw [List.append_nil] at hread
  rw [Json.readText, hread]
  rfl

end Reading

/-! ## Writing -/

section Writing

variable {v : Value} {vs : List Value} {es : List (String × Value)}

theorem blank_nil : Blank [] := nofun

theorem blank_newline (depth : Nat) : Blank (newline depth) := by
  intro c hc
  rcases List.mem_cons.mp hc with rfl | hc
  · rfl
  · rw [List.eq_of_mem_replicate hc]
    rfl

theorem Spells.append_blank {p : Phrase} {ws cs : List Char} (hws : Blank ws) (h : Spells p cs) :
    Spells p (ws ++ cs) := by
  induction ws with
  | nil => exact h
  | cons c ws ih =>
    exact .spaced (hws c List.mem_cons_self) (ih fun d hd => hws d (List.mem_cons_of_mem _ hd))

theorem spells_prettyItems (depth outer : Nat) (hne : vs ≠ [])
    (h : ∀ v ∈ vs, ∀ depth, Spells (.value v) (v.prettyChars depth)) :
    Spells (.items vs) (Value.prettyItems depth vs ++ (newline outer ++ [']'])) := by
  induction vs with
  | nil => exact absurd rfl hne
  | cons v vs ih =>
    have hv := (h v List.mem_cons_self depth).append_blank (blank_newline depth)
    cases vs with
    | nil => exact .lastItem hv (blank_newline outer)
    | cons w vs =>
      have hlater := ih nofun fun v hv => h v (List.mem_cons_of_mem _ hv)
      simpa [Value.prettyItems] using Spells.item hv blank_nil hlater

theorem spells_prettyFields (depth outer : Nat) (hne : es ≠ [])
    (h : ∀ e ∈ es, ∀ depth, Spells (.value e.2) (e.2.prettyChars depth)) :
    Spells (.fields es) (Value.prettyFields depth es ++ (newline outer ++ ['\x7d'])) := by
  induction es with
  | nil => exact absurd rfl hne
  | cons e es ih =>
    obtain ⟨k, v⟩ := e
    have hv : Spells (.value v) (' ' :: v.prettyChars depth) :=
      .spaced (by decide) (h (k, v) List.mem_cons_self depth)
    cases es with
    | nil =>
      have hlast := Spells.lastField k blank_nil hv (blank_newline outer)
      simpa [Value.prettyFields] using hlast.append_blank (blank_newline depth)
    | cons e es =>
      have hlater := ih nofun fun e he => h e (List.mem_cons_of_mem _ he)
      have hfield := Spells.field k blank_nil hv blank_nil hlater
      simpa [Value.prettyFields] using hfield.append_blank (blank_newline depth)

theorem spells_prettyChars (hv : v.Integral) (depth : Nat) :
    Spells (.value v) (v.prettyChars depth) := by
  induction hv generalizing depth with
  | null => exact .null
  | bool b =>
    cases b with
    | true => exact .true
    | false => exact .false
  | int hrange => exact .int hrange
  | str s => exact .str s
  | @arr items _ ih =>
    cases items with
    | nil => exact .emptyArr blank_nil
    | cons v vs =>
      have hitems : Spells (.items (v :: vs)) _ := spells_prettyItems (depth + 1) depth nofun ih
      simpa [Value.prettyChars] using Spells.arr hitems
  | @obj fields _ ih =>
    cases fields with
    | nil => exact .emptyObj blank_nil
    | cons e es =>
      have hfields : Spells (.fields (e :: es)) _ := spells_prettyFields (depth + 1) depth nofun ih
      simpa [Value.prettyChars] using Spells.obj hfields

theorem spells_itemsChars (hne : vs ≠ []) (h : ∀ v ∈ vs, Spells (.value v) v.chars) :
    Spells (.items vs) (Value.itemsChars vs ++ [']']) := by
  induction vs with
  | nil => exact absurd rfl hne
  | cons v vs ih =>
    have hv := h v List.mem_cons_self
    cases vs with
    | nil => exact .lastItem hv blank_nil
    | cons w vs =>
      have hlater := ih nofun fun v hv => h v (List.mem_cons_of_mem _ hv)
      simpa [Value.itemsChars] using Spells.item hv blank_nil hlater

theorem spells_fieldsChars (hne : es ≠ []) (h : ∀ e ∈ es, Spells (.value e.2) e.2.chars) :
    Spells (.fields es) (Value.fieldsChars es ++ ['\x7d']) := by
  induction es with
  | nil => exact absurd rfl hne
  | cons e es ih =>
    obtain ⟨k, v⟩ := e
    have hv : Spells (.value v) v.chars := h (k, v) List.mem_cons_self
    cases es with
    | nil => simpa [Value.fieldsChars] using Spells.lastField k blank_nil hv blank_nil
    | cons e es =>
      have hlater := ih nofun fun e he => h e (List.mem_cons_of_mem _ he)
      simpa [Value.fieldsChars] using Spells.field k blank_nil hv blank_nil hlater

theorem spells_chars (hv : v.Integral) : Spells (.value v) v.chars := by
  induction hv with
  | null => exact .null
  | bool b =>
    cases b with
    | true => exact .true
    | false => exact .false
  | int hrange => exact .int hrange
  | str s => exact .str s
  | @arr items _ ih =>
    cases items with
    | nil => exact .emptyArr blank_nil
    | cons v vs =>
      have hitems : Spells (.items (v :: vs)) _ := spells_itemsChars nofun ih
      simpa [Value.chars] using Spells.arr hitems
  | @obj fields _ ih =>
    cases fields with
    | nil => exact .emptyObj blank_nil
    | cons e es =>
      have hfields : Spells (.fields (e :: es)) _ := spells_fieldsChars nofun ih
      simpa [Value.chars] using Spells.obj hfields

/-- A value that was written compactly is read again. -/
theorem readText_text (hv : v.Integral) : readText v.text = some (.ofValue v) := by
  refine Spells.readText ?_
  rw [Value.text, String.toList_ofList]
  exact spells_chars hv

/-- A value that was written over several lines is read again. -/
theorem readText_pretty (hv : v.Integral) : readText v.pretty = some (.ofValue v) := by
  refine Spells.readText ?_
  rw [Value.pretty, String.toList_ofList]
  exact spells_prettyChars hv 0

end Writing

end WorkflowEngine.Json
