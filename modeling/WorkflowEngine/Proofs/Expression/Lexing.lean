import WorkflowEngine.Proofs.Expression.Lexemes
import WorkflowEngine.Proofs.Expression.Literal
import WorkflowEngine.Proofs.Text.Case

/-!
# How a text is cut

`Lexes` says which tokens a text is cut into, blank by blank and token by token. A closing
parenthesis and a blank end whatever stands before them (`Stops`), so a text in front of one is cut
as it is on its own (`Lexes.append`), and what stands before the last token can be cut by itself
when that token is a closing parenthesis (`Lexes.before_paren`). A text whose tokens have balanced
brackets is closed by a bracket after it (`Lexes.closes`).
-/

namespace WorkflowEngine.Expression

variable {c quote : Char} {cs used rest tail text : List Char} {t : Token} {ts us : List Token}

/-- The text is cut into these tokens. -/
inductive Lexes : List Char → List Token → Prop where
  | nil : Lexes [] []
  | blank {c : Char} {cs : List Char} {ts : List Token} : Text.isBlank c = true → Lexes cs ts →
      Lexes (c :: cs) ts
  | token {c : Char} {cs rest : List Char} {t : Token} {ts : List Token} :
      Text.isBlank c = false → readToken c cs = .ok (t, rest) → Lexes rest ts →
      Lexes (c :: cs) (t :: ts)

/-! ## Reading is cutting -/

/-- The first character tells what kind of token is read. -/
theorem readToken_eq_ok : readToken c cs = .ok (t, rest) ↔
    if c.isDigit then readNumber (c :: cs) = (t, rest)
    else if startsName c then
      t = .ident (String.ofList (c :: cs.takeWhile continuesName)) ∧
        rest = cs.dropWhile continuesName
    else if c = '\'' ∨ c = '"' then
      ∃ text, t = .string (String.ofList text) ∧ readString c cs = some (text, rest)
    else readSign (c :: cs) = some (t, rest) := by
  unfold readToken
  split
  · simp
  · split
    · simp [eq_comm]
    · split
      · cases readString c cs with
        | none => simp
        | some found => simp [Prod.ext_iff, eq_comm]
      · cases readSign (c :: cs) <;> simp

/-- How a sign is written. -/
def Token.sign : Token → List Char
  | .spanOpen => ['$', '[']
  | .parenOpen => ['(']
  | .parenClose => [')']
  | .bracketOpen => ['[']
  | .bracketClose => [']']
  | .comma => [',']
  | .dot => ['.']
  | .question => ['?']
  | .colon => [':']
  | .plus => ['+']
  | .minus => ['-']
  | .star => ['*']
  | .slash => ['/']
  | .greater => ['>']
  | .greaterEq => ['>', '=']
  | .less => ['<']
  | .lessEq => ['<', '=']
  | .equal => ['=', '=']
  | .notEqual => ['!', '=']
  | .andAnd => ['&', '&']
  | .orOr => ['|', '|']
  | .bang => ['!']
  | _ => []

/-- The longer sign is read where one sign begins another: after the shorter one stands no equals
sign. -/
theorem readSign_eq_some : readSign cs = some (t, rest) ↔ t.sign ≠ [] ∧ cs = t.sign ++ rest ∧
    (t = .greater ∨ t = .less ∨ t = .bang → ∀ more, rest ≠ '=' :: more) := by
  constructor
  · intro h
    unfold readSign at h
    split at h <;> cases h
    all_goals refine ⟨List.cons_ne_nil _ _, rfl, fun hbegins => ?_⟩
    all_goals simp only [reduceCtorEq, or_false] at hbegins
    all_goals assumption
  · rintro ⟨hsign, rfl, hshorter⟩
    cases t with
    | greater =>
      rw [Token.sign, List.singleton_append, readSign]
      exact hshorter (.inl rfl)
    | less =>
      rw [Token.sign, List.singleton_append, readSign]
      exact hshorter (.inr (.inl rfl))
    | bang =>
      rw [Token.sign, List.singleton_append, readSign]
      exact hshorter (.inr (.inr rfl))
    | integer n => exact absurd rfl hsign
    | decimal x => exact absurd rfl hsign
    | string text => exact absurd rfl hsign
    | ident name => exact absurd rfl hsign
    | _ => rfl

theorem length_readNumber (h : c.isDigit = true) (cs : List Char) :
    (readNumber (c :: cs)).2.length ≤ cs.length := by
  have hdrop : (cs.dropWhile Char.isDigit).length ≤ cs.length :=
    (List.dropWhile_suffix Char.isDigit).length_le
  unfold readNumber
  rw [List.dropWhile_cons_of_pos h]
  dsimp only
  split
  · rename_i d more hrest
    split
    · have hmore : ((d :: more).dropWhile Char.isDigit).length ≤ (d :: more).length :=
        (List.dropWhile_suffix Char.isDigit).length_le
      rw [hrest, List.length_cons] at hdrop
      exact Nat.le_trans hmore (Nat.le_of_succ_le hdrop)
    · exact hdrop
  · exact hdrop

theorem length_readString (hquote : quote ≠ '\\') (h : readString quote cs = some (text, rest)) :
    rest.length ≤ cs.length := by
  obtain ⟨used, rfl, -⟩ := readString_eq_some hquote h
  rw [List.length_append]
  omega

theorem length_readSign (h : readSign (c :: cs) = some (t, rest)) : rest.length ≤ cs.length := by
  obtain ⟨hsign, hcs, -⟩ := readSign_eq_some.mp h
  have hlength := congrArg List.length hcs
  have hpos := List.length_pos_iff.mpr hsign
  rw [List.length_cons, List.length_append] at hlength
  omega

theorem length_readToken (h : readToken c cs = .ok (t, rest)) : rest.length ≤ cs.length := by
  rw [readToken_eq_ok] at h
  split at h
  · rename_i hdigit
    have hlength := length_readNumber hdigit cs
    rwa [h] at hlength
  · split at h
    · rw [h.2]
      exact (List.dropWhile_suffix continuesName).length_le
    · split at h
      · rename_i hquote
        obtain ⟨text, -, hread⟩ := h
        exact length_readString (ne_backslash_of_quote hquote) hread
      · exact length_readSign h

/-- A token uses up its first character, and maybe more. -/
theorem exists_eq_append_of_readToken (h : readToken c cs = .ok (t, rest)) :
    ∃ used, cs = used ++ rest := by
  obtain ⟨used, hused, -⟩ := readToken_lexeme h
  cases used with
  | nil =>
    have hlength := length_readToken h
    rw [← show c :: cs = rest from hused, List.length_cons] at hlength
    omega
  | cons d used =>
    cases hused
    exact ⟨used, rfl⟩

theorem lexes_of_tokenizeFrom {fuel : Nat} (h : tokenizeFrom fuel cs = .ok ts) : Lexes cs ts := by
  induction fuel generalizing cs ts with
  | zero =>
    cases cs with
    | nil =>
      cases h
      exact .nil
    | cons c cs => cases h
  | succ fuel ih =>
    cases cs with
    | nil =>
      cases h
      exact .nil
    | cons c cs =>
      rw [tokenizeFrom] at h
      split at h
      · rename_i hblank
        exact .blank hblank (ih h)
      · rename_i hblank
        split at h
        · cases h
        · rename_i hread
          split at h
          · cases h
          · rename_i hrest
            cases h
            exact .token (Bool.eq_false_iff.mpr hblank) hread (ih hrest)

theorem Lexes.tokenizeFrom_eq {fuel : Nat} (h : Lexes cs ts) (hfuel : cs.length ≤ fuel) :
    tokenizeFrom fuel cs = .ok ts := by
  induction h generalizing fuel with
  | nil => cases fuel <;> rfl
  | blank hblank _ ih =>
    obtain ⟨fuel, rfl⟩ := Nat.exists_eq_add_of_le' hfuel
    rw [List.length_cons, ← Nat.add_assoc, tokenizeFrom, if_pos hblank]
    exact ih (by omega)
  | token hblank hread _ ih =>
    obtain ⟨fuel, rfl⟩ := Nat.exists_eq_add_of_le' hfuel
    have hlength := length_readToken hread
    rw [List.length_cons, ← Nat.add_assoc, tokenizeFrom, if_neg (Bool.eq_false_iff.mp hblank),
      hread]
    dsimp only
    rw [ih (by omega)]

theorem tokenize_eq_ok : tokenize cs = .ok ts ↔ Lexes cs ts :=
  ⟨lexes_of_tokenizeFrom, fun h => h.tokenizeFrom_eq (Nat.le_refl _)⟩

/-! ## What ends a token -/

/-- Nothing that stands before this text goes on in it. -/
def Stops (tail : List Char) : Prop := ∀ c ∈ tail.head?, c = ')' ∨ Text.isBlank c = true

theorem stops_blanks (h : ∀ c ∈ tail, Text.isBlank c = true) : Stops tail :=
  fun c hc => .inr (h c (List.mem_of_mem_head? hc))

theorem stops_paren (cs : List Char) : Stops (')' :: cs) := by
  intro c hc
  cases hc
  exact .inl rfl

theorem not_continues_of_blank (h : Text.isBlank c = true) :
    continuesName c = false ∧ c.isDigit = false :=
  Text.of_isBlank (P := fun c => continuesName c = false ∧ c.isDigit = false) h (by decide +kernel)

theorem Stops.not_continues (h : Stops tail) :
    ∀ c ∈ tail.head?, continuesName c = false ∧ c.isDigit = false := by
  intro c hc
  rcases h c hc with rfl | hblank
  · decide +kernel
  · exact not_continues_of_blank hblank

theorem Stops.ne_cons (h : Stops tail) (hc : c ≠ ')' ∧ Text.isBlank c = false) :
    tail ≠ c :: rest := by
  rintro rfl
  rcases h c rfl with hparen | hblank
  · exact hc.1 hparen
  · rw [hc.2] at hblank
    cases hblank

theorem takeWhile_append_of_stop {p : Char → Bool} (h : ∀ c ∈ tail.head?, p c = false) :
    (cs ++ tail).takeWhile p = cs.takeWhile p := by
  induction cs with
  | nil =>
    cases tail with
    | nil => rfl
    | cons c tail => simp [h c rfl]
  | cons c cs ih => rw [List.cons_append, List.takeWhile_cons, List.takeWhile_cons, ih]

theorem dropWhile_append_of_stop {p : Char → Bool} (h : ∀ c ∈ tail.head?, p c = false) :
    (cs ++ tail).dropWhile p = cs.dropWhile p ++ tail := by
  induction cs with
  | nil =>
    cases tail with
    | nil => rfl
    | cons c tail => simp [h c rfl]
  | cons c cs ih =>
    rw [List.cons_append, List.dropWhile_cons, List.dropWhile_cons, ih]
    split <;> rfl

theorem readNumber_append (h : Stops tail) (cs : List Char) :
    readNumber (cs ++ tail) = ((readNumber cs).1, (readNumber cs).2 ++ tail) := by
  have hdigit : ∀ c ∈ tail.head?, c.isDigit = false := fun c hc => (h.not_continues c hc).2
  unfold readNumber
  rw [takeWhile_append_of_stop hdigit, dropWhile_append_of_stop hdigit]
  dsimp only
  generalize cs.takeWhile Char.isDigit = whole
  generalize cs.dropWhile Char.isDigit = more
  cases more with
  | nil =>
    rw [List.nil_append]
    split
    · exact absurd rfl (h.ne_cons (by decide))
    · rfl
  | cons c more =>
    by_cases hc : c = '.'
    · subst hc
      cases more with
      | nil =>
        cases tail with
        | nil => rfl
        | cons d tail =>
          simp only [List.cons_append, List.nil_append, hdigit d rfl]
          rfl
      | cons d more =>
        simp only [List.cons_append]
        rw [← List.cons_append, takeWhile_append_of_stop hdigit, dropWhile_append_of_stop hdigit]
        split <;> rfl
    · rw [List.cons_append]
      split
      · rename_i heq
        exact absurd (List.cons.inj heq).1 hc
      · split
        · rename_i heq
          exact absurd (List.cons.inj heq).1 hc
        · rfl

/-- What is read as a string is a piece of the text, whatever follows it. -/
theorem readString_eq_some_iff (hquote : quote ≠ '\\') :
    readString quote cs = some (text, rest) ↔
      ∃ used, cs = used ++ rest ∧ readString quote used = some (text, []) := by
  constructor
  · intro h
    fun_induction readString quote cs generalizing text with
    | case1 => cases h
    | case2 c cs ih =>
      obtain ⟨⟨text', rest'⟩, hread, heq⟩ := Option.map_eq_some_iff.mp h
      cases heq
      obtain ⟨used, rfl, hused⟩ := ih hread
      exact ⟨'\\' :: c :: used, rfl, by rw [readString, hused]; rfl⟩
    | case3 cs hescape =>
      cases h
      refine ⟨[quote], rfl, ?_⟩
      rw [readString.eq_3, if_pos rfl]
      intro c' cs' _ hcs
      cases hcs
    | case4 c cs hescape hgoes ih =>
      obtain ⟨⟨text', rest'⟩, hread, heq⟩ := Option.map_eq_some_iff.mp h
      cases heq
      obtain ⟨used, rfl, hused⟩ := ih hread
      refine ⟨c :: used, rfl, ?_⟩
      rw [readString.eq_3, if_neg hgoes, hused]
      · rfl
      · rintro c' cs rfl rfl
        exact hescape c' _ rfl rfl
  · rintro ⟨used, rfl, h⟩
    generalize hnil : ([] : List Char) = left at h
    fun_induction readString quote used generalizing text with
    | case1 => cases h
    | case2 c cs ih =>
      obtain ⟨⟨text', rest'⟩, hread, heq⟩ := Option.map_eq_some_iff.mp h
      cases heq
      rw [List.cons_append, List.cons_append, readString, ih hread]
      rfl
    | case3 cs hescape =>
      cases h
      subst hnil
      rw [List.cons_append, readString.eq_3, if_pos rfl]
      · rfl
      · intro c' cs hc
        exact absurd hc hquote
    | case4 c cs hescape hgoes ih =>
      obtain ⟨⟨text', rest'⟩, hread, heq⟩ := Option.map_eq_some_iff.mp h
      cases heq
      rw [List.cons_append, readString.eq_3, if_neg hgoes, ih hread]
      · rfl
      · rintro c' cs' rfl heq
        cases cs with
        | nil => cases hread
        | cons d cs => exact hescape d cs rfl rfl

theorem readString_append (hquote : quote ≠ '\\') (tail : List Char) :
    readString quote (cs ++ tail) = some (text, rest ++ tail) ↔
      readString quote cs = some (text, rest) := by
  rw [readString_eq_some_iff hquote, readString_eq_some_iff hquote]
  simp only [← List.append_assoc, List.append_cancel_right_eq]

theorem readSign_append (h : Stops tail) :
    readSign (cs ++ tail) = some (t, rest ++ tail) ↔ readSign cs = some (t, rest) := by
  have hequals : (∀ more, rest ++ tail ≠ '=' :: more) ↔ ∀ more, rest ≠ '=' :: more := by
    cases rest with
    | nil =>
      exact iff_of_true (fun more => h.ne_cons (by decide))
        (fun more => (List.cons_ne_nil _ more).symm)
    | cons c rest => simp
  rw [readSign_eq_some, readSign_eq_some, ← List.append_assoc, List.append_cancel_right_eq, hequals]

/-- A token is read in front of such an end as it is at the end of the text. -/
theorem readToken_append (h : Stops tail) :
    readToken c (cs ++ tail) = .ok (t, rest ++ tail) ↔ readToken c cs = .ok (t, rest) := by
  have hname : ∀ c ∈ tail.head?, continuesName c = false := fun c hc => (h.not_continues c hc).1
  rw [readToken_eq_ok, readToken_eq_ok]
  split
  · rw [← List.cons_append, readNumber_append h]
    simp [Prod.ext_iff]
  · split
    · rw [takeWhile_append_of_stop hname, dropWhile_append_of_stop hname,
        List.append_cancel_right_eq]
    · split
      · rename_i hquote
        simp only [readString_append (ne_backslash_of_quote hquote)]
      · rw [← List.cons_append]
        exact readSign_append h

/-! ## Cutting a text in two -/

theorem lexes_nil : Lexes cs [] ↔ ∀ c ∈ cs, Text.isBlank c = true := by
  constructor
  · intro h
    generalize hts : ([] : List Token) = ts at h
    induction h with
    | nil => simp
    | blank hblank _ ih => exact List.forall_mem_cons.mpr ⟨hblank, ih hts⟩
    | token => cases hts
  · intro h
    induction cs with
    | nil => exact .nil
    | cons c cs ih =>
      obtain ⟨hblank, hcs⟩ := List.forall_mem_cons.mp h
      exact .blank hblank (ih hcs)

/-- In front of such an end a text is cut as it is by itself. -/
theorem Lexes.append (h : Lexes cs ts) (hstops : Stops tail) (htail : Lexes tail us) :
    Lexes (cs ++ tail) (ts ++ us) := by
  induction h with
  | nil => exact htail
  | blank hblank _ ih => exact .blank hblank ih
  | token hblank hread _ ih => exact .token hblank ((readToken_append hstops).mpr hread) ih

theorem readNumber_ne_parenClose (cs : List Char) : (readNumber cs).1 ≠ .parenClose := by
  have hnumber : ∀ digits, readNumber.numberOf digits ≠ .parenClose := by
    intro digits
    unfold readNumber.numberOf
    dsimp only
    split <;> nofun
  unfold readNumber
  dsimp only
  split
  · split
    · nofun
    · exact hnumber _
  · exact hnumber _

theorem parenClose_of_readToken (h : readToken c cs = .ok (.parenClose, rest)) :
    c = ')' ∧ rest = cs := by
  rw [readToken_eq_ok] at h
  split at h
  · exact absurd (congrArg Prod.fst h) (readNumber_ne_parenClose _)
  · split at h
    · cases h.1
    · split at h
      · obtain ⟨text, htoken, -⟩ := h
        cases htoken
      · obtain ⟨-, hcs, -⟩ := readSign_eq_some.mp h
        cases hcs
        exact ⟨rfl, rfl⟩

/-- What stands before a last token that closes a parenthesis is cut into the tokens before it. -/
theorem Lexes.before_paren (h : Lexes cs (ts ++ [.parenClose])) :
    ∃ before blanks, cs = before ++ ')' :: blanks ∧ (∀ c ∈ blanks, Text.isBlank c = true) ∧
      Lexes before ts := by
  generalize hall : ts ++ [.parenClose] = all at h
  induction h generalizing ts with
  | nil => simp at hall
  | @blank c cs all hblank _ ih =>
    obtain ⟨before, blanks, rfl, hblanks, hbefore⟩ := ih hall
    exact ⟨c :: before, blanks, rfl, hblanks, .blank hblank hbefore⟩
  | @token c cs rest t all hblank hread hrest ih =>
    cases ts with
    | nil =>
      obtain ⟨rfl, rfl⟩ := List.cons.inj hall
      obtain ⟨rfl, rfl⟩ := parenClose_of_readToken hread
      exact ⟨[], rest, rfl, lexes_nil.mp hrest, .nil⟩
    | cons t' ts =>
      rw [List.cons_append, List.cons.injEq] at hall
      obtain ⟨rfl, hall⟩ := hall
      obtain ⟨before, blanks, rfl, hblanks, hbefore⟩ := ih hall
      obtain ⟨used, rfl⟩ := exists_eq_append_of_readToken hread
      rw [← List.append_assoc, readToken_append (stops_paren blanks)] at hread
      exact ⟨c :: (used ++ before), blanks, by simp, hblanks, .token hblank hread hbefore⟩

/-! ## Brackets of a text -/

section

variable {n : Int}

open Quoting (closes_cons closes_nil)

instance (c : Char) : Decidable (IsPlain c) :=
  inferInstanceAs (Decidable (¬ (c = '\'' ∨ c = '"') ∧ c ≠ '[' ∧ c ≠ ']'))

theorem closes_plain_cons (hc : IsPlain c) (hrest : Quoting.outside.Closes n rest) :
    Quoting.outside.Closes n (c :: rest) := by
  obtain ⟨hquote, hopen, hclose⟩ := hc
  refine closes_cons.mpr ⟨fun _ hc => absurd hc hclose, ?_⟩
  simpa [Quoting.next, Quoting.weight, hquote, hopen, hclose] using hrest

theorem closes_plain (h : ∀ c ∈ used, IsPlain c) (hrest : Quoting.outside.Closes n rest) :
    Quoting.outside.Closes n (used ++ rest) := by
  induction used with
  | nil => exact hrest
  | cons c used ih =>
    obtain ⟨hc, hused⟩ := List.forall_mem_cons.mp h
    exact closes_plain_cons hc (ih hused)

theorem closes_string (hquote : quote ≠ '\\') (h : readString quote cs = some (text, rest))
    (hrest : Quoting.outside.Closes n rest) : (Quoting.inside quote).Closes n cs := by
  fun_induction readString quote cs generalizing text with
  | case1 => cases h
  | case2 c cs ih =>
    obtain ⟨⟨text', rest'⟩, hread, heq⟩ := Option.map_eq_some_iff.mp h
    cases heq
    refine closes_inside_cons.mpr (closes_cons.mpr ⟨?_, ?_⟩)
    · simp [Quoting.next]
    · simpa [Quoting.next, Quoting.weight] using ih hread
  | case3 cs _ =>
    cases h
    refine closes_inside_cons.mpr ?_
    simpa [Quoting.next, Quoting.weight, hquote] using hrest
  | case4 c cs hescape hgoes ih =>
    obtain ⟨⟨text', rest'⟩, hread, heq⟩ := Option.map_eq_some_iff.mp h
    cases heq
    have hc : c ≠ '\\' := by
      intro hc
      cases cs with
      | nil => cases hread
      | cons d cs => exact hescape d cs hc rfl
    refine closes_inside_cons.mpr ?_
    simpa [Quoting.next, Quoting.weight, hc, hgoes] using ih hread

theorem closes_sign (h : readSign cs = some (t, rest)) (hn : 0 ≤ n + t.weight)
    (hrest : Quoting.outside.Closes (n + t.weight) rest) : Quoting.outside.Closes n cs := by
  obtain ⟨hsign, rfl, -⟩ := readSign_eq_some.mp h
  cases t with
  | integer n => exact absurd rfl hsign
  | decimal x => exact absurd rfl hsign
  | string text => exact absurd rfl hsign
  | ident name => exact absurd rfl hsign
  | spanOpen => exact closes_plain_cons (by decide) (closes_cons.mpr ⟨nofun, hrest⟩)
  | bracketOpen => exact closes_cons.mpr ⟨nofun, hrest⟩
  | bracketClose =>
    rw [Token.weight] at hn
    exact closes_cons.mpr ⟨fun _ _ => by omega, hrest⟩
  | _ =>
    simp only [Token.weight, Int.add_zero] at hrest
    exact closes_plain (by simp [Token.sign, IsPlain]) hrest

/-- In front of a text that is closed by the bracket after it stands a token. -/
theorem closes_of_readToken (h : readToken c cs = .ok (t, rest)) (hn : 0 ≤ n + t.weight)
    (hrest : Quoting.outside.Closes (n + t.weight) rest) : Quoting.outside.Closes n (c :: cs) := by
  rw [readToken_eq_ok] at h
  split at h
  · obtain ⟨used, hused, hplain⟩ := readNumber_plain (c :: cs)
    have hweight := weight_readNumber (c :: cs)
    rw [h] at hused hweight
    rw [hweight, Int.add_zero] at hrest
    rw [hused]
    exact closes_plain hplain hrest
  · split at h
    · rename_i hname
      obtain ⟨rfl, rfl⟩ := h
      rw [← List.takeWhile_append_dropWhile (p := continuesName) (l := cs), ← List.cons_append]
      refine closes_plain ?_ (by simpa [Token.weight] using hrest)
      exact List.forall_mem_cons.mpr ⟨isPlain_of_startsName hname,
        fun c hc => isPlain_of_continuesName (List.mem_takeWhile_imp hc)⟩
    · split at h
      · rename_i hquote
        obtain ⟨text, rfl, hread⟩ := h
        simp only [Token.weight, Int.add_zero] at hrest
        have hinside := closes_string (ne_backslash_of_quote hquote) hread hrest
        refine closes_cons.mpr ⟨?_, ?_⟩
        · rintro - rfl
          simp at hquote
        · have hnext : Quoting.outside.next c = .inside c := if_pos hquote
          have hweight : Quoting.outside.weight c = 0 := by rcases hquote with rfl | rfl <;> rfl
          rw [hnext, hweight, Int.add_zero]
          exact hinside
      · exact closes_sign h hn hrest

/-- A text is closed as its tokens are. -/
theorem Lexes.closes (h : Lexes cs ts)
    (hnonneg : ∀ before, before <+: ts → 0 ≤ n + bracketDepth before)
    (hclosed : n + bracketDepth ts = 0) : Quoting.outside.Closes n cs := by
  induction h generalizing n with
  | nil => exact closes_nil.mpr ⟨rfl, by simpa using hclosed⟩
  | @blank c cs ts hblank _ ih =>
    exact closes_plain_cons (plain_of_class hblank (by decide)) (ih hnonneg hclosed)
  | @token c cs rest t ts _ hread _ ih =>
    have hn := hnonneg [t] ⟨ts, rfl⟩
    rw [bracketDepth_cons, bracketDepth_nil, Int.add_zero] at hn
    refine closes_of_readToken hread hn (ih ?_ ?_)
    · intro before hbefore
      have hlonger := hnonneg (t :: before) (List.cons_prefix_cons.mpr ⟨rfl, hbefore⟩)
      rw [bracketDepth_cons] at hlonger
      omega
    · rw [bracketDepth_cons] at hclosed
      omega

end

/-- Balanced tokens are those of a text that is closed by a bracket after it. -/
theorem closes_of_balanced (h : tokenize cs = .ok ts) (hts : Balanced ts) :
    Quoting.outside.Closes 0 cs := by
  refine (tokenize_eq_ok.mp h).closes ?_ ?_
  · intro before hbefore
    rw [Int.zero_add]
    exact hts.nonneg before hbefore
  · rw [Int.zero_add]
    exact hts.closed

end WorkflowEngine.Expression
