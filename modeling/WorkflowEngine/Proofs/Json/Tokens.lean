import WorkflowEngine.Json.Printer
import WorkflowEngine.Json.Reader

/-!
# Numerals and strings in JSON text

What is written for an integer or for a string is read as that integer or string, and what follows
is left. A numeral is read as far as it goes, so that after it no more of it may come
(`EndsNumeral`); a string ends with its quote.
-/

namespace WorkflowEngine.Json

variable {n : Nat} {c : Char} {cs rest : List Char}

/-! ## Numerals -/

/-- The text is not that of a numeral that goes on. -/
def EndsNumeral (rest : List Char) : Prop :=
  ∀ c more, rest = c :: more → c.isDigit = false ∧ c ≠ '.' ∧ c ≠ 'e' ∧ c ≠ 'E'

theorem endsNumeral_nil : EndsNumeral [] := nofun

theorem endsNumeral_cons (hdigit : c.isDigit = false) (hpoint : c ≠ '.') (he : c ≠ 'e')
    (hE : c ≠ 'E') : EndsNumeral (c :: rest) := by
  rintro c more ⟨⟩
  exact ⟨hdigit, hpoint, he, hE⟩

theorem isDigit_of_mem_toDigits (h : c ∈ Nat.toDigits 10 n) : c.isDigit = true :=
  Nat.isDigit_of_mem_toDigits (by decide) (by decide) h

/-- Digits begin with a digit. -/
theorem exists_toDigits_eq_cons (n : Nat) :
    ∃ c cs, Nat.toDigits 10 n = c :: cs ∧ c.isDigit = true := by
  obtain ⟨c, cs, hdigits⟩ := List.exists_cons_of_ne_nil (Nat.toDigits_ne_nil (n := n) (b := 10))
  exact ⟨c, cs, hdigits, isDigit_of_mem_toDigits (hdigits ▸ List.mem_cons_self)⟩

theorem EndsNumeral.takeWhile (hrest : EndsNumeral rest) (n : Nat) :
    (Nat.toDigits 10 n ++ rest).takeWhile Char.isDigit = Nat.toDigits 10 n := by
  rw [List.takeWhile_append_of_pos fun c => isDigit_of_mem_toDigits]
  cases rest with
  | nil => simp
  | cons c more => simp [(hrest c more rfl).1]

theorem EndsNumeral.dropWhile (hrest : EndsNumeral rest) (n : Nat) :
    (Nat.toDigits 10 n ++ rest).dropWhile Char.isDigit = rest := by
  rw [List.dropWhile_append_of_pos fun c => isDigit_of_mem_toDigits]
  cases rest with
  | nil => rfl
  | cons c more => simp [(hrest c more rfl).1]

/-- Only zero begins with a zero. -/
theorem toDigits_ne_zero_cons (hpos : 0 < n) : Nat.toDigits 10 n ≠ '0' :: cs := by
  induction n using Nat.strongRecOn generalizing cs with
  | ind n ih =>
    rw [Nat.toDigits_eq_if (by decide)]
    split
    · rename_i hlt
      have hdigit : ∀ d < 10, 0 < d → Nat.digitChar d ≠ '0' := by decide
      intro h
      exact hdigit n hlt hpos (List.cons.inj h).1
    · rename_i hle
      intro h
      cases hdigits : Nat.toDigits 10 (n / 10) with
      | nil => exact Nat.toDigits_ne_nil hdigits
      | cons d ds =>
        rw [hdigits] at h
        obtain rfl : d = '0' := (List.cons.inj h).1
        exact ih (n / 10) (by omega) (by omega) hdigits

theorem toDigits_ne_zero_cons_cons : Nat.toDigits 10 n ≠ '0' :: c :: cs := by
  rcases Nat.eq_zero_or_pos n with rfl | hpos
  · simp
  · exact toDigits_ne_zero_cons hpos

def signChars (negative : Bool) : List Char := if negative then ['-'] else []

/-- Digits that nothing of a numeral follows are a numeral by themselves. -/
theorem readNumeral_toDigits (negative : Bool) (n : Nat) (hrest : EndsNumeral rest) :
    readNumeral (signChars negative ++ (Nat.toDigits 10 n ++ rest)) =
      some (⟨negative, Nat.toDigits 10 n, none, none⟩, rest) := by
  have htake := hrest.takeWhile n
  have hdrop := hrest.dropWhile n
  have hdash : ∀ more, Nat.toDigits 10 n ++ rest ≠ '-' :: more := by
    intro more h
    obtain ⟨c, cs, hdigits, hdigit⟩ := exists_toDigits_eq_cons n
    rw [hdigits] at h
    obtain rfl : c = '-' := (List.cons.inj h).1
    cases hdigit
  unfold readNumeral
  split
  rename_i sign unsigned hsigned
  obtain ⟨rfl, rfl⟩ : negative = sign ∧ Nat.toDigits 10 n ++ rest = unsigned := by
    cases negative with
    | true => simpa [signChars] using hsigned
    | false =>
      rw [signChars, if_neg Bool.false_ne_true, List.nil_append] at hsigned
      split at hsigned
      · rename_i h
        exact absurd h (hdash _)
      · simpa using hsigned
  -- A second digit after a zero is refused, so this has to be excluded before the digits count.
  dsimp only
  rw [htake, hdrop]
  split
  · rename_i hnil
    exact absurd hnil Nat.toDigits_ne_nil
  · rename_i hzero
    exact absurd hzero toDigits_ne_zero_cons_cons
  · cases rest with
    | nil => rfl
    | cons c more =>
      obtain ⟨-, hpoint, he, hE⟩ := hrest c more rfl
      simp [hpoint, he, hE]

theorem le_ofDigitChars (cs : List Char) (n : Nat) : n ≤ Nat.ofDigitChars 10 cs n := by
  rw [Nat.ofDigitChars_eq_ofDigitChars_zero]
  have hle : 1 * n ≤ 10 ^ cs.length * n := Nat.mul_le_mul_right n (Nat.pow_pos (by decide))
  omega

/-- Digits are gathered to the end if the number that they make up fits. -/
theorem gather_eq (h : Nat.ofDigitChars 10 cs n < significandLimit) :
    gather n cs = (Nat.ofDigitChars 10 cs n, []) := by
  induction cs generalizing n with
  | nil => rfl
  | cons c cs ih =>
    have hnext : 10 * n + Decimal.digitValue c < significandLimit :=
      Nat.lt_of_le_of_lt (le_ofDigitChars cs _) h
    rw [gather, if_pos hnext]
    exact ih h

theorem number?_toDigits (negative : Bool) (h : n < significandLimit) :
    Numeral.number? ⟨negative, Nat.toDigits 10 n, none, none⟩ =
      some (Numeral.integer negative n) := by
  have hvalue : Nat.ofDigitChars 10 (Nat.toDigits 10 n) 0 = n := Nat.ofDigitChars_ten_toDigits
  rw [Numeral.number?]
  dsimp only
  rw [gather_eq (hvalue.symm ▸ h), hvalue]

theorem inIntegerRange_iff {i : Int} :
    inIntegerRange i = true ↔ -Int.pow 2 63 ≤ i ∧ i < Int.pow 2 64 := by
  simp [inIntegerRange]

theorem toList_toString (i : Int) :
    (toString i).toList = signChars (decide (i < 0)) ++ Nat.toDigits 10 i.natAbs := by
  have hrepr : toString i = i.repr := rfl
  rw [hrepr, Int.repr_eq_if]
  split
  · rename_i hpos
    rw [Nat.toList_repr, decide_eq_false (by omega), show i.toNat = i.natAbs by omega]
    rfl
  · rename_i hneg
    rw [String.toList_append, Nat.toList_repr, decide_eq_true (by omega),
      show (-i).toNat = i.natAbs by omega]
    rfl

theorem integer_natAbs {i : Int} (hlow : -Int.pow 2 63 ≤ i) :
    Numeral.integer (decide (i < 0)) i.natAbs = .int i := by
  have hlow' : Int.pow 2 63 = 9223372036854775808 := by decide
  have hlimit : Nat.pow 2 63 = 9223372036854775808 := by decide
  rw [Numeral.integer]
  split
  · rename_i hneg
    rw [decide_eq_true_eq] at hneg
    rw [if_neg (by omega)]
    exact congrArg Number.int (by omega)
  · rename_i hpos
    rw [decide_eq_true_eq] at hpos
    exact congrArg Number.int (by omega)

/-- An integer that 64 bits hold is read as it was written. -/
theorem readNumeral_toString {i : Int} (hrange : inIntegerRange i = true)
    (hrest : EndsNumeral rest) :
    ∃ numeral, readNumeral ((toString i).toList ++ rest) = some (numeral, rest) ∧
      numeral.number? = some (.int i) := by
  obtain ⟨hlow, hhigh⟩ := inIntegerRange_iff.mp hrange
  have hlow' : Int.pow 2 63 = 9223372036854775808 := by decide
  have hhigh' : Int.pow 2 64 = 18446744073709551616 := by decide
  have hlimit : significandLimit = 18446744073709551616 := by decide
  rw [toList_toString, List.append_assoc]
  refine ⟨_, readNumeral_toDigits _ _ hrest, ?_⟩
  rw [number?_toDigits _ (by omega), integer_natAbs hlow]

/-! ## Strings -/

/-- A character below the space that has no escape of its own is written as a code unit. -/
def writtenAsUnit (c : Char) : Bool :=
  c.toNat < 32 && !(['\x08', '\x0c', '\n', '\r', '\t'].contains c)

def pieceOf (c : Char) : Piece := if writtenAsUnit c then .unit c.toNat else .char c

theorem hexValue?_hexDigit : ∀ d < 16, Text.hexValue? (hexDigit d) = some d := by decide

theorem readUnit_escaped (h : n < 256) :
    readUnit ('0' :: '0' :: hexDigit (n / 16) :: hexDigit (n % 16) :: rest) = some (n, rest) := by
  have hzero : Text.hexValue? '0' = some 0 := by decide
  rw [readUnit, hzero, hexValue?_hexDigit (n / 16) (by omega),
    hexValue?_hexDigit (n % 16) (by omega)]
  simp only [Option.some.injEq, Prod.mk.injEq, and_true]
  omega

theorem readPieces_escapeChar (fuel : Nat) (c : Char) (rest : List Char) :
    readPieces (fuel + 1) (escapeChar c ++ rest) =
      (readPieces fuel rest).map fun (pieces, rest) => (pieceOf c :: pieces, rest) := by
  unfold escapeChar
  split
  · subst_vars; rfl
  split
  · subst_vars; rfl
  split
  · subst_vars; rfl
  split
  · subst_vars; rfl
  split
  · subst_vars; rfl
  split
  · subst_vars; rfl
  split
  · subst_vars; rfl
  split
  · rename_i hquote hbackslash h8 hc hn hr ht hlt
    have hunit : pieceOf c = .unit c.toNat := by
      rw [pieceOf, if_pos (by simp [writtenAsUnit, *])]
    simp [readPieces, readEscape, readUnit_escaped (show c.toNat < 256 by omega), hunit]
  · rename_i hquote hbackslash h8 hc hn hr ht hge
    have hchar : pieceOf c = .char c := by
      rw [pieceOf, if_neg (by simp [writtenAsUnit, hge])]
    simp [readPieces, hquote, hbackslash, hge, hchar]

theorem joinPieces_pieceOf (c : Char) (pieces : List Piece) :
    joinPieces (pieceOf c :: pieces) = (joinPieces pieces).map (c :: ·) := by
  rw [pieceOf]
  split
  · rename_i hunit
    have hlt : c.toNat < 32 := by
      rw [writtenAsUnit, Bool.and_eq_true, decide_eq_true_eq] at hunit
      exact hunit.1
    have hhigh : isHighSurrogate c.toNat = false := by
      simp [isHighSurrogate]
      omega
    have hlow : isLowSurrogate c.toNat = false := by
      simp [isLowSurrogate]
      omega
    rw [joinPieces.eq_def]
    simp [hhigh, hlow]
  · rfl

theorem readPieces_flatMap (fuel : Nat) (cs rest : List Char) (hfuel : cs.length < fuel) :
    readPieces fuel (cs.flatMap escapeChar ++ '"' :: rest) = some (cs.map pieceOf, rest) := by
  induction cs generalizing fuel with
  | nil =>
    obtain ⟨fuel, rfl⟩ := Nat.exists_eq_add_one_of_ne_zero (Nat.ne_zero_of_lt hfuel)
    rfl
  | cons c cs ih =>
    obtain ⟨fuel, rfl⟩ := Nat.exists_eq_add_one_of_ne_zero (Nat.ne_zero_of_lt hfuel)
    rw [List.flatMap_cons, List.append_assoc, readPieces_escapeChar, ih fuel (by simpa using hfuel)]
    rfl

theorem joinPieces_map (cs : List Char) : joinPieces (cs.map pieceOf) = some cs := by
  induction cs with
  | nil => rfl
  | cons c cs ih =>
    rw [List.map_cons, joinPieces_pieceOf, ih]
    rfl

theorem length_le_flatMap (cs : List Char) : cs.length ≤ (cs.flatMap escapeChar).length := by
  induction cs with
  | nil => exact Nat.le_refl 0
  | cons c cs ih =>
    have hpos : 0 < (escapeChar c).length := by
      grind [escapeChar]
    rw [List.flatMap_cons, List.length_append, List.length_cons]
    omega

/-- A string is read as it was written. -/
theorem readString_stringChars (s : String) (rest : List Char) :
    readString (s.toList.flatMap escapeChar ++ '"' :: rest) = some (some s, rest) := by
  have hlength := length_le_flatMap s.toList
  have hfuel : s.toList.length <
      (s.toList.flatMap escapeChar ++ '"' :: rest).length + 1 := by
    rw [List.length_append]
    omega
  rw [readString, readPieces_flatMap _ _ _ hfuel, Option.map_some]
  dsimp only
  rw [joinPieces_map, Option.map_some, String.ofList_toList]

end WorkflowEngine.Json
