import WorkflowEngine.Decimal.Layout
import WorkflowEngine.Decimal.Numeral
import WorkflowEngine.Proofs.Decimal.Shortest

/-!
# Written doubles are numerals

The text of a double has the form of a numeral whose value is the shortest decimal of the double,
so it reads as a number (`readMagnitude_magnitude`) and no other double has it
(`floatChars_injective`).
-/

namespace WorkflowEngine.Decimal

variable {n : Nat} {c : Char} {cs whole fraction tail : List Char}

/-! ## Digits -/

def AllDigits (cs : List Char) : Prop := ∀ c ∈ cs, c.isDigit = true

theorem AllDigits.append {ds : List Char} (hcs : AllDigits cs) (hds : AllDigits ds) :
    AllDigits (cs ++ ds) := by
  intro c hc
  rcases List.mem_append.mp hc with hc | hc
  · exact hcs c hc
  · exact hds c hc

theorem allDigits_digitChars (n : Nat) : AllDigits (digitChars n) := fun _ hc =>
  Nat.isDigit_of_mem_toDigits (by decide) (by decide) hc

theorem allDigits_replicate (k : Nat) : AllDigits (List.replicate k '0') := by
  intro c hc
  rw [List.eq_of_mem_replicate hc]
  decide

theorem digitChars_ne_nil (n : Nat) : digitChars n ≠ [] := Nat.toDigits_ne_nil

theorem digitsValue_eq (cs : List Char) : digitsValue cs = Nat.ofDigitChars 10 cs 0 := rfl

@[simp] theorem digitsValue_digitChars (n : Nat) : digitsValue (digitChars n) = n :=
  Nat.ofDigitChars_ten_toDigits

theorem digitsValue_append (cs ds : List Char) :
    digitsValue (cs ++ ds) = digitsValue cs * 10 ^ ds.length + digitsValue ds := by
  rw [digitsValue_eq, Nat.ofDigitChars_append, Nat.ofDigitChars_eq_ofDigitChars_zero,
    Nat.mul_comm]
  rfl

@[simp] theorem digitsValue_replicate (k : Nat) : digitsValue (List.replicate k '0') = 0 := by
  rw [digitsValue_eq, Nat.ofDigitChars_replicate_zero, Nat.mul_zero]

/-! ## The decimal of a numeral -/

/-- The digits after a point, and what follows them. -/
def splitFraction : List Char → List Char × List Char
  | '.' :: rest => (rest.takeWhile Char.isDigit, rest.dropWhile Char.isDigit)
  | rest => ([], rest)

/-- The decimal of a numeral whose digits are given, with what follows them. -/
def decimalFrom (whole fraction rest : List Char) : Option Scaled :=
  if whole.isEmpty && fraction.isEmpty then none
  else
    let n := digitsValue (whole ++ fraction)
    match rest with
    | [] => some ⟨n, -(fraction.length : Int)⟩
    | c :: rest =>
      if c = 'e' ∨ c = 'E' then (readExponent rest).map fun e => ⟨n, e - fraction.length⟩
      else none

/-- The decimal that a numeral without a sign stands for, before it is rounded to a double. -/
def decimalOf? (cs : List Char) : Option Scaled :=
  let (fraction, rest) := splitFraction (cs.dropWhile Char.isDigit)
  decimalFrom (cs.takeWhile Char.isDigit) fraction rest

theorem readMagnitude_eq (cs : List Char) :
    readMagnitude cs = (decimalOf? cs).map fun d => nearest d.digits d.exponent := by
  have hread : readMagnitude cs =
      let (fraction, rest) := splitFraction (cs.dropWhile Char.isDigit)
      let whole := cs.takeWhile Char.isDigit
      if whole.isEmpty && fraction.isEmpty then none
      else
        let n := digitsValue (whole ++ fraction)
        match rest with
        | [] => some (nearest n (-(fraction.length : Int)))
        | c :: rest =>
          if c = 'e' ∨ c = 'E' then (readExponent rest).map fun e => nearest n (e - fraction.length)
          else none := rfl
  rw [hread, decimalOf?]
  obtain ⟨fraction, rest⟩ := splitFraction (cs.dropWhile Char.isDigit)
  dsimp only
  unfold decimalFrom
  split
  · rfl
  · split
    · rfl
    · split
      · rw [Option.map_map]
        rfl
      · rfl

/-! ## The forms of a written magnitude -/

/-- A fraction with its point; without digits there is no point. -/
def pointed : List Char → List Char
  | [] => []
  | c :: cs => '.' :: c :: cs

/-- The text neither goes on with a digit nor with a point. -/
def EndsDigits (tail : List Char) : Prop :=
  ∀ c more, tail = c :: more → c.isDigit = false ∧ c ≠ '.'

theorem endsDigits_nil : EndsDigits [] := nofun

theorem decimalOf?_append (hwhole : AllDigits whole) (hfraction : AllDigits fraction)
    (htail : EndsDigits tail) :
    decimalOf? (whole ++ (pointed fraction ++ tail)) = decimalFrom whole fraction tail := by
  have hstop : ∀ {ds : List Char}, AllDigits ds → (ds ++ tail).takeWhile Char.isDigit = ds ∧
      (ds ++ tail).dropWhile Char.isDigit = tail := by
    intro ds hds
    rw [List.takeWhile_append_of_pos hds, List.dropWhile_append_of_pos hds]
    cases tail with
    | nil => simp
    | cons c more => simp [(htail c more rfl).1]
  unfold decimalOf?
  cases fraction with
  | nil =>
    have hsplit : splitFraction tail = ([], tail) := by
      refine splitFraction.eq_2 _ fun rest hrest => ?_
      exact (htail '.' rest hrest).2 rfl
    rw [pointed, List.nil_append, (hstop hwhole).1, (hstop hwhole).2, hsplit]
  | cons c fraction =>
    have hpoint : Char.isDigit '.' = false := by decide
    rw [List.takeWhile_append_of_pos hwhole, List.dropWhile_append_of_pos hwhole, pointed,
      List.cons_append, List.takeWhile_cons_of_neg (by simp), List.append_nil,
      List.dropWhile_cons_of_neg (by simp), splitFraction, (hstop hfraction).1,
      (hstop hfraction).2]

theorem readMagnitude_digits (hwhole : AllDigits whole) (hne : whole ≠ []) :
    readMagnitude whole ≠ none := by
  have hnone : AllDigits [] := nofun
  have hform := decimalOf?_append hwhole hnone endsDigits_nil
  rw [pointed, List.append_nil, List.append_nil] at hform
  rw [readMagnitude_eq, hform, decimalFrom, if_neg (by simp [hne])]
  exact Option.some_ne_none _

/-- An exponent with its mark and its sign. -/
def exponentPart (e : Int) : List Char :=
  'e' :: (if e < 0 then '-' else '+') :: digitChars e.natAbs

theorem readExponent_sign (e : Int) :
    readExponent ((if e < 0 then '-' else '+') :: digitChars e.natAbs) = some e := by
  have hread : ¬ ((digitChars e.natAbs).isEmpty ||
      (digitChars e.natAbs).any fun c => !c.isDigit) = true := by
    rw [Bool.or_eq_true, List.isEmpty_iff, List.any_eq_true]
    rintro (hnil | ⟨c, hc, hnot⟩)
    · exact digitChars_ne_nil _ hnil
    · rw [allDigits_digitChars _ c hc] at hnot
      cases hnot
  split
  · rename_i hneg
    simp only [readExponent, if_neg hread, digitsValue_digitChars]
    exact congrArg some (show -(e.natAbs : Int) = e by omega)
  · rename_i hpos
    simp only [readExponent, if_neg hread, digitsValue_digitChars]
    exact congrArg some (show (e.natAbs : Int) = e by omega)

/-- A magnitude as it is written, and its value. -/
inductive Written : List Char → ℚ → Prop
  | plain {whole fraction : List Char} (hwhole : AllDigits whole) (hfraction : AllDigits fraction)
      (hne : whole ≠ []) (hne' : fraction ≠ []) :
      Written (whole ++ pointed fraction)
        (Scaled.value ⟨digitsValue (whole ++ fraction), -(fraction.length : Int)⟩)
  | scientific {c : Char} {fraction : List Char} (hc : c.isDigit = true)
      (hfraction : AllDigits fraction) (e : Int) :
      Written (c :: (pointed fraction ++ exponentPart e))
        (Scaled.value ⟨digitsValue (c :: fraction), e - fraction.length⟩)

theorem Written.decimalOf? {v : ℚ} (h : Written cs v) :
    ∃ d, decimalOf? cs = some d ∧ d.value = v := by
  cases h with
  | @plain whole fraction hwhole hfraction hne hne' =>
    refine ⟨_, ?_, rfl⟩
    rw [← List.append_nil (pointed fraction), decimalOf?_append hwhole hfraction endsDigits_nil, decimalFrom,
      if_neg (by simp [hne])]
  | @scientific c fraction hc hfraction e =>
    have hone : AllDigits [c] := by simpa [AllDigits] using hc
    have htail : EndsDigits (exponentPart e) := by
      intro c more htail
      obtain ⟨rfl, -⟩ := List.cons.inj htail
      decide
    refine ⟨_, ?_, rfl⟩
    rw [← List.singleton_append, decimalOf?_append hone hfraction htail, exponentPart, decimalFrom,
      if_neg (by simp)]
    dsimp only
    rw [if_pos (.inl rfl), readExponent_sign]
    rfl

/-- What can stand in a written number. -/
def ofNumber (c : Char) : Bool := c.isDigit || c == '.' || c == 'e' || c == '+' || c == '-'

theorem AllDigits.ofNumber (h : AllDigits cs) : ∀ c ∈ cs, ofNumber c = true := by
  intro c hc
  simp [Decimal.ofNumber, h c hc]

theorem pointed_ofNumber (h : AllDigits fraction) : ∀ c ∈ pointed fraction, ofNumber c = true := by
  cases fraction with
  | nil => simp [pointed]
  | cons c fraction =>
    rw [pointed, List.forall_mem_cons]
    exact ⟨by decide, h.ofNumber⟩

theorem Written.ofNumber {v : ℚ} (h : Written cs v) : ∀ c ∈ cs, ofNumber c = true := by
  cases h with
  | @plain whole fraction hwhole hfraction hne hne' =>
    exact List.forall_mem_append.mpr ⟨hwhole.ofNumber, pointed_ofNumber hfraction⟩
  | @scientific c fraction hc hfraction e =>
    rw [List.forall_mem_cons, List.forall_mem_append, exponentPart, List.forall_mem_cons,
      List.forall_mem_cons]
    refine ⟨by simp [Decimal.ofNumber, hc], pointed_ofNumber hfraction, by decide, ?_,
      (allDigits_digitChars _).ofNumber⟩
    split <;> decide

theorem Written.head {v : ℚ} (h : Written cs v) : ∃ c rest, cs = c :: rest ∧ c.isDigit = true := by
  cases h with
  | @plain whole fraction hwhole hfraction hne hne' =>
    obtain ⟨c, rest, rfl⟩ := List.exists_cons_of_ne_nil hne
    exact ⟨c, _, rfl, hwhole c List.mem_cons_self⟩
  | @scientific c fraction hc hfraction e => exact ⟨c, _, rfl, hc⟩

/-- A written double is no integer: it has a point or an exponent. -/
theorem Written.not_allDigits {v : ℚ} (h : Written cs v) : ¬ AllDigits cs := by
  intro hdigits
  cases h with
  | @plain whole fraction hwhole hfraction hne hne' =>
    obtain ⟨c, rest, rfl⟩ := List.exists_cons_of_ne_nil hne'
    exact absurd (hdigits '.' (by simp [pointed])) (by decide)
  | @scientific c fraction hc hfraction e =>
    exact absurd (hdigits 'e' (by simp [exponentPart])) (by decide)

/-! ## Doubles as they are written -/

theorem pointed_of_ne_nil (h : fraction ≠ []) : pointed fraction = '.' :: fraction := by
  cases fraction with
  | nil => exact absurd rfl h
  | cons c fraction => rfl

theorem value_shift (n k : Nat) (e : Int) :
    Scaled.value ⟨n * 10 ^ k, e - k⟩ = Scaled.value ⟨n, e⟩ := by
  have hten : (10 : ℚ) ≠ 0 := by norm_num
  unfold Scaled.value
  dsimp only
  rw [zpow_sub₀ hten, zpow_natCast]
  push_cast
  field_simp

/-- Digits of which the last ones come after the point. -/
theorem written_split {ds : List Char} {k : Nat} (hds : AllDigits ds) (hpos : 0 < k)
    (hlt : k < ds.length) : Written (ds.take k ++ pointed (ds.drop k))
      (Scaled.value ⟨digitsValue ds, (k : Int) - ds.length⟩) := by
  have htake : AllDigits (ds.take k) := fun c hc => hds c (List.mem_of_mem_take hc)
  have hdrop : AllDigits (ds.drop k) := fun c hc => hds c (List.mem_of_mem_drop hc)
  have hwritten := Written.plain htake hdrop
    (by rw [← List.length_pos_iff, List.length_take]; omega)
    (by rw [← List.length_pos_iff, List.length_drop]; omega)
  rwa [List.take_append_drop, List.length_drop, Nat.cast_sub hlt.le, neg_sub] at hwritten

theorem plainForm_written (n : Nat) (e : Int) :
    Written (plainForm (digitChars n) (e + (digitChars n).length - 1)) (Scaled.value ⟨n, e⟩) := by
  have hdigits := allDigits_digitChars n
  have hlength : 0 < (digitChars n).length := List.length_pos_iff.mpr (digitChars_ne_nil n)
  unfold plainForm
  split
  · rename_i hneg
    generalize hzeros : (-(e + (digitChars n).length - 1)).toNat - 1 = zeros
    have hall : AllDigits ('0' :: (List.replicate zeros '0' ++ digitChars n)) :=
      (allDigits_replicate (zeros + 1)).append hdigits
    have hvalue : digitsValue ('0' :: (List.replicate zeros '0' ++ digitChars n)) = n := by
      rw [← List.cons_append, ← List.replicate_succ, digitsValue_append, digitsValue_replicate,
        digitsValue_digitChars, Nat.zero_mul, Nat.zero_add]
    have hwritten := written_split hall Nat.one_pos (by simp; omega)
    rw [hvalue, show ((1 : Nat) : Int) -
      ('0' :: (List.replicate zeros '0' ++ digitChars n)).length = e by simp; omega] at hwritten
    simpa [pointed_of_ne_nil, digitChars_ne_nil] using hwritten
  · rename_i hpos
    generalize hwhole : (e + (digitChars n).length - 1).toNat + 1 = whole
    dsimp only
    by_cases hle : (digitChars n).length ≤ whole
    · -- The digits end before the point, so that zeros fill up to it and one follows.
      generalize hzeros : whole - (digitChars n).length = zeros
      have hlong : (digitChars n ++ List.replicate zeros '0').length = whole := by
        rw [List.length_append, List.length_replicate]
        omega
      have hvalue : digitsValue (digitChars n ++ List.replicate zeros '0' ++ ['0']) =
          n * 10 ^ (zeros + 1) := by
        rw [List.append_assoc, ← List.replicate_succ', digitsValue_append, digitsValue_digitChars,
          digitsValue_replicate, List.length_replicate, Nat.add_zero]
      have hwritten := written_split (k := whole) ((hdigits.append (allDigits_replicate zeros)).append
        (allDigits_replicate 1)) (by omega) (by simp; omega)
      rw [List.replicate_one, List.take_left' hlong, List.drop_left' hlong, hvalue,
        show (whole : Int) - (digitChars n ++ List.replicate zeros '0' ++ ['0']).length =
          e - (zeros + 1 : Nat) by simp; omega, value_shift] at hwritten
      rw [List.take_of_length_le hlong.le, List.drop_of_length_le hlong.le]
      simpa [pointed] using hwritten
    · have hwritten := written_split hdigits (k := whole) (by omega) (by omega)
      rw [digitsValue_digitChars, show (whole : Int) - (digitChars n).length = e by omega]
        at hwritten
      have hdrop : (digitChars n).drop whole ≠ [] := by
        rw [← List.length_pos_iff, List.length_drop]
        omega
      rw [show whole - (digitChars n).length = 0 by omega, List.replicate_zero, List.append_nil,
        if_neg (by simpa using hdrop), List.append_assoc, List.singleton_append,
        ← pointed_of_ne_nil hdrop]
      exact hwritten

theorem exponentForm_eq (c : Char) (fraction : List Char) (e : Int) :
    jsonLayout.exponentForm (c :: fraction) e = c :: (pointed fraction ++ exponentPart e) := by
  have hsign : (if e < 0 then ['-'] else jsonLayout.positiveSign) =
      [if e < 0 then '-' else '+'] := by split <;> rfl
  unfold Layout.exponentForm
  rw [hsign]
  cases fraction with
  | nil => rfl
  | cons d fraction =>
    simp only [pointed, exponentPart, List.cons_append, List.append_assoc, List.nil_append]
    rfl

theorem exponentForm_written (n : Nat) (e : Int) :
    Written (jsonLayout.exponentForm (digitChars n) (e + (digitChars n).length - 1))
      (Scaled.value ⟨n, e⟩) := by
  have hdigits := allDigits_digitChars n
  have hvalue := digitsValue_digitChars n
  obtain ⟨c, fraction, hcons⟩ := List.exists_cons_of_ne_nil (digitChars_ne_nil n)
  rw [hcons] at hdigits hvalue ⊢
  have hwritten := Written.scientific (hdigits c List.mem_cons_self)
    (fun c hc => hdigits c (List.mem_cons_of_mem _ hc)) (e + (c :: fraction).length - 1)
  rwa [hvalue, show e + ((c :: fraction).length : Int) - 1 - fraction.length = e by
    rw [List.length_cons]; omega, ← exponentForm_eq] at hwritten

/-- What is written for a magnitude has the value of its shortest decimal. -/
theorem magnitude_written (b : Binary) : Written (jsonLayout.magnitude b)
    (if b.significand = 0 then 0 else b.shortest.value) := by
  unfold Layout.magnitude
  split
  · have hzero : Scaled.value ⟨digitsValue (['0'] ++ ['0']), -(['0'].length : Int)⟩ = 0 := by
      simp [Scaled.value, digitsValue, digitValue]
    rw [← hzero]
    have hdigits : AllDigits ['0'] := allDigits_replicate 1
    exact .plain hdigits hdigits (List.cons_ne_nil _ _) (List.cons_ne_nil _ _)
  · dsimp only
    split
    · exact plainForm_written _ _
    · exact exponentForm_written _ _

theorem readMagnitude_magnitude (b : Binary) : readMagnitude (jsonLayout.magnitude b) ≠ none := by
  obtain ⟨d, hd, -⟩ := (magnitude_written b).decimalOf?
  rw [readMagnitude_eq, hd]
  exact Option.some_ne_none _

theorem Binary.shortest_value_pos {b : Binary} (hpos : 0 < b.significand)
    (hlt : b.significand < 2 ^ 53) : 0 < b.shortest.value := by
  refine lt_of_lt_of_le ?_ (holds_shortest hpos hlt).bounds.1
  have hreach := b.reach_le
  have hlow : 0 < 4 * b.significand - b.reach := by omega
  rw [interval_lower]
  exact mul_pos (by exact_mod_cast hlow) (two_zpow_pos _)

theorem magnitude_injective {b b' : Binary} (hb : b.Normal) (hb' : b'.Normal)
    (h : jsonLayout.magnitude b = jsonLayout.magnitude b') : b = b' := by
  have hzero : ∀ b : Binary, b.Normal → b.significand = 0 → b = ⟨0, -1074⟩ := by
    rintro ⟨m, e⟩ hnormal rfl
    have hle : ¬ -1074 < e := fun hlt => absurd (hnormal.significand_ge hlt) (by simp)
    rw [le_antisymm (not_lt.mp hle) hnormal.exponent_ge]
  obtain ⟨d, hd, hvalue⟩ := (magnitude_written b).decimalOf?
  obtain ⟨d', hd', hvalue'⟩ := (magnitude_written b').decimalOf?
  rw [← h, hd] at hd'
  cases hd'
  rw [hvalue] at hvalue'
  split at hvalue' <;> split at hvalue'
  · rename_i h0 h0'
    rw [hzero b hb h0, hzero b' hb' h0']
  · rename_i h0'
    exact absurd hvalue'.symm
      (Binary.shortest_value_pos (Nat.pos_of_ne_zero h0') hb'.significand_lt).ne'
  · rename_i h0 _
    exact absurd hvalue' (Binary.shortest_value_pos (Nat.pos_of_ne_zero h0) hb.significand_lt).ne'
  · rename_i h0 h0'
    have hholds := Binary.holds_shortest (Nat.pos_of_ne_zero h0) hb.significand_lt
    have hholds' := Binary.holds_shortest (Nat.pos_of_ne_zero h0') hb'.significand_lt
    exact Binary.eq_of_holds hb hb' hholds (hvalue' ▸ hholds')

section

variable {x y : Float}

theorem floatChars_eq (x : Float) : floatChars x =
    if isNegative x then '-' :: jsonLayout.magnitude (Binary.ofFloat x)
    else jsonLayout.magnitude (Binary.ofFloat x) := rfl

theorem magnitude_ne_minus (b : Binary) (cs : List Char) : jsonLayout.magnitude b ≠ '-' :: cs := by
  intro h
  obtain ⟨c, rest, hcons, hdigit⟩ := (magnitude_written b).head
  rw [h] at hcons
  obtain ⟨rfl, -⟩ := List.cons.inj hcons
  exact absurd hdigit (by decide)

/-- No two doubles are written alike. -/
theorem floatChars_injective (h : floatChars x = floatChars y) : x = y := by
  have hx := normal_ofFloat x
  have hy := normal_ofFloat y
  rw [floatChars_eq, floatChars_eq] at h
  cases hsign : isNegative x <;> cases hsign' : isNegative y <;> rw [hsign, hsign'] at h
  · exact eq_of_parts (hsign.trans hsign'.symm) (magnitude_injective hx hy h)
  · exact absurd h (magnitude_ne_minus _ _)
  · exact absurd h.symm (magnitude_ne_minus _ _)
  · exact eq_of_parts (hsign.trans hsign'.symm) (magnitude_injective hx hy (List.cons.inj h).2)

theorem floatText_injective (h : floatText x = floatText y) : x = y :=
  floatChars_injective (String.ofList_injective h)

end

end WorkflowEngine.Decimal
