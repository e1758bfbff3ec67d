import Mathlib.Data.List.TakeWhile
import WorkflowEngine.Proofs.Expression.Brackets

/-!
# Tokens and the characters they are read from

The text of a span is read twice: once for the bracket that ends it and once for its tokens. Both
readings see the same quotes and the same brackets. Every token is read from a piece of the text
that begins and ends outside quotes and opens as many brackets as the token does (`Lexeme`), so the
tokens of a span have balanced brackets and none of its strings stays open (`tokenize_of_closes`).
-/

namespace WorkflowEngine.Expression

/-! ## Brackets among tokens -/

/-- What a token adds to the number of open brackets. -/
def Token.weight : Token → Int
  | .spanOpen => 1
  | .bracketOpen => 1
  | .bracketClose => -1
  | _ => 0

/-- How many brackets the tokens open, less those that they close. -/
def bracketDepth : List Token → Int
  | [] => 0
  | t :: ts => t.weight + bracketDepth ts

/-- Every bracket that the tokens close has been opened before, and every one is closed. -/
structure Balanced (ts : List Token) : Prop where
  nonneg : ∀ before, before <+: ts → 0 ≤ bracketDepth before
  closed : bracketDepth ts = 0

@[simp] theorem bracketDepth_nil : bracketDepth [] = 0 := rfl

@[simp] theorem bracketDepth_cons (t : Token) (ts : List Token) :
    bracketDepth (t :: ts) = t.weight + bracketDepth ts := rfl

@[simp] theorem bracketDepth_append (ts us : List Token) :
    bracketDepth (ts ++ us) = bracketDepth ts + bracketDepth us := by
  induction ts with
  | nil => rw [List.nil_append, bracketDepth, Int.zero_add]
  | cons t ts ih => rw [List.cons_append, bracketDepth, bracketDepth, ih, Int.add_assoc]

/-! ## Pieces of a text -/

namespace Quoting

variable {q : Quoting} {n : Int} {c : Char} {cs before after : List Char}

theorem Closes.append (h : q.Closes n (before ++ after)) :
    (q.after before).Closes (n + q.depth before) after := by
  induction before generalizing q n with
  | nil => simpa [Quoting.after, depth] using h
  | cons c before ih =>
    have hrest := ih (closes_cons.mp h).2
    simp only [depth]
    rw [← Int.add_assoc]
    exact hrest

/-- Outside quotes only a closing bracket takes away from what is open, and it needs one. -/
theorem Closes.nonneg (hn : 0 ≤ n) (h : q.Closes n (before ++ after)) : 0 ≤ n + q.depth before := by
  induction before generalizing q n with
  | nil => simpa [depth] using hn
  | cons c before ih =>
    obtain ⟨hopen, hrest⟩ := closes_cons.mp h
    have hweight : 0 ≤ n + q.weight c := by
      cases q with
      | outside =>
        simp only [weight]
        split
        · omega
        · split
          · rename_i hclose
            have hpos := hopen rfl hclose
            omega
          · omega
      | inside _ => simpa [weight] using hn
      | escaped _ => simpa [weight] using hn
    have hrest := ih hweight hrest
    simp only [depth]
    omega

end Quoting

/-- The characters of a token: they begin and end outside quotes and open as many brackets as the
token does. -/
structure Lexeme (t : Token) (used : List Char) : Prop where
  after : Quoting.outside.after used = .outside
  depth : Quoting.outside.depth used = t.weight

/-- Neither a quote nor a bracket. -/
def IsPlain (c : Char) : Prop := ¬ (c = '\'' ∨ c = '"') ∧ c ≠ '[' ∧ c ≠ ']'

theorem plain_of_class {p : Char → Bool} {c : Char} (h : p c = true)
    (hclass : p '\'' = false ∧ p '"' = false ∧ p '[' = false ∧ p ']' = false) : IsPlain c := by
  obtain ⟨hsingle, hdouble, hopen, hclose⟩ := hclass
  refine ⟨?_, ?_, ?_⟩
  · rintro (rfl | rfl)
    · rw [hsingle] at h
      cases h
    · rw [hdouble] at h
      cases h
  · rintro rfl
    rw [hopen] at h
    cases h
  · rintro rfl
    rw [hclose] at h
    cases h

theorem isPlain_of_isDigit {c : Char} (h : c.isDigit = true) : IsPlain c :=
  plain_of_class h (by decide)

theorem isPlain_of_startsName {c : Char} (h : startsName c = true) : IsPlain c :=
  plain_of_class h (by decide +kernel)

theorem isPlain_of_continuesName {c : Char} (h : continuesName c = true) : IsPlain c :=
  plain_of_class h (by decide +kernel)

theorem lexeme_of_plain {t : Token} {used : List Char} (ht : t.weight = 0)
    (h : ∀ c ∈ used, IsPlain c) : Lexeme t used := by
  have hboth : Quoting.outside.after used = .outside ∧ Quoting.outside.depth used = 0 := by
    induction used with
    | nil => exact ⟨rfl, rfl⟩
    | cons c used ih =>
      obtain ⟨hquote, hopen, hclose⟩ := h c List.mem_cons_self
      obtain ⟨hafter, hdepth⟩ := ih fun c hc => h c (List.mem_cons_of_mem _ hc)
      have hnext : Quoting.outside.next c = .outside := if_neg hquote
      have hweight : Quoting.outside.weight c = 0 := by simp [Quoting.weight, hopen, hclose]
      refine ⟨?_, ?_⟩
      · rw [Quoting.after, List.foldl_cons, hnext]
        exact hafter
      · rw [Quoting.depth, hweight, hnext, hdepth]
        rfl
  exact ⟨hboth.1, by rw [hboth.2, ht]⟩

/-! ## Strings -/

section

variable {quote : Char} {text cs rest : List Char}

/-- What is read as a string is a quoted piece of the text. -/
theorem readString_eq_some (hquote : quote ≠ '\\') (h : readString quote cs = some (text, rest)) :
    ∃ used, cs = used ++ rest ∧ (Quoting.inside quote).after used = .outside ∧
      (Quoting.inside quote).depth used = 0 := by
  fun_induction readString quote cs generalizing text with
  | case1 => cases h
  | case2 c cs ih =>
    obtain ⟨⟨text', rest'⟩, hread, heq⟩ := Option.map_eq_some_iff.mp h
    cases heq
    obtain ⟨used, rfl, hafter, hdepth⟩ := ih hread
    refine ⟨'\\' :: c :: used, rfl, ?_, ?_⟩
    · simpa [Quoting.after, Quoting.next] using hafter
    · simpa [Quoting.depth, Quoting.next, Quoting.weight] using hdepth
  | case3 cs _ =>
    cases h
    exact ⟨[quote], rfl, by simp [Quoting.after, Quoting.next, hquote],
      by simp [Quoting.depth, Quoting.weight]⟩
  | case4 c cs hescape hgoes ih =>
    obtain ⟨⟨text', rest'⟩, hread, heq⟩ := Option.map_eq_some_iff.mp h
    cases heq
    obtain ⟨used, rfl, hafter, hdepth⟩ := ih hread
    have hc : c ≠ '\\' := by
      rintro rfl
      cases used with
      | nil => cases hafter
      | cons c' used => exact hescape c' (used ++ rest) rfl rfl
    refine ⟨c :: used, rfl, ?_, ?_⟩
    · simpa [Quoting.after, Quoting.next, hc, hgoes] using hafter
    · simpa [Quoting.depth, Quoting.next, Quoting.weight, hc, hgoes] using hdepth

/-- A text that ends outside quotes ends every string that is begun in it. -/
theorem readString_ne_none (h : (Quoting.inside quote).after cs = .outside) :
    readString quote cs ≠ none := by
  fun_induction readString quote cs with
  | case1 => cases h
  | case2 c cs ih =>
    have hrest : (Quoting.inside quote).after cs = .outside := by
      simpa [Quoting.after, Quoting.next] using h
    simpa using ih hrest
  | case3 cs _ => simp
  | case4 c cs hescape hgoes ih =>
    have hrest : (Quoting.inside quote).after cs = .outside := by
      by_cases hc : c = '\\'
      · cases cs with
        | nil => simp [Quoting.after, Quoting.next, hc] at h
        | cons c' cs => exact absurd rfl (hescape c' cs hc)
      · simpa [Quoting.after, Quoting.next, hc, hgoes] using h
    simpa using ih hrest

end

/-! ## One token -/

section

variable {c : Char} {t : Token} {cs rest : List Char}

theorem weight_numberOf (digits : List Char) : (readNumber.numberOf digits).weight = 0 := by
  unfold readNumber.numberOf
  dsimp only
  split <;> rfl

theorem weight_readNumber (cs : List Char) : (readNumber cs).1.weight = 0 := by
  unfold readNumber
  dsimp only
  split
  · split
    · rfl
    · exact weight_numberOf _
  · exact weight_numberOf _

/-- A number is read from digits and at most one point. -/
theorem readNumber_plain (cs : List Char) :
    ∃ used, cs = used ++ (readNumber cs).2 ∧ ∀ c ∈ used, IsPlain c := by
  have hdigits : ∀ ds : List Char, ∀ c ∈ ds.takeWhile Char.isDigit, IsPlain c :=
    fun _ _ hc => isPlain_of_isDigit (List.mem_takeWhile_imp hc)
  have hwhole := List.takeWhile_append_dropWhile (p := Char.isDigit) (l := cs)
  unfold readNumber
  dsimp only
  split
  · rename_i d more hrest
    split
    · refine ⟨cs.takeWhile Char.isDigit ++ '.' :: (d :: more).takeWhile Char.isDigit, ?_, ?_⟩
      · rw [List.append_assoc, List.cons_append, List.takeWhile_append_dropWhile, ← hrest, hwhole]
      · intro c hc
        rcases List.mem_append.mp hc with hc | hc
        · exact hdigits cs c hc
        · rcases List.mem_cons.mp hc with rfl | hc
          · exact ⟨by decide, by decide, by decide⟩
          · exact hdigits (d :: more) c hc
    · exact ⟨cs.takeWhile Char.isDigit, hwhole.symm, hdigits cs⟩
  · exact ⟨cs.takeWhile Char.isDigit, hwhole.symm, hdigits cs⟩

theorem readNumber_lexeme (cs : List Char) :
    ∃ used, cs = used ++ (readNumber cs).2 ∧ Lexeme (readNumber cs).1 used := by
  obtain ⟨used, hused, hplain⟩ := readNumber_plain cs
  exact ⟨used, hused, lexeme_of_plain (weight_readNumber cs) hplain⟩

theorem readSign_lexeme (h : readSign cs = some (t, rest)) :
    ∃ used, cs = used ++ rest ∧ Lexeme t used := by
  unfold readSign at h
  split at h <;> cases h
  all_goals
    first
    | exact ⟨[_, _], rfl, by decide, by decide⟩
    | exact ⟨[_], rfl, by decide, by decide⟩

/-- Every token is read from a piece of the text. -/
theorem readToken_lexeme (h : readToken c cs = .ok (t, rest)) :
    ∃ used, c :: cs = used ++ rest ∧ Lexeme t used := by
  unfold readToken at h
  split at h
  · have heq := Except.ok.inj h
    obtain ⟨used, hused, hlexeme⟩ := readNumber_lexeme (c :: cs)
    rw [heq] at hused hlexeme
    exact ⟨used, hused, hlexeme⟩
  · split at h
    · rename_i hname
      cases h
      refine ⟨c :: cs.takeWhile continuesName, by simp, lexeme_of_plain rfl ?_⟩
      intro c' hc'
      rcases List.mem_cons.mp hc' with rfl | hc'
      · exact isPlain_of_startsName hname
      · exact isPlain_of_continuesName (List.mem_takeWhile_imp hc')
    · split at h
      · rename_i hquote
        split at h
        · rename_i text rest' hread
          cases h
          have hne : c ≠ '\\' := by
            rintro rfl
            simp at hquote
          obtain ⟨used, rfl, hafter, hdepth⟩ := readString_eq_some hne hread
          have hnext : Quoting.outside.next c = .inside c := if_pos hquote
          have hweight : Quoting.outside.weight c = 0 := by
            rcases hquote with rfl | rfl <;> rfl
          refine ⟨c :: used, rfl, ?_, ?_⟩
          · rw [Quoting.after, List.foldl_cons, hnext]
            exact hafter
          · rw [Quoting.depth, hweight, hnext, hdepth]
            rfl
        · cases h
      · split at h
        · rename_i found hsign
          cases h
          exact readSign_lexeme hsign
        · cases h

theorem readToken_unterminated (h : readToken c cs = .error .unterminatedString) :
    (c = '\'' ∨ c = '"') ∧ readString c cs = none := by
  unfold readToken at h
  split at h
  · cases h
  · split at h
    · cases h
    · split at h
      · rename_i hquote
        split at h
        · cases h
        · rename_i hread
          exact ⟨hquote, hread⟩
      · split at h <;> cases h

end

/-! ## All tokens -/

/-- No string stays open, and the tokens close `n` brackets that were open before them. -/
structure ClosesAll (n : Int) (read : Except SyntaxFault (List Token)) : Prop where
  strings : read ≠ .error .unterminatedString
  nonneg : ∀ ts before, read = .ok ts → before <+: ts → 0 ≤ n + bracketDepth before
  closed : ∀ ts, read = .ok ts → n + bracketDepth ts = 0

theorem closesAll_nil {n : Int} (h : n = 0) : ClosesAll n (.ok []) := by
  refine ⟨nofun, ?_, ?_⟩
  · intro ts before hts hbefore
    cases hts
    rw [List.prefix_nil.mp hbefore, h]
    decide
  · intro ts hts
    cases hts
    rw [h]
    rfl

theorem closesAll_error {n : Int} {fault : SyntaxFault} (h : fault ≠ .unterminatedString) :
    ClosesAll n (.error fault) :=
  ⟨fun heq => h (Except.error.inj heq), nofun, nofun⟩

theorem ClosesAll.cons {n : Int} {t : Token} {read : Except SyntaxFault (List Token)} (hn : 0 ≤ n)
    (h : ClosesAll (n + t.weight) read) :
    ClosesAll n (read.map (t :: ·)) := by
  cases read with
  | error fault => exact closesAll_error fun heq => h.strings (by rw [heq])
  | ok tokens =>
    have hclosed := h.closed tokens rfl
    refine ⟨nofun, ?_, ?_⟩
    · intro ts before hts hbefore
      cases hts
      rcases List.prefix_cons_iff.mp hbefore with rfl | ⟨before, rfl, htail⟩
      · simpa using hn
      · have hnonneg := h.nonneg tokens before rfl htail
        rw [bracketDepth_cons]
        omega
    · intro ts hts
      cases hts
      rw [bracketDepth_cons]
      omega

/-- The brackets that are open where a text begins are closed in its tokens as they are in its
characters. -/
theorem closesAll_tokenizeFrom {fuel : Nat} {n : Int} {cs : List Char} (hn : 0 ≤ n)
    (h : Quoting.outside.Closes n cs) : ClosesAll n (tokenizeFrom fuel cs) := by
  induction fuel generalizing n cs with
  | zero =>
    cases cs with
    | nil => exact closesAll_nil (Quoting.closes_nil.mp h).2
    | cons c cs => exact closesAll_error nofun
  | succ fuel ih =>
    cases cs with
    | nil => exact closesAll_nil (Quoting.closes_nil.mp h).2
    | cons c cs =>
      rw [tokenizeFrom]
      split
      · rename_i hblank
        obtain ⟨hquote, hopen, hclose⟩ : IsPlain c := plain_of_class hblank (by decide)
        have hrest := (Quoting.closes_cons.mp h).2
        simp only [Quoting.next, if_neg hquote, Quoting.weight, if_neg hopen, if_neg hclose,
          Int.add_zero] at hrest
        exact ih hn hrest
      · split
        · rename_i fault hfault
          refine closesAll_error ?_
          rintro rfl
          obtain ⟨hquote, hnone⟩ := readToken_unterminated hfault
          have hafter := (Quoting.closes_cons.mp h).2.outside
          simp only [Quoting.next, if_pos hquote] at hafter
          exact readString_ne_none hafter hnone
        · rename_i t rest hread
          obtain ⟨used, hused, hlexeme⟩ := readToken_lexeme hread
          rw [hused] at h
          have hopen := h.nonneg hn
          have hrest := h.append
          rw [hlexeme.depth] at hopen
          rw [hlexeme.after, hlexeme.depth] at hrest
          have hcons := (ih hopen hrest).cons hn
          cases hread : tokenizeFrom fuel rest <;> simpa [hread, Except.map] using hcons

/-- A text that is closed by the bracket after it has no string that stays open, and its tokens are
balanced. -/
theorem tokenize_of_closes {cs : List Char} (h : Quoting.outside.Closes 0 cs) :
    tokenize cs ≠ .error .unterminatedString ∧ ∀ ts, tokenize cs = .ok ts → Balanced ts := by
  have hread : ClosesAll 0 (tokenize cs) := closesAll_tokenizeFrom (Int.le_refl 0) h
  refine ⟨hread.strings, fun ts hts => ⟨fun before hbefore => ?_, ?_⟩⟩
  · have hnonneg := hread.nonneg ts before hts hbefore
    omega
  · have hclosed := hread.closed ts hts
    omega

end WorkflowEngine.Expression
