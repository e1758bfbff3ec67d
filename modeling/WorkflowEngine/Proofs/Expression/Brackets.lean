import WorkflowEngine.Expression.Template

/-!
# Where a span ends

A bracket counts when it stands outside quotes. `Closes` says, by counting, that the bracket after
a text is the first one that balances what was open before it; and that is where the scanner stops
(`splitClosing_eq_some`).
-/

namespace WorkflowEngine.Expression

/-- Where reading stands with regard to quotes. -/
inductive Quoting where
  | outside
  | inside (quote : Char)
  /-- After a backslash, which hides the next character. -/
  | escaped (quote : Char)
  deriving DecidableEq

namespace Quoting

def next : Quoting → Char → Quoting
  | outside, c => if c = '\'' ∨ c = '"' then inside c else outside
  | inside quote, c =>
    if c = '\\' then escaped quote else if c = quote then outside else inside quote
  | escaped quote, _ => inside quote

def after (q : Quoting) (cs : List Char) : Quoting := cs.foldl next q

/-- What a character adds to the number of open brackets. -/
def weight : Quoting → Char → Int
  | outside, c => if c = '[' then 1 else if c = ']' then -1 else 0
  | _, _ => 0

/-- How many brackets a text opens, less those that it closes. -/
def depth (q : Quoting) : List Char → Int
  | [] => 0
  | c :: rest => q.weight c + depth (q.next c) rest

/-- The bracket after `cs` stands outside quotes and is the first one that balances `open` brackets
and one more. -/
structure Closes (q : Quoting) («open» : Int) (cs : List Char) : Prop where
  outside : q.after cs = outside
  balanced : «open» + q.depth cs = 0
  first : ∀ before rest, cs = before ++ ']' :: rest → q.after before = .outside →
    0 < «open» + q.depth before

variable {q : Quoting} {n : Int} {c : Char} {cs rest inside after : List Char}

theorem closes_nil : q.Closes n [] ↔ q = .outside ∧ n = 0 := by
  constructor
  · intro h
    have hbalanced := h.balanced
    exact ⟨h.outside, by simpa [depth] using hbalanced⟩
  · rintro ⟨rfl, rfl⟩
    refine ⟨rfl, rfl, ?_⟩
    intro before rest h
    simp at h

theorem closes_cons : q.Closes n (c :: cs) ↔
    (q = .outside → c = ']' → 0 < n) ∧ (q.next c).Closes (n + q.weight c) cs := by
  constructor
  · intro h
    have hbalanced := h.balanced
    simp only [depth] at hbalanced
    refine ⟨?_, h.outside, by omega, ?_⟩
    · rintro rfl rfl
      have hfirst := h.first [] cs rfl rfl
      simpa [depth] using hfirst
    · intro before rest heq houtside
      have hfirst := h.first (c :: before) rest (by rw [heq]; rfl) houtside
      simp only [depth] at hfirst
      omega
  · rintro ⟨hfirst, h⟩
    have hbalanced := h.balanced
    refine ⟨h.outside, by simp only [depth]; omega, ?_⟩
    intro before rest heq houtside
    cases before with
    | nil =>
      cases heq
      have hpos := hfirst houtside rfl
      simpa [depth] using hpos
    | cons c' before =>
      cases heq
      have hpos := h.first before rest rfl houtside
      simp only [depth]
      omega

/-- A character that does not end the text is part of it. -/
theorem map_cons_eq_some {split : Option (List Char × List Char)}
    (hsplit : ∀ inside after, split = some (inside, after) ↔
      rest = inside ++ ']' :: after ∧ (q.next c).Closes (n + q.weight c) inside)
    (hgoes : q = .outside → c = ']' → 0 < n) :
    (split.map fun (inside, after) => (c :: inside, after)) = some (inside, after) ↔
      c :: rest = inside ++ ']' :: after ∧ q.Closes n inside := by
  cases inside with
  | nil =>
    rw [closes_nil]
    constructor
    · intro h
      simp at h
    · rintro ⟨heq, rfl, rfl⟩
      cases heq
      exact absurd (hgoes rfl rfl) (by omega)
  | cons c' inside =>
    rw [closes_cons]
    constructor
    · intro h
      obtain ⟨⟨inside', after'⟩, hsome, heq⟩ := Option.map_eq_some_iff.mp h
      cases heq
      obtain ⟨rfl, hcloses⟩ := (hsplit inside after).mp hsome
      exact ⟨rfl, hgoes, hcloses⟩
    · rintro ⟨heq, -, hcloses⟩
      cases heq
      rw [(hsplit inside after).mpr ⟨rfl, hcloses⟩]
      rfl

end Quoting

open Quoting (closes_nil closes_cons map_cons_eq_some)

mutual

/-- The scanner stops at the first bracket that balances those that are open. -/
theorem splitClosing_eq_some {cs inside after : List Char} {depth : Nat} :
    splitClosing depth cs = some (inside, after) ↔
      cs = inside ++ ']' :: after ∧ Quoting.outside.Closes depth inside := by
  cases cs with
  | nil => simp [splitClosing]
  | cons c rest =>
    rw [splitClosing.eq_def]
    dsimp only
    split
    · rename_i hclose
      subst hclose
      cases depth with
      | zero =>
        cases inside with
        | nil => simp [closes_nil]
        | cons c' inside =>
          rw [closes_cons]
          constructor
          · intro h
            simp at h
          · rintro ⟨heq, hpos, -⟩
            cases heq
            exact absurd (hpos rfl rfl) (by decide)
      | succ outer =>
        refine map_cons_eq_some ?_ (by intros; omega)
        intro inside after
        have hdepth : (outer : Int) + 1 + -1 = outer := by omega
        rw [splitClosing_eq_some]
        simp [Quoting.next, Quoting.weight, hdepth]
    · rename_i hclose
      split
      · rename_i hopen
        subst hopen
        refine map_cons_eq_some ?_ (by intro _ h; exact absurd h hclose)
        intro inside after
        rw [splitClosing_eq_some]
        simp [Quoting.next, Quoting.weight]
      · rename_i hopen
        split
        · rename_i hquote
          refine map_cons_eq_some ?_ (by intro _ h; exact absurd h hclose)
          intro inside after
          rw [splitQuoted_eq_some (by rcases hquote with rfl | rfl <;> decide)]
          simp [Quoting.next, Quoting.weight, hquote, hopen, hclose]
        · rename_i hquote
          refine map_cons_eq_some ?_ (by intro _ h; exact absurd h hclose)
          intro inside after
          rw [splitClosing_eq_some]
          simp [Quoting.next, Quoting.weight, hquote, hopen, hclose]

theorem splitQuoted_eq_some {cs inside after : List Char} {quote : Char} {depth : Nat}
    (hquote : quote ≠ '\\') :
    splitQuoted quote depth cs = some (inside, after) ↔
      cs = inside ++ ']' :: after ∧ (Quoting.inside quote).Closes depth inside := by
  rw [splitQuoted.eq_def]
  split
  · simp
  · rename_i c rest
    -- the backslash and the character that it hides go together
    have hrest : ∀ inside after, (splitQuoted quote depth rest).map
        (fun (inside, after) => (c :: inside, after)) = some (inside, after) ↔
          c :: rest = inside ++ ']' :: after ∧ (Quoting.escaped quote).Closes depth inside := by
      intro inside after
      refine map_cons_eq_some ?_ (by simp)
      intro inside after
      rw [splitQuoted_eq_some hquote]
      simp [Quoting.next, Quoting.weight]
    have hboth : (splitQuoted quote depth rest).map
        (fun (inside, after) => ('\\' :: c :: inside, after)) =
        ((splitQuoted quote depth rest).map fun (inside, after) => (c :: inside, after)).map
          fun (inside, after) => ('\\' :: inside, after) := by
      rw [Option.map_map]
      rfl
    rw [hboth]
    refine map_cons_eq_some ?_ (by simp)
    intro inside after
    rw [hrest]
    simp [Quoting.next, Quoting.weight]
  · rename_i c rest hescape
    split
    · rename_i hend
      subst hend
      refine map_cons_eq_some ?_ (by simp)
      intro inside after
      rw [splitClosing_eq_some]
      simp [Quoting.next, Quoting.weight, hquote]
    · rename_i hgoes
      refine map_cons_eq_some ?_ (by simp)
      intro inside after
      rw [splitQuoted_eq_some hquote]
      by_cases hc : c = '\\'
      · -- a backslash that hides nothing is the last character
        have hnil : rest = [] := by
          cases rest with
          | nil => rfl
          | cons c' rest => exact absurd rfl (hescape c' rest hc)
        simp [hnil]
      · simp [Quoting.next, Quoting.weight, hc, hgoes]

end

end WorkflowEngine.Expression
