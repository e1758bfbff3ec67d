import WorkflowEngine.Proofs.Decimal.Layout

/-!
# Numerals that are not a number

A decimal always rounds to a double that is a number, however large it is (`nearest_ne_nan`), and so
does an integer. So the only texts that denote "not a number" are those that spell it
(`readFloatChars_eq_nan`).
-/

namespace WorkflowEngine.Decimal

open Float.Model (UnpackedFloat Format)
open Float.Model.UnpackedFloat (Sign)

variable {x y : Float} {u : UnpackedFloat}

theorem eq_nan_iff : x = Float.nan ↔ x.toModel.unpack = .notANumber := by
  have hmodel : x.isNaN = x.toModel.unpack.isNaN := rfl
  rw [← UnpackedFloat.isNaN_iff, ← hmodel, Float.isNaN_eq_decide_eq_nan, decide_eq_true_iff]

/-- Only "not a number" is packed into the bits of "not a number". -/
theorem pack_ne_packedNaN (h : u ≠ .notANumber) :
    UnpackedFloat.pack .binary64 u ≠ UnpackedFloat.packedNaN .binary64 := by
  have hinfinity : ∀ s : Sign,
      UnpackedFloat.packedInfinity .binary64 s ≠ UnpackedFloat.packedNaN .binary64 := by
    decide
  have hexponent : ∀ (s : Sign) (exponent : BitVec 11) (mantissa : BitVec 52), exponent ≠ -1#11 →
      UnpackedFloat.packComponents .binary64 s exponent mantissa ≠
        UnpackedFloat.packedNaN .binary64 := by
    intro s exponent mantissa hne heq
    have hexponent := congrArg UnpackedFloat.unpackExponent heq
    rw [UnpackedFloat.unpackExponent_packComponents, UnpackedFloat.packedNaN,
      UnpackedFloat.unpackExponent_packComponents] at hexponent
    exact hne hexponent
  match u with
  | .notANumber => exact absurd rfl h
  | .infinity s => exact hinfinity s
  | .zero s => exact hexponent s _ _ (by decide)
  | .finite s m e hm =>
    rw [UnpackedFloat.pack]
    dsimp only
    split
    · exact hinfinity s
    · rename_i hsmall
      split
      · refine hexponent s _ _ ?_
        intro heq
        have hbits := congrArg BitVec.toNat heq
        have hones : (-1#11).toNat = 2 ^ 11 - 1 := by decide
        have hwidth : 2 ^ Format.binary64.exponentBits = 2 ^ 11 := by decide
        rw [BitVec.toNat_ofNat, hones, hwidth] at hbits
        rw [hwidth] at hsmall
        omega
      · exact hexponent s _ _ (by decide)

theorem unpack_pack_ne_nan (h : u ≠ .notANumber) :
    (Float.Model.pack u).unpack ≠ .notANumber := by
  intro hnan
  refine pack_ne_packedNaN h ?_
  exact (UnpackedFloat.unpack_eq_notANumber_iff_of_valid (Float.Model.pack u).valid).mp hnan

theorem ofModel_pack_ne_nan (h : u ≠ .notANumber) :
    (Float.ofModel (Float.Model.pack u)) ≠ Float.nan :=
  fun hnan => unpack_pack_ne_nan h (eq_nan_iff.mp hnan)

theorem round_ne_nan (s : Sign) (m : Nat) (e : Int) (accuracy : UnpackedFloat.Accuracy) :
    UnpackedFloat.roundWithAccuracy .binary64 s m e accuracy ≠ .notANumber := by
  rw [UnpackedFloat.roundWithAccuracy]
  dsimp only
  split <;> nofun

theorem neg_ne_nan (hx : x ≠ Float.nan) : -x ≠ Float.nan := by
  refine ofModel_pack_ne_nan ?_
  rw [Ne, eq_nan_iff] at hx
  unfold UnpackedFloat.neg
  split <;> first | contradiction | nofun

/-- A double that stands for a number other than zero. -/
def IsFiniteNonzero (x : Float) : Prop := ∃ s m e h, x.toModel.unpack = .finite s m e h

theorem mul_ne_nan (hx : x ≠ Float.nan) (hy : IsFiniteNonzero y) : x * y ≠ Float.nan := by
  obtain ⟨s, m, e, h, hy⟩ := hy
  rw [Ne, eq_nan_iff] at hx
  refine ofModel_pack_ne_nan ?_
  rw [hy]
  unfold UnpackedFloat.mul
  split <;> first | contradiction | exact round_ne_nan _ _ _ _ | nofun

theorem div_ne_nan (hx : x ≠ Float.nan) (hy : IsFiniteNonzero y) : x / y ≠ Float.nan := by
  obtain ⟨s, m, e, h, hy⟩ := hy
  rw [Ne, eq_nan_iff] at hx
  refine ofModel_pack_ne_nan ?_
  rw [hy]
  unfold UnpackedFloat.div
  split <;> first | contradiction | exact round_ne_nan _ _ _ _ | nofun

theorem powersOfTen_finite : ∀ e : Fin Float.exactlyRepresentablePowersOfTen.size,
    (match Float.exactlyRepresentablePowersOfTen[e].toModel.unpack with
      | .finite _ _ _ _ => true
      | _ => false) = true := by
  decide +kernel

/-- The powers of ten that doubles hold exactly. -/
theorem powerOfTen_finite {e : Nat} (he : e < Float.exactlyRepresentablePowersOfTen.size) :
    IsFiniteNonzero Float.exactlyRepresentablePowersOfTen[e] := by
  have h := powersOfTen_finite ⟨e, he⟩
  split at h
  · rename_i hfinite
    exact ⟨_, _, _, _, hfinite⟩
  · cases h

theorem toFloat_ne_nan (n : UInt64) : n.toFloat ≠ Float.nan := by
  refine ofModel_pack_ne_nan ?_
  rw [UnpackedFloat.ofUInt64, UnpackedFloat.ofNat, UnpackedFloat.ofInt, UnpackedFloat.normalize]
  split
  · exact round_ne_nan _ _ _ _
  · nofun
  · exact round_ne_nan _ _ _ _

theorem ofScientific_unpacked_ne_nan (m : Nat) (e : Int) :
    UnpackedFloat.ofScientific .binary64 m e ≠ .notANumber := by
  unfold UnpackedFloat.ofScientific
  split
  · nofun
  · split
    · nofun
    · split
      · nofun
      · split
        · exact round_ne_nan _ _ _ _
        · exact round_ne_nan _ _ _ _

theorem ofScientific_ne_nan (m : Nat) (s : Bool) (e : Nat) :
    Float.ofScientific m s e ≠ Float.nan := by
  unfold Float.ofScientific
  split
  · rename_i h
    dsimp only
    split
    · exact div_ne_nan (toFloat_ne_nan _) (powerOfTen_finite _)
    · exact mul_ne_nan (toFloat_ne_nan _) (powerOfTen_finite _)
  · exact ofModel_pack_ne_nan (ofScientific_unpacked_ne_nan _ _)

theorem nearest_ne_nan (n : Nat) (e : Int) : nearest n e ≠ Float.nan := by
  unfold nearest
  split <;> exact ofScientific_ne_nan _ _ _

theorem ofInt_ne_nan (i : Int) : Float.ofInt i ≠ Float.nan := by
  cases i with
  | ofNat n => exact ofScientific_ne_nan _ _ _
  | negSucc n => exact neg_ne_nan (ofScientific_ne_nan _ _ _)

/-! ## Texts -/

section

variable {cs : List Char}

theorem readMagnitude_ne_nan : readMagnitude cs ≠ some Float.nan := by
  rw [readMagnitude_eq]
  intro h
  obtain ⟨d, -, hd⟩ := Option.map_eq_some_iff.mp h
  exact nearest_ne_nan _ _ hd

theorem readUnsigned_eq_nan :
    readUnsigned cs = some Float.nan ↔ cs.map Char.toLower = ['n', 'a', 'n'] := by
  have hword : ∀ word : String,
      String.ofList (cs.map Char.toLower) = word ↔ cs.map Char.toLower = word.toList := fun word => by
    rw [← String.toList_inj, String.toList_ofList]
  unfold readUnsigned
  simp only [hword]
  split
  · rename_i h
    have hinfinity : infinity ≠ Float.nan := by decide
    rw [Option.some_inj, iff_false_left hinfinity]
    rcases h with h | h <;> rw [h] <;> decide
  · split
    · rename_i h
      have hnan : notANumber = Float.nan := by decide
      rw [hnan]
      exact iff_of_true rfl h
    · rename_i h
      exact iff_of_false readMagnitude_ne_nan h

/-- A text without its sign. -/
def unsigned : List Char → List Char
  | '-' :: rest => rest
  | '+' :: rest => rest
  | cs => cs

/-- "Not a number" is spelled by its word in any case, with or without a sign, and by no other
text. -/
theorem readFloatChars_eq_nan : readFloatChars cs = some Float.nan ↔
    (unsigned cs).map Char.toLower = ['n', 'a', 'n'] := by
  unfold readFloatChars
  split
  · rw [unsigned, ← readUnsigned_eq_nan, Option.map_eq_some_iff]
    constructor
    · rintro ⟨x, hx, hneg⟩
      by_cases hnan : x = Float.nan
      · rw [hx, hnan]
      · exact absurd hneg (neg_ne_nan hnan)
    · intro hx
      exact ⟨_, hx, by decide⟩
  · exact readUnsigned_eq_nan
  · rename_i hminus hplus
    rw [unsigned.eq_3 _ hminus hplus]
    exact readUnsigned_eq_nan

end

end WorkflowEngine.Decimal
