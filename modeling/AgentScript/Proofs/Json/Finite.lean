import AgentScript.Proofs.Json.Numbers
import Mathlib

/-!
# Decoded numbers are finite

A double that is read is finite: a product that is infinite is refused, and a quotient is never too
large (`isFinite_toFloat_of_value`).  The argument for quotients is about exponents only.  A double is
finite if its exponent is not too large (`upTo_unpack_pack`), rounding raises an exponent by a
bounded amount (`upTo_roundWithAccuracy`), and the significand that is divided, having 64 bits, starts
far below the largest exponent.
-/

namespace AgentScript.Json

open Float.Model UnpackedFloat

/-- Finite, with an exponent of at most `bound`. -/
def UpTo (bound : Int) : UnpackedFloat → Prop
  | .zero _ => True
  | .finite _ _ e _ => e ≤ bound
  | _ => False

variable {bound bound' : Int}

lemma UpTo.mono {u : UnpackedFloat} (h : UpTo bound u) (hle : bound ≤ bound') : UpTo bound' u := by
  cases u with
  | zero => trivial
  | finite s m e hm => exact Int.le_trans h hle
  | infinity => exact h
  | notANumber => exact h

lemma UpTo.isFinite {u : UnpackedFloat} (h : UpTo bound u) : u.isFinite = true := by
  cases u with
  | zero => rfl
  | finite => rfl
  | infinity => exact h.elim
  | notANumber => exact h.elim

/-! ## Packing -/

lemma exponentBias_binary64 : Format.binary64.exponentBias = 1023 := by decide

lemma unpackExponent_ofNat {s : Sign} {m : BitVec Format.binary64.mantissaBitsWithoutImplicit}
    {e : Nat} (h : e < 2 ^ 11) :
    (unpackExponent (packComponents Format.binary64 s (BitVec.ofNat 11 e) m)).toNat = e := by
  rw [unpackExponent_packComponents, BitVec.toNat_ofNat, Nat.mod_eq_of_lt h]

/-- Bits with an exponent that does not stand for infinity. -/
lemma upTo_unpack {b : BitVec Format.binary64.numBits} {e : Nat}
    (he : (unpackExponent b).toNat = e) (h : e < 2047) (hbound : (e : Int) - 1075 ≤ bound)
    (hlow : -1074 ≤ bound) : UpTo bound (UnpackedFloat.unpack Format.binary64 b) := by
  subst he
  have hmax : unpackExponent b ≠ -1#_ := by
    intro heq
    rw [heq] at h
    exact absurd h (by decide)
  delta UnpackedFloat.unpack
  dsimp only
  rw [if_neg hmax]
  split_ifs with hzero hm
  · trivial
  · change ((unpackExponent b).toNat : Int) - ((1023 : Nat) + (52 : Nat)) + 1 ≤ bound
    rw [hzero]
    exact hlow
  · exact hbound

/-- A double keeps its exponent when it is packed. -/
lemma upTo_unpack_pack {u : UnpackedFloat} (h : UpTo bound u) (hlow : -1074 ≤ bound)
    (hhigh : bound ≤ 971) :
    UpTo bound (UnpackedFloat.unpack Format.binary64 (UnpackedFloat.pack Format.binary64 u)) := by
  cases u with
  | zero s =>
    have hzero : (unpackExponent (packedZero Format.binary64 s)).toNat = 0 :=
      unpackExponent_ofNat (by decide)
    exact upTo_unpack hzero (by decide) (by omega) hlow
  | finite s m e hm =>
    rw [UpTo] at h
    delta UnpackedFloat.pack
    dsimp only
    rw [exponentBias_binary64]
    split_ifs with hinfinite hnormal
    · omega
    · have hexponent : (e + (1023 : Nat) + (52 : Nat)).toNat < 2047 := by omega
      exact upTo_unpack (unpackExponent_ofNat (by omega)) hexponent (by omega) hlow
    · exact upTo_unpack (unpackExponent_ofNat (by decide)) (by decide) (by omega) hlow
  | infinity => exact h.elim
  | notANumber => exact h.elim

/-- A finite double whose exponent is too large is packed as an infinity. -/
lemma isInf_or_isFinite_unpack_pack {u : UnpackedFloat} (h : u.isFinite = true) :
    (UnpackedFloat.unpack Format.binary64 (UnpackedFloat.pack Format.binary64 u)).isInf = true ∨
      (UnpackedFloat.unpack Format.binary64 (UnpackedFloat.pack Format.binary64 u)).isFinite =
        true := by
  by_cases hbound : UpTo 971 u
  · exact .inr (upTo_unpack_pack hbound (by decide) (by decide)).isFinite
  · cases u with
    | zero s => exact (hbound trivial).elim
    | finite s m e hm =>
      rw [UpTo] at hbound
      have hinfinite : 2 ^ 11 ≤ (e + (1023 : Nat) + (52 : Nat)).toNat + 1 := by omega
      have hpack : UnpackedFloat.pack Format.binary64 (.finite s m e hm) =
          packedInfinity Format.binary64 s := by
        delta UnpackedFloat.pack
        exact if_pos hinfinite
      rw [hpack]
      cases s <;> exact .inl (by decide)
    | infinity => cases h
    | notANumber => cases h

/-- What is unpacked has a mantissa of 53 bits and an exponent that fits. -/
lemma unpack_eq_finite {b : BitVec Format.binary64.numBits} {s : Sign} {m : Nat} {e : Int}
    {hm : 0 < m} (h : UnpackedFloat.unpack Format.binary64 b = .finite s m e hm) :
    m < 2 ^ 53 ∧ e ≤ 971 := by
  have hnormal : (1#1 ++ unpackMantissa b).toNat < 2 ^ 53 := (1#1 ++ unpackMantissa b).isLt
  have hsubnormal : (unpackMantissa b).toNat < 2 ^ 52 := (unpackMantissa b).isLt
  have hexponent : (unpackExponent b).toNat < 2 ^ 11 := (unpackExponent b).isLt
  have hbias : (Format.binary64.exponentBias : Int) + (52 : Nat) = 1075 := by decide
  delta UnpackedFloat.unpack at h
  dsimp only at h
  rw [hbias] at h
  split_ifs at h with hmax hinf hzero hzero'
  · obtain ⟨-, rfl, rfl⟩ := UnpackedFloat.finite.inj h
    rw [hzero]
    exact ⟨by omega, by decide⟩
  · obtain ⟨-, rfl, rfl⟩ := UnpackedFloat.finite.inj h
    have hne : (unpackExponent b).toNat ≠ 2 ^ 11 - 1 := by
      intro hall
      exact hmax (BitVec.toNat_inj.1 hall)
    exact ⟨hnormal, by omega⟩

/-- A double is up to the largest exponent if it is finite. -/
lemma upTo_of_isFinite {b : BitVec Format.binary64.numBits}
    (h : (UnpackedFloat.unpack Format.binary64 b).isFinite = true) :
    UpTo 971 (UnpackedFloat.unpack Format.binary64 b) := by
  cases hu : UnpackedFloat.unpack Format.binary64 b with
  | zero => trivial
  | finite s m e hm => exact (unpack_eq_finite hu).2
  | infinity => rw [hu] at h; cases h
  | notANumber => rw [hu] at h; cases h

/-! ## Rounding -/

lemma shiftToExponent_snd (m : Nat) (e target : Int) (accuracy : Accuracy) :
    (shiftToExponent m e accuracy target).2 = max e target := by
  simp only [shiftToExponent]
  omega

lemma mantissa_shiftRight (em : ExtendedMantissa) (n : Nat) :
    (em >>> n).mantissa = em.mantissa / 2 ^ n := by
  induction n with
  | zero => exact (Nat.div_one _).symm
  | succ n ih =>
    have hone : (em >>> (n + 1)).mantissa = (em >>> n).mantissa / 2 := rfl
    rw [hone, ih, Nat.div_div_eq_div_mul, Nat.pow_succ]

lemma le_roundedMantissa (em : ExtendedMantissa) : em.mantissa ≤ em.roundedMantissa := by
  obtain ⟨m, round, sticky⟩ := em
  cases round <;> cases sticky <;>
    simp only [ExtendedMantissa.roundedMantissa, ExtendedMantissa.accuracy,
      Accuracy.roundToNearestEven] <;> omega

lemma roundedMantissa_le (em : ExtendedMantissa) : em.roundedMantissa ≤ em.mantissa + 1 := by
  obtain ⟨m, round, sticky⟩ := em
  cases round <;> cases sticky <;>
    simp only [ExtendedMantissa.roundedMantissa, ExtendedMantissa.accuracy,
      Accuracy.roundToNearestEven] <;> omega

lemma mantissa_ofMantissaAndAccuracy (m : Nat) (accuracy : Accuracy) :
    (ExtendedMantissa.ofMantissaAndAccuracy m accuracy).mantissa = m := by
  unfold ExtendedMantissa.ofMantissaAndAccuracy
  split <;> rfl

lemma shiftToExponent_fst (m : Nat) (e target : Int) (accuracy : Accuracy) :
    (shiftToExponent m e accuracy target).1.mantissa = m / 2 ^ (target - e).toNat := by
  rw [shiftToExponent]
  dsimp only
  rw [mantissa_shiftRight, mantissa_ofMantissaAndAccuracy]

lemma targetExponent_binary64 (m : Nat) (e : Int) :
    Format.binary64.targetExponent (totalExponent m e) = max (m.log2 + 1 + e - 53) (-1074) := by
  simp only [Format.targetExponent, totalExponent]
  rfl

/-- Rounding raises an exponent by no more than twice the bits of the mantissa. -/
lemma upTo_roundWithAccuracy {m bits : Nat} {e : Int} (s : Sign) (accuracy : Accuracy)
    (hm : m < 2 ^ bits) (he : e ≤ bound) (hlow : -1074 ≤ bound) :
    UpTo (bound + 2 * bits) (roundWithAccuracy Format.binary64 s m e accuracy) := by
  have hlog : ∀ n ≤ m + 1, n.log2 ≤ bits := by
    intro n hn
    by_contra hlt
    have hpow : 2 ^ (bits + 1) ≤ n := by
      rw [← Nat.le_log2]
      · omega
      · rintro rfl
        simp at hlt
    have hdouble : 2 ^ (bits + 1) = 2 * 2 ^ bits := Nat.pow_succ'
    omega
  obtain ⟨em, e₁, hfirst⟩ : ∃ em e₁, shiftToTargetExponent Format.binary64 m e accuracy = (em, e₁) :=
    ⟨_, _, rfl⟩
  have hexponent : e₁ = max e (max (m.log2 + 1 + e - 53) (-1074)) := by
    rw [← targetExponent_binary64, ← shiftToExponent_snd m e _ accuracy]
    exact congrArg Prod.snd hfirst.symm
  have hmantissa : em.mantissa ≤ m := by
    have hshift := shiftToExponent_fst m e (Format.binary64.targetExponent (totalExponent m e)) accuracy
    rw [← shiftToTargetExponent, hfirst] at hshift
    exact hshift.trans_le (Nat.div_le_self _ _)
  have hlog₁ := hlog m (Nat.le_succ m)
  have hlog₂ := hlog em.roundedMantissa
    (Nat.le_trans (roundedMantissa_le em) (Nat.succ_le_succ hmantissa))
  unfold roundWithAccuracy
  rw [hfirst]
  dsimp only
  split_ifs
  · trivial
  · rw [UpTo, shiftToTargetExponent, shiftToExponent_snd, targetExponent_binary64]
    omega

/-- A mantissa that has at least the bits that fit is shifted to one that has just these. -/
lemma log2_shiftToTargetExponent {m : Nat} {e : Int} (accuracy : Accuracy) (hm : 52 ≤ m.log2)
    (hlow : -1022 ≤ m.log2 + e) :
    (shiftToTargetExponent Format.binary64 m e accuracy).1.mantissa.log2 = 52 ∧
      (shiftToTargetExponent Format.binary64 m e accuracy).2 = m.log2 + e - 52 := by
  have htarget : Format.binary64.targetExponent (totalExponent m e) = m.log2 + e - 52 := by
    rw [targetExponent_binary64]
    omega
  have hne : m ≠ 0 := by
    rintro rfl
    simp at hm
  obtain ⟨k, hk⟩ := Nat.exists_eq_add_of_le hm
  have hshift : (m.log2 + e - 52 - e).toNat = k := by omega
  have hleast : 2 ^ 52 * 2 ^ k ≤ m := by
    rw [← Nat.pow_add, ← hk]
    exact Nat.log2_self_le hne
  have hmost : m < 2 ^ 53 * 2 ^ k := by
    rw [← Nat.pow_add, Nat.add_right_comm 52 1 k, ← hk]
    exact Nat.lt_log2_self
  have hquotient : 2 ^ 52 ≤ m / 2 ^ k := (Nat.le_div_iff_mul_le (Nat.two_pow_pos k)).2 hleast
  rw [shiftToTargetExponent, htarget, shiftToExponent_fst, shiftToExponent_snd, hshift]
  refine ⟨(Nat.log2_eq_iff (by omega)).2 ⟨hquotient, ?_⟩, by omega⟩
  exact (Nat.div_lt_iff_lt_mul (Nat.two_pow_pos k)).2 hmost

/-- Rounding such a mantissa leaves one that has just the bits that fit. -/
lemma exists_roundWithAccuracy {m : Nat} {e : Int} (s : Sign) (accuracy : Accuracy)
    (hm : 52 ≤ m.log2) (hlow : -1022 ≤ m.log2 + e) :
    ∃ m' e' hm', roundWithAccuracy Format.binary64 s m e accuracy = .finite s m' e' hm' ∧
      m'.log2 = 52 ∧ m.log2 + e - 52 ≤ e' ∧ e' ≤ m.log2 + e - 51 := by
  obtain ⟨hfull, hexponent⟩ := log2_shiftToTargetExponent accuracy hm hlow
  obtain ⟨em, e₁, hfirst⟩ : ∃ em e₁, shiftToTargetExponent Format.binary64 m e accuracy = (em, e₁) :=
    ⟨_, _, rfl⟩
  rw [hfirst] at hfull hexponent
  dsimp only at hfull hexponent
  have hne : ∀ n : Nat, n.log2 = 52 → n ≠ 0 := by
    rintro _ hlog rfl
    cases hlog
  obtain ⟨hleast, hmost⟩ := (Nat.log2_eq_iff (hne _ hfull)).1 hfull
  -- Rounding up may yield a power of two that has one bit more.
  have hrounded : 52 ≤ em.roundedMantissa.log2 ∧ em.roundedMantissa.log2 < 54 := by
    have hle := roundedMantissa_le em
    have hge := hleast.trans (le_roundedMantissa em)
    rw [Nat.le_log2 (by omega), Nat.log2_lt (by omega)]
    omega
  obtain ⟨hfull', hexponent'⟩ := log2_shiftToTargetExponent .exact hrounded.1
    (show -1022 ≤ (em.roundedMantissa.log2 : Int) + e₁ by omega)
  refine ⟨_, (shiftToTargetExponent Format.binary64 em.roundedMantissa e₁ .exact).2,
    Nat.pos_of_ne_zero (hne _ hfull'), ?_, hfull', by omega, by omega⟩
  unfold roundWithAccuracy
  rw [hfirst]
  exact dif_neg (hne _ hfull')

/-! ## Sizes -/

/-- The finite doubles with an exponent of at most `bound`. -/
def SizeUpTo (bound : Int) (x : Float) : Prop := UpTo bound x.toModel.unpack

lemma SizeUpTo.isFinite {x : Float} (h : SizeUpTo bound x) : x.isFinite = true := UpTo.isFinite h

lemma sizeUpTo_of_isFinite {x : Float} (h : x.isFinite = true) : SizeUpTo 971 x := upTo_of_isFinite h

/-- A double made of a significand of 64 bits, which is shifted by up to 52 bits before it is
rounded. -/
lemma upTo_round {n : Nat} (s : Sign) (h : n < 2 ^ 64) :
    UpTo 232 (round Format.binary64 s n 0) := by
  have htarget := targetExponent_binary64 n 0
  have hshift : n <<< (0 - Format.binary64.targetExponent (totalExponent n 0)).toNat < 2 ^ 116 := by
    rw [Nat.shiftLeft_eq]
    calc n * 2 ^ (0 - Format.binary64.targetExponent (totalExponent n 0)).toNat
        ≤ n * 2 ^ 52 := Nat.mul_le_mul_left n (Nat.pow_le_pow_right (by decide) (by omega))
      _ < 2 ^ 64 * 2 ^ 52 := Nat.mul_lt_mul_of_pos_right h (by decide)
      _ = 2 ^ 116 := by decide
  have hround : UpTo (0 + 2 * (116 : Nat)) (round Format.binary64 s n 0) :=
    upTo_roundWithAccuracy s .exact hshift (by omega) (by decide)
  exact hround

lemma sizeUpTo_toFloat (n : UInt64) : SizeUpTo 232 n.toFloat := by
  refine upTo_unpack_pack ?_ (by decide) (by decide)
  have hround := upTo_round .positive n.toNat_lt
  rw [UnpackedFloat.ofUInt64, UnpackedFloat.ofNat, UnpackedFloat.ofInt, UnpackedFloat.normalize]
  split
  next hlt => exact absurd (Int.compare_eq_lt.1 hlt) (by omega)
  next => trivial
  next => exact hround

lemma isFinite_neg {x : Float} (h : x.isFinite = true) : (-x).isFinite = true := by
  have hneg : UpTo 971 x.toModel.unpack.neg := by
    have hx : UpTo 971 x.toModel.unpack := sizeUpTo_of_isFinite h
    cases hu : x.toModel.unpack with
    | zero => trivial
    | finite s m e hm => rw [hu] at hx; exact hx
    | infinity => rw [hu] at hx; exact hx
    | notANumber => rw [hu] at hx; exact hx
  exact (upTo_unpack_pack hneg (by decide) (by decide)).isFinite

/-- The quotient of two mantissas of 53 bits is computed with at most 158 bits. -/
lemma divCore_bounds {m₁ m₂ : Nat} (e₁ e₂ : Int) (hm₁ : m₁ < 2 ^ 53) (hm₂ : m₂ < 2 ^ 53) :
    (divCore Format.binary64 m₁ e₁ m₂ e₂).1 < 2 ^ 158 ∧
      (divCore Format.binary64 m₁ e₁ m₂ e₂).2.1 ≤ e₁ - e₂ := by
  have hlog₂ : m₂.log2 ≤ 52 := by
    by_contra hlt
    have hpow := Nat.log2_self_le (n := m₂) (by rintro rfl; simp at hlt)
    have hmono : 2 ^ 53 ≤ 2 ^ m₂.log2 := Nat.pow_le_pow_right (by decide) (by omega)
    omega
  have htarget : Format.binary64.targetExponent (totalExponent m₁ e₁ - totalExponent m₂ e₂) =
      max (totalExponent m₁ e₁ - totalExponent m₂ e₂ - 53) (-1074) := rfl
  simp only [totalExponent] at htarget
  simp only [divCore, totalExponent, htarget]
  constructor
  · apply Nat.lt_of_le_of_lt (Nat.div_le_self _ _)
    rw [Nat.shiftLeft_eq]
    calc m₁ * 2 ^ _ ≤ m₁ * 2 ^ 105 :=
          Nat.mul_le_mul_left m₁ (Nat.pow_le_pow_right (by decide) (by omega))
      _ < 2 ^ 53 * 2 ^ 105 := Nat.mul_lt_mul_of_pos_right hm₁ (by decide)
      _ = 2 ^ 158 := by decide
  · omega

/-- A quotient by a double that is not too small is finite. -/
lemma sizeUpTo_div {x y : Float} {s : Sign} {m : Nat} {e : Int} {hm : 0 < m}
    (hx : SizeUpTo bound x) (hy : y.toModel.unpack = .finite s m e hm)
    (hlow : -1074 ≤ bound - e) (hhigh : bound - e + 316 ≤ 971) :
    SizeUpTo (bound - e + 316) (x / y) := by
  have hdiv : UpTo (bound - e + 316)
      (UnpackedFloat.div Format.binary64 x.toModel.unpack y.toModel.unpack) := by
    rw [hy]
    rw [SizeUpTo] at hx
    cases hu : x.toModel.unpack with
    | zero s₁ => trivial
    | finite s₁ m₁ e₁ h₁ =>
      rw [hu, UpTo] at hx
      obtain ⟨hquotient, hexponent⟩ := divCore_bounds e₁ e (unpack_eq_finite hu).1
        (unpack_eq_finite hy).1
      exact upTo_roundWithAccuracy (s₁ / s) _ hquotient (by omega) hlow
    | infinity => rw [hu] at hx; exact hx.elim
    | notANumber => rw [hu] at hx; exact hx.elim
  exact upTo_unpack_pack hdiv (by omega) hhigh

/-- Only an infinite product of finite doubles is not finite. -/
lemma isFinite_mul {x y : Float} (hx : x.isFinite = true) (hy : y.isFinite = true)
    (h : (x * y).isInf = false) : (x * y).isFinite = true := by
  have hmul :
      (UnpackedFloat.mul Format.binary64 x.toModel.unpack y.toModel.unpack).isFinite = true := by
    change x.toModel.unpack.isFinite = true at hx
    change y.toModel.unpack.isFinite = true at hy
    cases hu : x.toModel.unpack <;> rw [hu] at hx <;> cases hx <;>
      cases hv : y.toModel.unpack <;> rw [hv] at hy <;> cases hy
    all_goals simp only [UnpackedFloat.mul, roundWithAccuracy]
    · rfl
    · rfl
    · rfl
    · split_ifs <;> rfl
  refine (isInf_or_isFinite_unpack_pack hmul).resolve_left fun hinf => ?_
  exact Bool.false_ne_true (h.symm.trans hinf)

/-! ## Powers of ten -/

/-- Finite and not zero, with an exponent of at least `low`. -/
def isFiniteFrom (low : Int) : UnpackedFloat → Bool
  | .finite _ _ e _ => low ≤ e
  | _ => false

lemma exists_of_isFiniteFrom {low : Int} {u : UnpackedFloat} (h : isFiniteFrom low u = true) :
    ∃ s m e hm, u = .finite s m e hm ∧ low ≤ e := by
  cases u with
  | finite s m e hm => exact ⟨s, m, e, hm, rfl, of_decide_eq_true h⟩
  | zero => cases h
  | infinity => cases h
  | notANumber => cases h

/-- A double with a full mantissa keeps its exponent when it is packed. -/
lemma isFiniteFrom_unpack_pack {s : Sign} {m : Nat} {e low : Int} (hm : 0 < m) (hfull : m.log2 = 52)
    (hlow : low ≤ e) (hleast : -1074 ≤ e) (hmost : e ≤ 971) :
    isFiniteFrom low
      (UnpackedFloat.unpack Format.binary64 (UnpackedFloat.pack Format.binary64 (.finite s m e hm))) =
        true := by
  obtain ⟨biased, hbiased⟩ : ∃ biased : Nat, e + 1075 = biased := Int.eq_ofNat_of_zero_le (by omega)
  have hpack : UnpackedFloat.pack Format.binary64 (.finite s m e hm) =
      packComponents Format.binary64 s (BitVec.ofNat 11 biased) (BitVec.ofNat 52 m) := by
    have hexponent : (e + (1023 : Nat) + (52 : Nat)).toNat = biased := by omega
    delta UnpackedFloat.pack
    dsimp only
    rw [exponentBias_binary64, hexponent, if_neg (by omega), hfull]
    exact if_pos rfl
  have htoNat : (unpackExponent (packComponents Format.binary64 s (BitVec.ofNat 11 biased)
      (BitVec.ofNat 52 m))).toNat = biased := unpackExponent_ofNat (by omega)
  rw [hpack]
  generalize packComponents Format.binary64 s (BitVec.ofNat 11 biased) (BitVec.ofNat 52 m) = b at *
  have hinfinite : unpackExponent b ≠ -1#11 := by
    intro heq
    have hones : (-1#11).toNat = 2047 := rfl
    rw [heq] at htoNat
    omega
  have hsubnormal : unpackExponent b ≠ 0#11 := by
    intro heq
    have hzeros : (0#11).toNat = 0 := rfl
    rw [heq] at htoNat
    omega
  delta UnpackedFloat.unpack
  dsimp only
  rw [if_neg hinfinite, if_neg hsubnormal, isFiniteFrom, htoNat, decide_eq_true_eq]
  change low ≤ (biased : Int) - ((1023 : Nat) + (52 : Nat))
  omega

/-- Where a power of ten is not looked up, it is rounded from the number shifted by 53 bits.  The bound
is that of `10 ^ 31 < 2 ^ 103`. -/
lemma log2_shifted_powerOfTen {n k : Nat} (h : n ≤ 31 * k + 28) :
    53 ≤ (1 <<< 53 * 10 ^ n).log2 ∧ (1 <<< 53 * 10 ^ n).log2 < 53 + (103 * k + 94) := by
  have hpos : 0 < 10 ^ n := Nat.pow_pos (by decide)
  have hne : 1 <<< 53 * 10 ^ n ≠ 0 := Nat.mul_ne_zero (by decide) hpos.ne'
  have hpower : 10 ^ n < 2 ^ (103 * k + 94) :=
    calc 10 ^ n ≤ 10 ^ (31 * k + 28) := Nat.pow_le_pow_right (by decide) h
      _ = (10 ^ 31) ^ k * 10 ^ 28 := by rw [Nat.pow_add, Nat.pow_mul]
      _ < (2 ^ 103) ^ k * 2 ^ 94 :=
          Nat.mul_lt_mul_of_le_of_lt (Nat.pow_le_pow_left (by decide) k) (by decide)
            (Nat.pow_pos (by decide))
      _ = 2 ^ (103 * k + 94) := by rw [Nat.pow_add, Nat.pow_mul]
  rw [Nat.le_log2 hne, Nat.log2_lt hne, Nat.pow_add]
  exact ⟨Nat.le_mul_of_pos_right _ hpos, Nat.mul_lt_mul_of_pos_left hpower (by decide)⟩

lemma isFiniteFrom_powerOfTen_of_le {n : Nat} (hleast : 22 < n) (hmost : n ≤ 307) :
    isFiniteFrom (-52) (NumberText.powerOfTen n).toModel.unpack = true := by
  have hdigits : n ≤ 31 * 9 + 28 := hmost
  obtain ⟨hlog, hlog'⟩ := log2_shifted_powerOfTen hdigits
  obtain ⟨m, e, hm, hround, hfull, hlow, hhigh⟩ :=
    exists_roundWithAccuracy (.positive * .positive) .exact (by omega)
      (show -1022 ≤ ((1 <<< 53 * 10 ^ n).log2 : Int) + (-53 + 0) by omega)
  have hmodel : (NumberText.powerOfTen n).toModel =
      Float.Model.pack (UnpackedFloat.finite (.positive * .positive) m e hm) := by
    have hcases : ¬ (1 < 2 ^ 53 ∧ n ≤ 22) := by omega
    have hlarge : ¬ (n : Int) > 2 ^ Format.binary64.exponentBits := by
      change ¬ (n : Int) > 2 ^ 11
      omega
    have hsmall : ¬ (n : Int) < -(2 ^ Format.binary64.exponentBits + (Nat.log2 1 : Int)) := by
      change ¬ (n : Int) < -(2 ^ 11 + 0)
      omega
    rw [NumberText.powerOfTen, Float.ofScientific, dif_neg hcases, ← hround]
    change Float.Model.pack (UnpackedFloat.ofScientific Format.binary64 1 n) = _
    rw [UnpackedFloat.ofScientific, dif_neg Nat.one_ne_zero, if_neg hlarge, if_neg hsmall,
      if_pos (Int.natCast_nonneg n)]
    rfl
  rw [hmodel]
  exact isFiniteFrom_unpack_pack hm hfull (by omega) (by omega) (by omega)

lemma isFiniteFrom_powerOfTen_308 :
    isFiniteFrom 900 (NumberText.powerOfTen 308).toModel.unpack = true := by
  decide +kernel

lemma isFiniteFrom_powerOfTen {n : Nat} (h : n ≤ 308) :
    isFiniteFrom (-52) (NumberText.powerOfTen n).toModel.unpack = true := by
  have hsmall : ∀ n < 23, isFiniteFrom (-52) (NumberText.powerOfTen n).toModel.unpack = true := by
    decide +kernel
  rcases Nat.lt_or_ge n 23 with hlt | hge
  · exact hsmall n hlt
  · rcases Nat.eq_or_lt_of_le h with rfl | hlt
    · obtain ⟨s, m, e, hm, hu, he⟩ := exists_of_isFiniteFrom isFiniteFrom_powerOfTen_308
      rw [hu, isFiniteFrom, decide_eq_true_eq]
      omega
    · exact isFiniteFrom_powerOfTen_of_le hge (Nat.le_of_lt_succ hlt)
lemma isFinite_powerOfTen {n : Nat} (h : n ≤ 308) : (NumberText.powerOfTen n).isFinite = true := by
  obtain ⟨s, m, e, hm, hu, -⟩ := exists_of_isFiniteFrom (isFiniteFrom_powerOfTen h)
  rw [Float.isFinite, Float.Model.isFinite, hu]
  rfl

/-! ## Values -/

namespace NumberText

/-- Division by powers of ten does not leave the finite doubles, where it starts from a
significand. -/
lemma isFinite_scaleDown {f : Float} (n : Nat) (h : SizeUpTo 232 f) :
    (scaleDown f n).isFinite = true := by
  induction n using Nat.strongRecOn generalizing f with
  | ind n ih =>
    rw [scaleDown]
    split_ifs with hle hzero
    · obtain ⟨s, m, e, hm, hu, he⟩ := exists_of_isFiniteFrom (isFiniteFrom_powerOfTen hle)
      have hlarge := (unpack_eq_finite hu).2
      exact (sizeUpTo_div h hu (by omega) (by omega)).isFinite
    · exact h.isFinite
    · obtain ⟨s, m, e, hm, hu, he⟩ := exists_of_isFiniteFrom isFiniteFrom_powerOfTen_308
      have hlarge := (unpack_eq_finite hu).2
      have hdiv := sizeUpTo_div h hu (by omega) (by omega)
      exact ih (n - 308) (by omega) (hdiv.mono (by omega))

lemma isFinite_of_scale {significand : Nat} {exponent : Int} {x : Float}
    (h : scale significand exponent = .ok x) : x.isFinite = true := by
  have hsize := sizeUpTo_toFloat significand.toUInt64
  rw [scale.eq_def] at h
  split at h
  · split at h
    next hle =>
      dsimp only at h
      split_ifs at h with hinf
      obtain rfl := Except.ok.inj h
      exact isFinite_mul hsize.isFinite (isFinite_powerOfTen hle) (Bool.eq_false_iff.2 hinf)
    next =>
      dsimp only at h
      split_ifs at h
      obtain rfl := Except.ok.inj h
      exact hsize.isFinite
  · obtain rfl := Except.ok.inj h
    exact isFinite_scaleDown _ hsize

lemma isFinite_zero : (0 : Float).isFinite = true := by decide +kernel

lemma isFinite_of_size {s : Scaled} {exponent : Option (Bool × List Nat)} {x : Float}
    (h : size s exponent = .ok x) : x.isFinite = true := by
  rw [size.eq_def] at h
  split at h
  · exact isFinite_of_scale h
  · split at h
    · exact isFinite_of_scale h
    · split_ifs at h
      obtain rfl := Except.ok.inj h
      exact isFinite_zero

end NumberText

lemma isFinite_toUInt64_toFloat (n : Nat) : n.toUInt64.toFloat.isFinite = true :=
  (sizeUpTo_toFloat n.toUInt64).isFinite

/-- A number that has a value is a finite double. -/
theorem isFinite_toFloat_of_value {t : NumberText} {n : Number} (h : t.value = .ok n) :
    n.toFloat.isFinite = true := by
  have hinteger : ∀ n : Int, (Number.integer n).toFloat.isFinite = true := by
    intro n
    cases n with
    | ofNat n => exact isFinite_toUInt64_toFloat n
    | negSucc n => exact isFinite_neg (isFinite_toUInt64_toFloat (n + 1))
  rw [NumberText.value] at h
  split at h
  · split_ifs at h
    · obtain rfl := Except.ok.inj h
      exact hinteger _
    · obtain rfl := Except.ok.inj h
      exact hinteger _
    · obtain rfl := Except.ok.inj h
      exact isFinite_neg (isFinite_toUInt64_toFloat _)
  · obtain ⟨x, hx, hn⟩ := exists_of_bind_eq_ok h
    obtain rfl := Except.ok.inj hn
    have hfinite := NumberText.isFinite_of_size hx
    rw [Number.toFloat]
    split_ifs
    · exact isFinite_neg hfinite
    · exact hfinite

end AgentScript.Json
