import TableRoster.Proofs.Watch.Times

/-! # The seconds of a time are a number

The part of a time below a second has a small exponent, so it is no infinity, and adding it to a whole
number leads to a number. -/

namespace TableRoster.Times

open Float.Model Float.Model.UnpackedFloat

variable {u v : UnpackedFloat} {b : BitVec Format.binary64.numBits} {m k : Nat} {e E F : Int} {s : Sign}

/-- A finite number whose exponent is not above a bound. -/
def IsLow (E : Int) : UnpackedFloat → Prop
  | .zero _ => True
  | .finite _ _ e _ => e ≤ E
  | _ => False

instance (E : Int) : (u : UnpackedFloat) → Decidable (IsLow E u)
  | .zero _ => inferInstanceAs (Decidable True)
  | .finite _ _ e _ => inferInstanceAs (Decidable (e ≤ E))
  | .infinity _ | .notANumber => inferInstanceAs (Decidable False)

theorem IsLow.mono (h : IsLow E u) (hle : E ≤ F) : IsLow F u := by
  cases u with
  | zero => trivial
  | finite => exact Int.le_trans h hle
  | _ => cases h

theorem IsLow.isNaN (h : IsLow E u) : u.isNaN = false := by
  cases u with
  | notANumber => cases h
  | _ => rfl

theorem targetExponent_eq (t : Int) :
    Format.binary64.targetExponent t = max (t - 53) (-1074) := rfl

/-! ## Packing -/

theorem unpack_pack (u : UnpackedFloat) : (Float.Model.pack u).unpack
    = UnpackedFloat.unpack .binary64 (UnpackedFloat.pack .binary64 u) := rfl

theorem isNaN_unpack : (UnpackedFloat.unpack .binary64 b).isNaN = true ↔
    unpackExponent b = -1#_ ∧ unpackMantissa b ≠ 0#_ := by
  unfold UnpackedFloat.unpack
  dsimp only
  split
  · split <;> simp_all [UnpackedFloat.isNaN]
  · split
    · split <;> simp_all [UnpackedFloat.isNaN]
    · simp_all [UnpackedFloat.isNaN]

theorem isNaN_pack (h : u.isNaN = false) : (Float.Model.pack u).unpack.isNaN = false := by
  rw [unpack_pack, ← Bool.not_eq_true, isNaN_unpack, not_and]
  fun_cases UnpackedFloat.pack .binary64 u with
  | case1 => cases h
  | case2 s => simp [packedInfinity]
  | case3 s => simp [packedZero]
  | case4 s m e hm biased h => simp [packedInfinity]
  | case5 s m e hm bits biased h₁ h₂ =>
    rw [unpackExponent_packComponents]
    intro hexp
    have := congrArg BitVec.toNat hexp
    simp only [BitVec.toNat_ofNat, BitVec.neg_one_eq_allOnes, BitVec.toNat_allOnes] at this
    change ¬ 2048 ≤ biased + 1 at h₁
    change biased % 2048 = 2047 at this
    omega
  | case6 s m e hm bits biased h₁ h₂ => simp

/-- The form of a packed number: it has all bits, or the lowest exponent. -/
theorem unpack_finite {hm : 0 < m} (h : UnpackedFloat.unpack .binary64 b = .finite s m e hm) :
    m < 2 ^ 53 ∧ -1074 ≤ e ∧ e ≤ 971 ∧ (2 ^ 52 ≤ m ∨ e = -1074) := by
  have hlt := (unpackExponent b).isLt
  unfold UnpackedFloat.unpack at h
  dsimp only at h
  split at h
  · split at h <;> cases h
  · rename_i hinf
    split at h
    · rename_i hzero
      split at h <;> cases h
      rw [hzero]
      exact ⟨Nat.lt_trans (unpackMantissa b).isLt (by decide), by decide, by decide, .inr (by decide)⟩
    · rename_i hzero
      cases h
      have hne : (unpackExponent b).toNat ≠ 0 := fun he => hzero (BitVec.eq_of_toNat_eq he)
      have hne' : (unpackExponent b).toNat ≠ 2047 := fun he => hinf (BitVec.eq_of_toNat_eq he)
      change (unpackExponent b).toNat < 2048 at hlt
      refine ⟨BitVec.isLt _, ?_, ?_, .inl ?_⟩
      · change -1074 ≤ ((unpackExponent b).toNat : Int) - 1075
        omega
      · change ((unpackExponent b).toNat : Int) - 1075 ≤ 971
        omega
      · rw [BitVec.toNat_append]
        exact Nat.left_le_or

theorem isLow_unpack (h : ((unpackExponent b).toNat : Int) ≤ E + 1075) (hE : -1074 ≤ E)
    (hE' : E ≤ 971) : IsLow E (UnpackedFloat.unpack .binary64 b) := by
  unfold UnpackedFloat.unpack
  dsimp only
  split
  · rename_i he
    have := congrArg BitVec.toNat he
    simp only [BitVec.neg_one_eq_allOnes, BitVec.toNat_allOnes] at this
    change (unpackExponent b).toNat = 2047 at this
    omega
  · split
    · rename_i he
      split
      · trivial
      · have := congrArg BitVec.toNat he
        change (unpackExponent b).toNat = 0 at this
        change ((unpackExponent b).toNat : Int) - 1075 + 1 ≤ E
        omega
    · change ((unpackExponent b).toNat : Int) - 1075 ≤ E
      omega

/-- Packing keeps an exponent low, unless it is so high that it stands for an infinity. -/
theorem isLow_pack (h : IsLow E u) (hE : -1074 ≤ E) (hE' : E ≤ 971) :
    IsLow E (Float.Model.pack u).unpack := by
  rw [unpack_pack]
  refine isLow_unpack ?_ hE hE'
  fun_cases UnpackedFloat.pack .binary64 u with
  | case1 => cases h
  | case2 s => cases h
  | case3 s =>
    rw [packedZero, unpackExponent_packComponents]
    change (0 : Int) ≤ _
    omega
  | case4 s m e hm biased hb =>
    change e ≤ E at h
    change 2048 ≤ (e + 1023 + 52).toNat + 1 at hb
    omega
  | case5 s m e hm bits biased h₁ h₂ =>
    rw [unpackExponent_packComponents, BitVec.toNat_ofNat]
    change e ≤ E at h
    have hle : (biased : Int) ≤ E + 1075 := by
      change ((e + 1023 + 52).toNat : Int) ≤ _
      omega
    have := Nat.mod_le biased (2 ^ Format.binary64.exponentBits)
    omega
  | case6 s m e hm bits biased h₁ h₂ =>
    rw [unpackExponent_packComponents]
    change (0 : Int) ≤ _
    omega

/-! ## Rounding -/

theorem shiftRight_mantissa (em : ExtendedMantissa) (k : Nat) :
    (em >>> k).mantissa = em.mantissa / 2 ^ k := by
  induction k with
  | zero => simp [HShiftRight.hShiftRight, Nat.repeat]
  | succ k ih =>
    change (em >>> k).mantissa / 2 = _
    rw [ih, Nat.div_div_eq_div_mul, Nat.pow_succ]

theorem roundedMantissa_le (em : ExtendedMantissa) : em.roundedMantissa ≤ em.mantissa + 1 := by
  rcases em with ⟨m, r, s⟩
  cases r <;> cases s <;>
    simp [ExtendedMantissa.roundedMantissa, ExtendedMantissa.accuracy, Accuracy.roundToNearestEven]
  omega

/-- A mantissa that is shifted and rounded has one bit more than one that is shifted, at most. -/
theorem log2_le_of_shifted {r : Nat} (h : r ≤ m / 2 ^ k + 1) : r.log2 ≤ m.log2 + 1 - k := by
  by_cases hr : r = 0
  · simp [hr]
  have hm : m < 2 ^ (m.log2 + 1) := Nat.lt_log2_self
  have hlt : r < 2 ^ (m.log2 + 1 - k + 1) := by
    by_cases hk : k ≤ m.log2 + 1
    · have hdiv : m / 2 ^ k < 2 ^ (m.log2 + 1 - k) := by
        rw [Nat.div_lt_iff_lt_mul (Nat.two_pow_pos k), ← Nat.pow_add, Nat.sub_add_cancel hk]
        exact hm
      rw [Nat.pow_succ]
      omega
    · have hzero : m / 2 ^ k = 0 :=
        Nat.div_eq_of_lt (Nat.lt_of_lt_of_le hm (Nat.pow_le_pow_right (by decide) (by omega)))
      rw [show m.log2 + 1 - k = 0 by omega]
      omega
  have := (Nat.log2_lt hr).2 hlt
  omega

theorem isLow_round (s : Sign) (m : Nat) (e : Int) :
    IsLow (max (max e (totalExponent m e - 52)) (-1074)) (roundWithAccuracy .binary64 s m e .exact) := by
  unfold roundWithAccuracy shiftToTargetExponent shiftToExponent
  dsimp only
  split
  · trivial
  · change _ + _ ≤ (_ : Int)
    simp only [targetExponent_eq]
    generalize hk : (max (totalExponent m e - 53) (-1074) - e).toNat = k
    have hr := roundedMantissa_le (ExtendedMantissa.ofMantissaAndAccuracy m .exact >>> k)
    rw [shiftRight_mantissa] at hr
    have hlog := log2_le_of_shifted hr
    generalize (ExtendedMantissa.ofMantissaAndAccuracy m .exact >>> k).roundedMantissa = r at *
    change r.log2 ≤ m.log2 + 1 - k at hlog
    unfold totalExponent at *
    omega

theorem isLow_mul {a b : Float} (ha : IsLow E a.toModel.unpack) (hb : IsLow F b.toModel.unpack)
    (hle : -1074 ≤ E + F + 54) (hle' : E + F + 54 ≤ 971) :
    IsLow (E + F + 54) (a * b).toModel.unpack := by
  change IsLow _ (Float.Model.pack (UnpackedFloat.mul .binary64 a.toModel.unpack b.toModel.unpack)).unpack
  refine isLow_pack ?_ hle hle'
  cases hu : a.toModel.unpack with
  | infinity | notANumber => simp [hu, IsLow] at ha
  | zero =>
    cases hv : b.toModel.unpack with
    | infinity | notANumber => simp [hv, IsLow] at hb
    | zero | finite => trivial
  | finite s m e hm =>
    cases hv : b.toModel.unpack with
    | infinity | notANumber => simp [hv, IsLow] at hb
    | zero => trivial
    | finite t n f hn =>
      have he : e ≤ E := by simpa [hu, IsLow] using ha
      have hf : f ≤ F := by simpa [hv, IsLow] using hb
      have hlog : (m * n).log2 < 106 := by
        have hmn := Nat.mul_lt_mul'' (unpack_finite hu).1 (unpack_finite hv).1
        exact (Nat.log2_lt (Nat.ne_of_gt (Nat.mul_pos hm hn))).2 hmn
      refine (isLow_round _ _ _).mono ?_
      unfold totalExponent
      omega

/-! ## Whole numbers -/

theorem isLow_toFloat (n : UInt64) : IsLow 12 n.toFloat.toModel.unpack := by
  change IsLow 12 (Float.Model.pack (UnpackedFloat.normalize .binary64 n.toNat 0 .positive)).unpack
  refine isLow_pack ?_ (by decide) (by decide)
  unfold UnpackedFloat.normalize
  split
  · rename_i h
    have := Int.compare_eq_lt.1 h
    omega
  · trivial
  · rename_i h
    have hn : 0 < n.toNat := by
      have := Int.compare_eq_gt.1 h
      omega
    rw [Int.toNat_natCast]
    unfold UnpackedFloat.round decreaseExponent
    dsimp only
    refine (isLow_round _ _ _).mono ?_
    generalize (0 - Format.binary64.targetExponent (totalExponent n.toNat 0)).toNat = k
    have hlt : n.toNat <<< k < 2 ^ (64 + k) := by
      rw [Nat.shiftLeft_eq, Nat.pow_add]
      exact Nat.mul_lt_mul_of_pos_right n.toNat_lt (Nat.two_pow_pos k)
    have hne : n.toNat <<< k ≠ 0 := by
      rw [Nat.shiftLeft_eq]
      exact Nat.ne_of_gt (Nat.mul_pos hn (Nat.two_pow_pos k))
    have hlog := (Nat.log2_lt hne).2 hlt
    unfold totalExponent
    omega

theorem isNaN_round (s : Sign) (m : Nat) (e : Int) (a : Accuracy) :
    (roundWithAccuracy .binary64 s m e a).isNaN = false := by
  unfold roundWithAccuracy
  dsimp only
  split <;> rfl

theorem isNaN_normalize (m e : Int) (s : Sign) :
    (UnpackedFloat.normalize .binary64 m e s).isNaN = false := by
  unfold UnpackedFloat.normalize
  split
  · exact isNaN_round ..
  · rfl
  · exact isNaN_round ..

theorem isLow_ofNat {n : Nat} (h : n < 2 ^ 53) : IsLow 14 (Float.ofNat n).toModel.unpack := by
  have hone : IsLow (-52) (Float.ofBits 0x3FF0000000000000).toModel.unpack := by decide
  have hn : Float.ofNat n = n.toUInt64.toFloat * Float.ofBits 0x3FF0000000000000 := by
    change Float.ofScientific n false 0 = _
    unfold Float.ofScientific
    rw [dif_pos ⟨h, by decide⟩]
    rfl
  rw [hn]
  exact isLow_mul (isLow_toFloat _) hone (by decide) (by decide)

theorem isNaN_ofScientific (n : Nat) : (UnpackedFloat.ofScientific .binary64 n 0).isNaN = false := by
  unfold UnpackedFloat.ofScientific
  split
  · rfl
  · split
    · rfl
    · split
      · rfl
      · simp only [Int.le_refl, ↓reduceIte, UnpackedFloat.mul, isNaN_round]

theorem isNaN_ofNat (n : Nat) : (Float.ofNat n).isNaN = false := by
  by_cases h : n < 2 ^ 53
  · exact (isLow_ofNat h).isNaN
  · change (Float.ofScientific n false 0).isNaN = false
    unfold Float.ofScientific
    rw [dif_neg fun hn => h hn.1]
    exact isNaN_pack (isNaN_ofScientific n)

theorem isNaN_neg {x : Float} (h : x.isNaN = false) : (-x).isNaN = false := by
  refine isNaN_pack (u := x.toModel.unpack.neg) ?_
  have h : x.toModel.unpack.isNaN = false := h
  cases hu : x.toModel.unpack with
  | notANumber => simp [hu, UnpackedFloat.isNaN] at h
  | _ => rfl

theorem isNaN_ofInt (n : Int) : (Float.ofInt n).isNaN = false := by
  cases n with
  | ofNat n => exact isNaN_ofNat n
  | negSucc n => exact isNaN_neg (isNaN_ofNat (n + 1))

/-! ## Sums -/

theorem isNaN_add {x y : Float} (hx : x.isNaN = false) (hy : IsLow E y.toModel.unpack) :
    (x + y).isNaN = false := by
  refine isNaN_pack (u := UnpackedFloat.add .binary64 x.toModel.unpack y.toModel.unpack) ?_
  have hx : x.toModel.unpack.isNaN = false := hx
  cases hu : y.toModel.unpack with
  | infinity | notANumber => simp [hu, IsLow] at hy
  | zero s =>
    cases hv : x.toModel.unpack with
    | notANumber => simp [hv, UnpackedFloat.isNaN] at hx
    | zero t =>
      unfold UnpackedFloat.add
      dsimp only
      split <;> rfl
    | infinity | finite => rfl
  | finite s m e hm =>
    cases hv : x.toModel.unpack with
    | notANumber => simp [hv, UnpackedFloat.isNaN] at hx
    | zero | infinity => rfl
    | finite t n f hn => exact isNaN_normalize ..

end TableRoster.Times

namespace TableRoster.Snapshot

/-- The seconds of a time are a number, also where they are an infinity. -/
theorem isNaN_seconds (t : Int) : (seconds t).isNaN = false := by
  have hrest : (t - t.fdiv 1000000000 * 1000000000).toNat < 2 ^ 53 := by
    rw [Int.fdiv_eq_ediv_of_nonneg t (by decide)]
    omega
  have hnano : Times.IsLow (-82) (1e-9 : Float).toModel.unpack := by decide
  exact Times.isNaN_add (Times.isNaN_ofInt _)
    (Times.isLow_mul hnano (Times.isLow_ofNat hrest) (by decide) (by decide))

theorem timesOf_same_self (d : Disk) (files : List Path) :
    (timesOf d files).same (timesOf d files) = true := by
  refine same_self fun p hp => ?_
  obtain ⟨-, t, -, ht⟩ := mem_timesOf.1 (show (p.1, p.2) ∈ timesOf d files from hp)
  rw [ht]
  exact isNaN_seconds t

end TableRoster.Snapshot
