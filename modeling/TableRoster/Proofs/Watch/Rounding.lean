import TableRoster.Proofs.Watch.Seconds

/-! # Rounding keeps the order of differences

A difference of times is rounded to a nearest number. So a difference from an earlier time is not below
one from a later time. -/

namespace TableRoster.Times

open Float.Model Float.Model.UnpackedFloat

variable {u v : UnpackedFloat} {m n k r : Nat} {e f X Y : Int}

/-! ## Shifting and rounding a mantissa -/

theorem shiftRight_succ (m k : Nat) : ExtendedMantissa.ofMantissaAndAccuracy m .exact >>> (k + 1)
    = ⟨m / 2 ^ (k + 1), m / 2 ^ k % 2 != 0, m % 2 ^ k != 0⟩ := by
  induction k with
  | zero => simp [HShiftRight.hShiftRight, Nat.repeat, ExtendedMantissa.shiftRightOne,
      ExtendedMantissa.ofMantissaAndAccuracy, Nat.mod_one]
  | succ k ih =>
    change ExtendedMantissa.shiftRightOne
      (ExtendedMantissa.ofMantissaAndAccuracy m .exact >>> (k + 1)) = _
    rw [ih]
    simp only [ExtendedMantissa.shiftRightOne, Nat.div_div_eq_div_mul, ← Nat.pow_succ,
      ExtendedMantissa.mk.injEq, true_and]
    rw [Nat.mod_pow_succ]
    have hpow := Nat.two_pow_pos k
    rw [Bool.eq_iff_iff]
    simp only [Bool.or_eq_true, bne_iff_ne, ne_eq, Nat.add_eq_zero_iff, Nat.mul_eq_zero]
    omega

/-- A mantissa that is shifted and rounded is off by half at most. -/
theorem rounded_half (m k : Nat)
    (hr : r = (ExtendedMantissa.ofMantissaAndAccuracy m .exact >>> k).roundedMantissa) :
    2 * (r * 2 ^ k) ≤ 2 * m + 2 ^ k ∧ 2 * m ≤ 2 * (r * 2 ^ k) + 2 ^ k := by
  cases k with
  | zero =>
    obtain rfl : r = m := hr
    omega
  | succ k =>
    rw [shiftRight_succ] at hr
    have hm := Nat.div_add_mod m (2 ^ (k + 1))
    have hlow := Nat.mod_pow_succ (x := m) (b := 2) (k := k)
    have hlt := Nat.mod_lt m (Nat.two_pow_pos k)
    generalize m / 2 ^ (k + 1) = q at *
    generalize hb : m / 2 ^ k % 2 = b at *
    generalize m % 2 ^ k = l at *
    rw [Nat.pow_succ] at *
    generalize 2 ^ k = P at *
    have hbit : b = 0 ∨ b = 1 := by omega
    have hodd : q % 2 = 0 ∨ q % 2 = 1 := by omega
    have hup : (q + 1) * (P * 2) = q * (P * 2) + P * 2 := Nat.succ_mul q (P * 2)
    rw [Nat.mul_comm (P * 2) q] at hm
    have hcases : r = q ∧ 2 * l ≤ P * 2 ∧ b = 0 ∨ r = q ∧ b = 1 ∧ l = 0 ∨ r = q + 1 ∧ b = 1 := by
      cases hl : l != 0 with
      | false =>
        rw [hl] at hr
        have hl : l = 0 := by simpa using hl
        obtain rfl | rfl := hbit
        · exact .inl ⟨hr, by omega, rfl⟩
        · have hr : r = q + q % 2 := hr
          omega
      | true =>
        rw [hl] at hr
        obtain rfl | rfl := hbit
        · exact .inl ⟨hr, by omega, rfl⟩
        · exact .inr (.inr ⟨hr, rfl⟩)
    obtain ⟨rfl, h, rfl⟩ | ⟨rfl, rfl, rfl⟩ | ⟨rfl, rfl⟩ := hcases
    · omega
    · omega
    · rw [hup]
      omega

/-! ## Nearest numbers -/

/-- A zero, or a positive number in the form that a packed one has. -/
def IsPlain : UnpackedFloat → Prop
  | .zero _ => True
  | .finite .positive m e _ => m < 2 ^ 53 ∧ -1074 ≤ e ∧ (2 ^ 52 ≤ m ∨ e = -1074)
  | _ => False

/-- A number in units of the smallest one. -/
def units : UnpackedFloat → Int
  | .finite s m e _ => s.apply (m * 2 ^ (e + 1074).toNat : Nat)
  | _ => 0

/-- No number is nearer. -/
structure Rounds (X : Int) (u : UnpackedFloat) : Prop where
  plain : IsPlain u
  nearest : ∀ n k : Nat, n < 2 ^ 53 → (units u - X).natAbs ≤ ((n * 2 ^ k : Nat) - X).natAbs

theorem Rounds.le (hu : Rounds X u) (hv : Rounds Y v) (h : X < Y) : units u ≤ units v := by
  have form : ∀ {u}, IsPlain u → ∃ n k : Nat, n < 2 ^ 53 ∧ units u = (n * 2 ^ k : Nat) := by
    intro u hu
    cases u with
    | infinity | notANumber => cases hu
    | zero => exact ⟨0, 0, by decide, rfl⟩
    | finite s m e hm =>
      cases s with
      | negative => cases hu
      | positive => exact ⟨m, (e + 1074).toNat, hu.1, by simp [units, Sign.apply]⟩
  obtain ⟨n, k, hn, hnk⟩ := form hu.plain
  obtain ⟨n', k', hn', hnk'⟩ := form hv.plain
  have hu := hu.nearest n' k' hn'
  have hv := hv.nearest n k hn
  rw [← hnk'] at hu
  rw [← hnk] at hv
  omega

/-- Of the multiples of a unit, the one that is off by half a unit at most is nearest. -/
theorem natAbs_le_of_half {x r c K : Nat} (h : 2 * (r * K) ≤ 2 * x + K) (h' : 2 * x ≤ 2 * (r * K) + K) :
    ((r * K : Nat) - (x : Int)).natAbs ≤ ((c * K : Nat) - (x : Int)).natAbs := by
  obtain hlt | rfl | hlt := Nat.lt_trichotomy c r
  · have := Nat.mul_le_mul_right K (show c + 1 ≤ r from hlt)
    rw [Nat.succ_mul] at this
    omega
  · exact Nat.le_refl _
  · have := Nat.mul_le_mul_right K (show r + 1 ≤ c from hlt)
    rw [Nat.succ_mul] at this
    omega

/-- What a mantissa is rounded to, at the exponent that it is to have. -/
def roundedAt (r : Nat) (t : Int) : UnpackedFloat :=
  if hr : r = 0 then .zero .positive
  else if r < 2 ^ 53 then .finite .positive r t (Nat.pos_of_ne_zero hr)
  else .finite .positive (2 ^ 52) (t + 1) (by decide)

theorem shiftToTargetExponent_of_lt (hr : r < 2 ^ 53) (he : -1074 ≤ e) :
    shiftToTargetExponent .binary64 r e .exact = (⟨r, false, false⟩, e) := by
  have hlog : r.log2 ≤ 52 := by
    by_cases h : r = 0
    · simp [h]
    · have := (Nat.log2_lt h).2 hr
      omega
  have hshift : (max (totalExponent r e - 53) (-1074) - e).toNat = 0 := by
    unfold totalExponent
    omega
  unfold shiftToTargetExponent shiftToExponent
  simp [targetExponent_eq, hshift, HShiftRight.hShiftRight, Nat.repeat,
    ExtendedMantissa.ofMantissaAndAccuracy]

theorem shiftToTargetExponent_carry (he : -1074 ≤ e) :
    shiftToTargetExponent .binary64 (2 ^ 53) e .exact = (⟨2 ^ 52, false, false⟩, e + 1) := by
  have hshift : (max (totalExponent (2 ^ 53) e - 53) (-1074) - e).toNat = 1 := by
    unfold totalExponent
    rw [Nat.log2_two_pow]
    omega
  unfold shiftToTargetExponent shiftToExponent
  simp only [targetExponent_eq, hshift]
  rfl

/-- A mantissa that has too many bits is shifted and rounded. -/
theorem roundWithAccuracy_eq {t : Int} (ht : max (totalExponent m e - 53) (-1074) = t) (hk : e + k = t)
    (hr : r = (ExtendedMantissa.ofMantissaAndAccuracy m .exact >>> k).roundedMantissa)
    (hle : r ≤ 2 ^ 53) :
    roundWithAccuracy .binary64 .positive m e .exact = roundedAt r t := by
  have hfirst : shiftToTargetExponent .binary64 m e .exact
      = (ExtendedMantissa.ofMantissaAndAccuracy m .exact >>> k, t) := by
    have hshift : (max (totalExponent m e - 53) (-1074) - e).toNat = k := by omega
    unfold shiftToTargetExponent shiftToExponent
    simp only [targetExponent_eq, hshift, hk]
  have ht' : -1074 ≤ t := by omega
  unfold roundWithAccuracy roundedAt
  rw [hfirst]
  dsimp only
  rw [← hr]
  by_cases hlt : r < 2 ^ 53
  · rw [shiftToTargetExponent_of_lt hlt ht']
    simp only [hlt, ↓reduceIte]
  · obtain rfl : r = 2 ^ 53 := by omega
    rw [shiftToTargetExponent_carry ht']
    rfl

theorem units_roundedAt {t : Int} (hr : r ≤ 2 ^ 53) (ht : -1074 ≤ t) :
    units (roundedAt r t) = (r * 2 ^ (t + 1074).toNat : Nat) := by
  unfold roundedAt
  split
  · rename_i h
    simp [h, units]
  · split
    · simp [units, Sign.apply]
    · obtain rfl : r = 2 ^ 53 := by omega
      have hexp : (t + 1 + 1074).toNat = (t + 1074).toNat + 1 := by omega
      simp only [units, Sign.apply, hexp, Nat.pow_succ]
      omega

theorem plain_roundedAt {t : Int} (ht : -1074 ≤ t) (h : 2 ^ 52 ≤ r ∨ t = -1074) :
    IsPlain (roundedAt r t) := by
  unfold roundedAt
  split
  · trivial
  · split
    · rename_i hlt
      exact ⟨hlt, ht, h⟩
    · exact ⟨by decide, by omega, .inl (Nat.le_refl _)⟩

theorem le_roundedMantissa (em : ExtendedMantissa) : em.mantissa ≤ em.roundedMantissa := by
  rcases em with ⟨m, r, s⟩
  cases r <;> cases s <;>
    simp [ExtendedMantissa.roundedMantissa, ExtendedMantissa.accuracy, Accuracy.roundToNearestEven]

/-- At the exponent that it is to have, a mantissa fits, and it fills the format above the lowest
exponent. -/
theorem mantissa_bounds {t : Int} (hm : 0 < m) (ht : max (totalExponent m e - 53) (-1074) = t)
    (hk : e + k = t) : m < 2 ^ 53 * 2 ^ k ∧ (t = -1074 ∨ 2 ^ 52 * 2 ^ k ≤ m) := by
  unfold totalExponent at ht
  constructor
  · rw [← Nat.pow_add]
    exact Nat.lt_of_lt_of_le Nat.lt_log2_self (Nat.pow_le_pow_right (by decide) (by omega))
  · by_cases hmin : t = -1074
    · exact .inl hmin
    · rw [← Nat.pow_add]
      refine .inr (Nat.le_trans (Nat.pow_le_pow_right (by decide) ?_)
        (Nat.log2_self_le (Nat.ne_of_gt hm)))
      omega

theorem rounded_bounds (hr : r = (ExtendedMantissa.ofMantissaAndAccuracy m .exact >>> k).roundedMantissa) :
    m / 2 ^ k ≤ r ∧ r ≤ m / 2 ^ k + 1 := by
  have hdown := le_roundedMantissa (ExtendedMantissa.ofMantissaAndAccuracy m .exact >>> k)
  have hup := roundedMantissa_le (ExtendedMantissa.ofMantissaAndAccuracy m .exact >>> k)
  rw [shiftRight_mantissa, ← hr] at hdown hup
  exact ⟨hdown, hup⟩

/-- What a mantissa is rounded to is nearest among the multiples of its unit. -/
theorem rounded_nearest (hr : r = (ExtendedMantissa.ofMantissaAndAccuracy m .exact >>> k).roundedMantissa)
    (c P : Nat) : ((r * (2 ^ k * P) : Nat) - ((m * P : Nat) : Int)).natAbs
      ≤ ((c * (2 ^ k * P) : Nat) - ((m * P : Nat) : Int)).natAbs := by
  obtain ⟨hhalf, hhalf'⟩ := rounded_half m k hr
  rw [← Nat.mul_assoc, ← Nat.mul_assoc, Int.natCast_mul, Int.natCast_mul (c * 2 ^ k), Int.natCast_mul m,
    ← Int.sub_mul, ← Int.sub_mul, Int.natAbs_mul, Int.natAbs_mul]
  exact Nat.mul_le_mul_right _ (natAbs_le_of_half hhalf hhalf')

theorem rounds_roundWithAccuracy (hm : 0 < m) (he : -1074 ≤ e)
    (hle : e ≤ max (totalExponent m e - 53) (-1074)) :
    Rounds (m * 2 ^ (e + 1074).toNat : Nat) (roundWithAccuracy .binary64 .positive m e .exact) := by
  obtain ⟨t, ht⟩ : ∃ t, max (totalExponent m e - 53) (-1074) = t := ⟨_, rfl⟩
  obtain ⟨k, hk⟩ : ∃ k : Nat, e + k = t := ⟨(t - e).toNat, by omega⟩
  obtain ⟨r, hr⟩ : ∃ r, r = (ExtendedMantissa.ofMantissaAndAccuracy m .exact >>> k).roundedMantissa :=
    ⟨_, rfl⟩
  obtain ⟨hbits, hfull⟩ := mantissa_bounds hm ht hk
  obtain ⟨hdown, hup⟩ := rounded_bounds hr
  have hr53 : r ≤ 2 ^ 53 := by
    have := (Nat.div_lt_iff_lt_mul (Nat.two_pow_pos k)).2 hbits
    omega
  have ht' : -1074 ≤ t := by omega
  rw [roundWithAccuracy_eq ht hk hr hr53]
  refine ⟨plain_roundedAt ht' (hfull.symm.imp_left fun h => ?_), fun n j hn => ?_⟩
  · exact Nat.le_trans ((Nat.le_div_iff_mul_le (Nat.two_pow_pos k)).2 h) hdown
  · rw [units_roundedAt hr53 ht']
    have hpow : 2 ^ (t + 1074).toNat = 2 ^ k * 2 ^ (e + 1074).toNat := by
      rw [← Nat.pow_add]
      congr 1
      omega
    have hnear := fun c => rounded_nearest hr c (2 ^ (e + 1074).toNat)
    rw [← hpow] at hnear
    by_cases hj : (t + 1074).toNat ≤ j
    · have := hnear (n * 2 ^ (j - (t + 1074).toNat))
      rwa [Nat.mul_assoc, ← Nat.pow_add, Nat.sub_add_cancel hj] at this
    · -- a number with a finer unit is below all that the mantissa may be rounded to
      have hX : 2 ^ 52 * 2 ^ (t + 1074).toNat ≤ m * 2 ^ (e + 1074).toNat := by
        rw [hpow, ← Nat.mul_assoc]
        exact Nat.mul_le_mul_right _ (hfull.resolve_left (by omega))
      have hn : n * 2 ^ j ≤ 2 ^ 52 * 2 ^ (t + 1074).toNat := by
        have hpow : 2 ^ (j + 1) ≤ 2 ^ (t + 1074).toNat := Nat.pow_le_pow_right (by decide) (by omega)
        have hle := Nat.mul_le_mul_right (2 ^ j) (Nat.le_of_lt hn)
        rw [Nat.pow_succ] at hpow
        omega
      have := hnear (2 ^ 52)
      omega

/-- A mantissa may be padded down to a lower exponent. -/
theorem padded (m : Nat) {c : Int} (hc : -1074 ≤ c) (hle : c ≤ e) :
    m <<< (e - c).toNat * 2 ^ (c + 1074).toNat = m * 2 ^ (e + 1074).toNat := by
  rw [Nat.shiftLeft_eq, Nat.mul_assoc, ← Nat.pow_add]
  congr 2
  omega

theorem rounds_round (hm : 0 < m) (he : -1074 ≤ e) :
    Rounds (m * 2 ^ (e + 1074).toNat : Nat) (UnpackedFloat.round .binary64 .positive m e) := by
  unfold UnpackedFloat.round decreaseExponent
  simp only [targetExponent_eq]
  generalize hk : (e - max (totalExponent m e - 53) (-1074)).toNat = k
  have hlog : (m <<< k).log2 = m.log2 + k := by
    have hpow := Nat.two_pow_pos k
    have hlow := Nat.log2_self_le (Nat.ne_of_gt hm)
    have hhigh := Nat.lt_log2_self (n := m)
    rw [Nat.shiftLeft_eq, Nat.log2_eq_iff (Nat.ne_of_gt (Nat.mul_pos hm hpow)), Nat.pow_add,
      show m.log2 + k + 1 = m.log2 + 1 + k by omega, Nat.pow_add]
    exact ⟨Nat.mul_le_mul_right _ hlow, Nat.mul_lt_mul_of_pos_right hhigh hpow⟩
  have hpad := padded (e := e) m (c := e - k) (by omega) (by omega)
  rw [show (e - (e - k)).toNat = k by omega] at hpad
  rw [← hpad]
  refine rounds_roundWithAccuracy ?_ (by omega) ?_
  · rw [Nat.shiftLeft_eq]
    exact Nat.mul_pos hm (Nat.two_pow_pos k)
  · unfold totalExponent at *
    rw [hlog]
    omega

/-! ## Numbers in packed form -/

/-- A finite number in the form that a packed one has. -/
def IsNumber : UnpackedFloat → Prop
  | .zero _ => True
  | .finite _ m e _ => m < 2 ^ 53 ∧ -1074 ≤ e ∧ (2 ^ 52 ≤ m ∨ e = -1074)
  | _ => False

theorem units_lt_of_exponent_lt (hm : m < 2 ^ 53) (he : -1074 ≤ e) (hf : 2 ^ 52 ≤ n ∨ f = -1074)
    (h : e < f) : m * 2 ^ (e + 1074).toNat < n * 2 ^ (f + 1074).toNat := by
  have hn : 2 ^ 52 ≤ n := hf.resolve_right (by omega)
  have hexp : 2 ^ ((e + 1074).toNat + 1) ≤ 2 ^ (f + 1074).toNat :=
    Nat.pow_le_pow_right (by decide) (by omega)
  rw [Nat.pow_succ] at hexp
  calc m * 2 ^ (e + 1074).toNat < 2 ^ 53 * 2 ^ (e + 1074).toNat :=
        Nat.mul_lt_mul_of_pos_right hm (Nat.two_pow_pos _)
    _ = 2 ^ 52 * (2 ^ (e + 1074).toNat * 2) := by omega
    _ ≤ n * 2 ^ (f + 1074).toNat := Nat.mul_le_mul hn hexp

theorem units_lt_of_then (hm : m < 2 ^ 53) (he : -1074 ≤ e) (hf : 2 ^ 52 ≤ n ∨ f = -1074)
    (h : (compare e f).then (compare m n) = .lt) :
    m * 2 ^ (e + 1074).toNat < n * 2 ^ (f + 1074).toNat := by
  obtain h | ⟨h, h'⟩ := Ordering.then_eq_lt.1 h
  · exact units_lt_of_exponent_lt hm he hf (Int.compare_eq_lt.1 h)
  · obtain rfl := Int.compare_eq_eq.1 h
    exact Nat.mul_lt_mul_of_pos_right (Nat.compare_eq_lt.1 h') (Nat.two_pow_pos _)

theorem units_pos {hm : 0 < m} : 0 < units (.finite .positive m e hm) := by
  have := Nat.mul_pos hm (Nat.two_pow_pos (e + 1074).toNat)
  simp only [units, Sign.apply]
  omega

theorem units_neg {hm : 0 < m} : units (.finite .negative m e hm) < 0 := by
  have := Nat.mul_pos hm (Nat.two_pow_pos (e + 1074).toNat)
  simp only [units, Sign.apply]
  omega

theorem units_lt_of_compare (hu : IsNumber u) (hv : IsNumber v) (h : u.compare v = some .lt) :
    units u < units v := by
  revert h
  fun_cases UnpackedFloat.compare u v with
  | case9 => exact fun _ => units_neg
  | case10 => exact fun _ => units_pos
  | case13 m e hm n f hn =>
    intro h
    rw [Option.some.injEq, size_swap] at h
    have := units_lt_of_then hv.1 hv.2.1 hu.2.2 h
    simp only [units, Sign.apply]
    omega
  | case14 => exact fun _ => Int.lt_trans units_neg units_pos
  | case16 m e hm n f hn =>
    intro h
    have := units_lt_of_then hu.1 hu.2.1 hv.2.2 (Option.some.inj h)
    simp only [units, Sign.apply]
    omega
  | _ => simp_all [IsNumber]

/-- Numbers are compared by their units. -/
theorem compare_eq_units (hu : IsNumber u) (hv : IsNumber v) :
    u.compare v = some (compare (units u) (units v)) := by
  cases h : u.compare v with
  | none =>
    obtain h | h := compare_eq_none.1 h
    · cases u <;> simp_all [IsNumber, UnpackedFloat.isNaN]
    · cases v <;> simp_all [IsNumber, UnpackedFloat.isNaN]
  | some o =>
    cases o with
    | lt => rw [Int.compare_eq_lt.2 (units_lt_of_compare hu hv h)]
    | eq =>
      have heq : units u = units v := by
        obtain ⟨rfl, -⟩ | ⟨s, t, rfl, rfl⟩ := compare_eq_eq.1 h
        · rfl
        · rfl
      rw [Int.compare_eq_eq.2 heq]
    | gt =>
      have h' : v.compare u = some .lt := by rw [compare_swap, h]; rfl
      rw [Int.compare_eq_gt.2 (units_lt_of_compare hv hu h')]

/-! ## Packing -/

theorem unpackSign_packComponents {spec : Format} (s : Sign) (x : BitVec spec.exponentBits)
    (y : BitVec spec.mantissaBitsWithoutImplicit) :
    unpackSign (packComponents spec s x y) = s.toBitVec := by
  ext i hi
  obtain rfl : i = 0 := by omega
  simp [unpackSign, packComponents, BitVec.getLsbD_eq_getElem, BitVec.getLsbD_append,
    BitVec.getElem_append]

theorem unpack_pack_normal {hm : 0 < m} (hlt : m < 2 ^ 53) (hfull : 2 ^ 52 ≤ m) (he : -1074 ≤ e)
    (he' : e ≤ 971) :
    (Float.Model.pack (.finite .positive m e hm)).unpack = .finite .positive m e hm := by
  have hlog : m.log2 = 52 := (Nat.log2_eq_iff (Nat.ne_of_gt hm)).2 ⟨hfull, hlt⟩
  obtain ⟨x, hx⟩ : ∃ x : Nat, e = x - 1075 := ⟨(e + 1075).toNat, by omega⟩
  have hbiased : (e + Format.binary64.exponentBias + Format.binary64.mantissaBitsWithoutImplicit).toNat
      = x := by
    change (e + 1023 + 52).toNat = x
    omega
  have hexp : (BitVec.ofNat 11 x).toNat = x := by
    rw [BitVec.toNat_ofNat]
    omega
  have hinf : ¬ BitVec.ofNat 11 x = -1#_ := by
    intro h
    have : (BitVec.ofNat 11 x).toNat = 2047 := congrArg BitVec.toNat h
    omega
  have hzero : ¬ BitVec.ofNat 11 x = 0#_ := by
    intro h
    have : (BitVec.ofNat 11 x).toNat = 0 := congrArg BitVec.toNat h
    omega
  have hmantissa : (1#1 ++ BitVec.ofNat 52 m).toNat = m := by
    have hlow : m % 2 ^ 52 < 2 ^ 52 := Nat.mod_lt _ (by decide)
    rw [BitVec.toNat_append, BitVec.toNat_ofNat, BitVec.toNat_ofNat,
      ← Nat.shiftLeft_add_eq_or_of_lt hlow]
    omega
  rw [unpack_pack]
  unfold UnpackedFloat.pack
  dsimp only
  rw [hbiased, if_neg (show ¬ 2048 ≤ x + 1 by omega),
    if_pos (show m.log2 + 1 = Format.binary64.mantissaBits by rw [hlog]; rfl)]
  unfold UnpackedFloat.unpack
  simp only [unpackExponent_packComponents, unpackMantissa_packComponents, unpackSign_packComponents]
  rw [if_neg hinf, if_neg hzero, UnpackedFloat.finite.injEq]
  refine ⟨rfl, hmantissa, ?_⟩
  change ((BitVec.ofNat 11 x).toNat : Int) - 1075 = e
  omega

theorem unpack_pack_subnormal {hm : 0 < m} (hlt : m < 2 ^ 52) :
    (Float.Model.pack (.finite .positive m (-1074) hm)).unpack = .finite .positive m (-1074) hm := by
  have hlog : m.log2 < 52 := (Nat.log2_lt (Nat.ne_of_gt hm)).2 hlt
  have hbits : ¬ m.log2 + 1 = Format.binary64.mantissaBits := by
    change ¬ m.log2 + 1 = 53
    omega
  have hmantissa : (BitVec.ofNat 52 m).toNat = m := by
    rw [BitVec.toNat_ofNat]
    omega
  have hne : ¬ BitVec.ofNat 52 m = 0#_ := by
    intro h
    have : (BitVec.ofNat 52 m).toNat = 0 := congrArg BitVec.toNat h
    omega
  rw [unpack_pack]
  unfold UnpackedFloat.pack
  dsimp only
  rw [if_neg (by decide), if_neg hbits]
  unfold UnpackedFloat.unpack
  simp only [unpackExponent_packComponents, unpackMantissa_packComponents, unpackSign_packComponents]
  rw [if_neg (by decide), if_pos trivial, dif_neg hne, UnpackedFloat.finite.injEq]
  exact ⟨rfl, hmantissa, rfl⟩

theorem unpack_pack_of_plain {hm : 0 < m} (hu : IsPlain (.finite .positive m e hm)) (he : e ≤ 971) :
    (Float.Model.pack (.finite .positive m e hm)).unpack = .finite .positive m e hm := by
  obtain ⟨hlt, hmin, hform⟩ := hu
  by_cases hfull : 2 ^ 52 ≤ m
  · exact unpack_pack_normal hlt hfull hmin he
  · obtain rfl : e = -1074 := hform.resolve_left hfull
    exact unpack_pack_subnormal (by omega)

/-- A plain number that is too large is packed as an infinity. -/
theorem unpack_pack_of_lt {hm : 0 < m} (he : 971 < e) :
    (Float.Model.pack (.finite .positive m e hm)).unpack = .infinity .positive := by
  rw [unpack_pack]
  unfold UnpackedFloat.pack
  dsimp only
  rw [if_pos]
  · rfl
  · change 2048 ≤ (e + 1023 + 52).toNat + 1
    omega

/-! ## Differences -/

theorem Rounds.exact (hu : IsPlain u) : Rounds (units u) u :=
  ⟨hu, fun n k _ => by simp⟩

theorem apply_mul (s : Sign) (a b : Nat) : s.apply (a * b : Nat) = s.apply a * b := by
  cases s with
  | negative =>
    simp only [Sign.apply, Int.natCast_mul]
    exact (Int.neg_mul _ _).symm
  | positive => exact Int.natCast_mul a b

theorem rounds_normalize {M c : Int} (hc : -1074 ≤ c) (h : 0 ≤ M) (s : Sign) :
    Rounds (M * (2 ^ (c + 1074).toNat : Nat)) (UnpackedFloat.normalize .binary64 M c s) := by
  unfold UnpackedFloat.normalize
  split
  · rename_i hM
    exact absurd (Int.compare_eq_lt.1 hM) (Int.not_lt.2 h)
  · rename_i hM
    obtain rfl := Int.compare_eq_eq.1 hM
    rw [Int.zero_mul]
    exact .exact (u := .zero s) trivial
  · rename_i hM
    have hM := Int.compare_eq_gt.1 hM
    have := rounds_round (m := M.toNat) (by omega) hc
    rwa [Int.natCast_mul, Int.toNat_of_nonneg h] at this

/-- A difference that is not negative is rounded to a nearest number. -/
theorem rounds_sub (hu : IsNumber u) (hv : IsNumber v) (hle : units v ≤ units u) :
    Rounds (units u - units v) (UnpackedFloat.sub .binary64 u v) := by
  cases u with
  | infinity | notANumber => cases hu
  | zero s =>
    cases v with
    | infinity | notANumber => cases hv
    | zero t =>
      obtain ⟨z, hz⟩ : ∃ z, UnpackedFloat.sub .binary64 (.zero s) (.zero t) = .zero z := by
        cases s <;> cases t <;> exact ⟨_, rfl⟩
      rw [hz]
      exact .exact (u := .zero z) trivial
    | finite t n f hn =>
      cases t with
      | positive => exact absurd units_pos (Int.not_lt.2 hle)
      | negative =>
        have hx : (0 : Int) - units (.finite .negative n f hn) = units (.finite .positive n f hn) := by
          simp [units, Sign.apply]
        change Rounds (0 - _) _
        rw [hx]
        exact .exact hv
  | finite s m e hm =>
    cases v with
    | infinity | notANumber => cases hv
    | zero t =>
      cases s with
      | negative => exact absurd units_neg (Int.not_lt.2 hle)
      | positive =>
        change Rounds (_ - 0) _
        rw [Int.sub_zero]
        exact .exact hu
    | finite t n f hn =>
      have hc : -1074 ≤ min e f := by
        have := hu.2.1
        have := hv.2.1
        omega
      have hx : units (.finite s m e hm) - units (.finite t n f hn)
          = (s.apply (m <<< (e - min e f).toNat : Nat) - t.apply (n <<< (f - min e f).toNat : Nat))
            * (2 ^ (min e f + 1074).toNat : Nat) := by
        rw [Int.sub_mul, ← apply_mul, ← apply_mul, padded m hc (by omega), padded n hc (by omega)]
        rfl
      have hpos : (0 : Int) < (2 ^ (min e f + 1074).toNat : Nat) := by
        exact Int.natCast_pos.2 (Nat.two_pow_pos _)
      rw [hx]
      refine rounds_normalize hc (Int.not_lt.1 fun hneg => ?_) _
      have := Int.mul_neg_of_neg_of_pos hneg hpos
      omega

/-- A difference from an earlier time is not rounded below one from a later time. -/
theorem units_sub_le {w : UnpackedFloat} (hu : IsNumber u) (hv : IsNumber v) (hw : IsNumber w)
    (hle : units v ≤ units w) (hle' : units w ≤ units u) :
    units (UnpackedFloat.sub .binary64 u w) ≤ units (UnpackedFloat.sub .binary64 u v) := by
  obtain hlt | heq := Int.lt_or_eq_of_le hle
  · exact (rounds_sub hu hw hle').le (rounds_sub hu hv (Int.le_trans hle hle')) (by omega)
  · have hcompare : v.compare w = some .eq := by
      rw [compare_eq_units hv hw, Int.compare_eq_eq.2 heq]
    obtain ⟨rfl, -⟩ | ⟨s, t, rfl, rfl⟩ := compare_eq_eq.1 hcompare
    · exact Int.le_refl _
    · cases u with
      | zero r => cases r <;> cases s <;> cases t <;> exact Int.le_refl _
      | finite => exact Int.le_refl _
      | _ => cases hu

theorem compare_infinity_ne (w : UnpackedFloat) :
    (UnpackedFloat.infinity .positive).compare w ≠ some .lt := by
  cases w with
  | infinity s => cases s <;> nofun
  | _ => nofun

theorem compare_negative_infinity_ne (u : UnpackedFloat) :
    u.compare (.infinity .negative) ≠ some .lt := by
  cases u with
  | infinity s | zero s | finite s => cases s <;> nofun
  | notANumber => nofun

theorem compare_infinity_of_plain (hu : IsPlain u) : u.compare (.infinity .positive) = some .lt := by
  cases u with
  | infinity | notANumber => cases hu
  | zero s => cases s <;> rfl
  | finite s => cases s <;> rfl

theorem IsPlain.isNumber (hu : IsPlain u) : IsNumber u := by
  cases u with
  | finite s m e hm =>
    cases s with
    | positive => exact hu
    | negative => cases hu
  | zero => trivial
  | _ => cases hu

/-- A plain number that is not above one that is packed as it is, is packed as it is. -/
theorem unpack_pack_of_le {hm : 0 < m} (hu : IsPlain u) (hv : IsPlain (.finite .positive m e hm))
    (he : e ≤ 971) (hle : units u ≤ units (.finite .positive m e hm)) :
    (Float.Model.pack u).unpack = u := by
  cases u with
  | infinity | notANumber => cases hu
  | zero s => cases s <;> rfl
  | finite s n f hn =>
    cases s with
    | negative => cases hu
    | positive =>
      refine unpack_pack_of_plain hu (Int.not_lt.1 fun hf => ?_)
      have hlt := units_lt_of_exponent_lt hv.1 hv.2.1 hu.2.2 (show e < f by omega)
      simp only [units, Sign.apply] at hle
      omega

/-- What is packed below anything is packed as it is, and so is what is not above it. -/
theorem packed_of_compare_lt {w : UnpackedFloat} (hu : IsPlain u) (hv : IsPlain v)
    (hle : units u ≤ units v) (h : (Float.Model.pack v).unpack.compare w = some .lt) :
    (Float.Model.pack v).unpack = v ∧ (Float.Model.pack u).unpack = u := by
  cases v with
  | infinity | notANumber => cases hv
  | zero s =>
    refine ⟨by cases s <;> rfl, ?_⟩
    cases u with
    | infinity | notANumber => cases hu
    | zero t => cases t <;> rfl
    | finite t n f hn =>
      cases t with
      | negative => cases hu
      | positive => exact absurd units_pos (Int.not_lt.2 hle)
  | finite s m e hm =>
    cases s with
    | negative => cases hv
    | positive =>
      by_cases he : e ≤ 971
      · exact ⟨unpack_pack_of_plain hv he, unpack_pack_of_le hu hv he hle⟩
      · rw [unpack_pack_of_lt (by omega)] at h
        exact absurd h (compare_infinity_ne w)

/-- Packing keeps what is below a number below it. -/
theorem compare_pack_lt {w : UnpackedFloat} (hu : IsPlain u) (hv : IsPlain v)
    (hw : IsNumber w ∨ w.isNaN = true ∨ ∃ s, w = .infinity s) (hle : units u ≤ units v)
    (h : (Float.Model.pack v).unpack.compare w = some .lt) :
    (Float.Model.pack u).unpack.compare w = some .lt := by
  obtain ⟨hpv, hpu⟩ := packed_of_compare_lt hu hv hle h
  rw [hpv] at h
  rw [hpu]
  obtain hw | hw | ⟨s, rfl⟩ := hw
  · rw [compare_eq_units hv.isNumber hw] at h
    rw [compare_eq_units hu.isNumber hw]
    have := Int.compare_eq_lt.1 (Option.some.inj h)
    rw [Int.compare_eq_lt.2 (by omega)]
  · rw [compare_eq_none.2 (.inr hw)] at h
    cases h
  · cases s with
    | negative => exact absurd h (compare_negative_infinity_ne v)
    | positive => exact compare_infinity_of_plain hu

/-- Any float is a number, or an infinity, or no number at all. -/
theorem unpack_cases (x : Float) : IsNumber x.toModel.unpack ∨ x.isNaN = true
    ∨ ∃ s, x.toModel.unpack = .infinity s := by
  cases h : x.toModel.unpack with
  | notANumber => exact .inr (.inl (by change x.toModel.unpack.isNaN = true; rw [h]; rfl))
  | infinity s => exact .inr (.inr ⟨s, rfl⟩)
  | zero s => exact .inl trivial
  | finite s m e hm =>
    obtain ⟨hlt, hmin, -, hform⟩ := unpack_finite h
    exact .inl ⟨hlt, hmin, hform⟩

theorem not_isNaN_of_le {a b : Float} (h : a ≤ b) : ¬ a.isNaN = true ∧ ¬ b.isNaN = true := by
  rw [← not_or]
  intro hnan
  rw [le_iff, compare_eq_none.2 hnan] at h
  cases h

theorem sub_lt_iff {a b q : Float} : b - a < q ↔ (Float.Model.pack (UnpackedFloat.sub .binary64
    b.toModel.unpack a.toModel.unpack)).unpack.compare q.toModel.unpack = some .lt :=
  lt_iff

/-- A difference from or of an infinity is an infinity, or no number. -/
theorem sub_of_infinity {s : Sign} (hle : (u.compare v).any (·.isLE) = true)
    (h : u = .infinity s ∨ v = .infinity s) : UnpackedFloat.sub .binary64 v u = .infinity .positive
      ∨ UnpackedFloat.sub .binary64 v u = .notANumber := by
  obtain rfl | rfl := h
  · cases v with
    | infinity t | zero t | finite t =>
      cases s <;> cases t <;> first | exact .inl rfl | exact .inr rfl | cases hle
    | notANumber => exact .inr rfl
  · cases u with
    | infinity t | zero t | finite t =>
      cases s <;> cases t <;> first | exact .inl rfl | exact .inr rfl | cases hle
    | notANumber => exact .inr rfl

/-- Only a difference of numbers is below anything. -/
theorem isNumber_of_sub_lt {a b q : Float} (h : a ≤ b) (hlt : b - a < q) :
    IsNumber a.toModel.unpack ∧ IsNumber b.toModel.unpack := by
  obtain ⟨hna, hnb⟩ := not_isNaN_of_le h
  rw [sub_lt_iff] at hlt
  have hinf : ∀ s, ¬ (a.toModel.unpack = .infinity s ∨ b.toModel.unpack = .infinity s) := by
    intro s hinf
    obtain hsub | hsub := sub_of_infinity (le_iff.1 h) hinf
    · rw [hsub] at hlt
      exact compare_infinity_ne _ hlt
    · rw [hsub] at hlt
      cases hlt
  refine ⟨(unpack_cases a).resolve_right ?_, (unpack_cases b).resolve_right ?_⟩
  · rintro (ha | ⟨s, ha⟩)
    · exact hna ha
    · exact hinf s (.inl ha)
  · rintro (hb | ⟨s, hb⟩)
    · exact hnb hb
    · exact hinf s (.inr hb)

theorem units_le_of_le {a b : Float} (ha : IsNumber a.toModel.unpack) (hb : IsNumber b.toModel.unpack)
    (h : a ≤ b) : units a.toModel.unpack ≤ units b.toModel.unpack := by
  rw [le_iff, compare_eq_units ha hb] at h
  exact Int.isLE_compare.1 h

theorem isNumber_between {a b c : Float} (ha : IsNumber a.toModel.unpack)
    (hc : IsNumber c.toModel.unpack) (h : a ≤ b) (h' : b ≤ c) : IsNumber b.toModel.unpack := by
  obtain hb | hb | ⟨s, hb⟩ := unpack_cases b
  · exact hb
  · exact absurd hb (not_isNaN_of_le h).2
  · exfalso
    rw [le_iff, hb] at h h'
    cases s with
    | positive =>
      generalize c.toModel.unpack = w at *
      cases w with
      | infinity | notANumber => cases hc
      | zero s | finite s => cases s <;> cases h'
    | negative =>
      generalize a.toModel.unpack = u at *
      cases u with
      | infinity | notANumber => cases ha
      | zero s | finite s => cases s <;> cases h

/-- What is not below a bound after a later time is not below it after an earlier one. -/
theorem sub_not_lt {a a' b q : Float} (h : a ≤ a') (h' : a' ≤ b) (hle : a ≤ b) (hq : ¬ b - a' < q) :
    ¬ b - a < q := by
  intro hlt
  obtain ⟨ha, hb⟩ := isNumber_of_sub_lt hle hlt
  have ha' := isNumber_between ha hb h h'
  have hunits := units_le_of_le ha ha' h
  have hunits' := units_le_of_le ha' hb h'
  have hplain := (rounds_sub hb ha (Int.le_trans hunits hunits')).plain
  have hplain' := (rounds_sub hb ha' hunits').plain
  rw [sub_lt_iff] at hlt hq
  exact hq (compare_pack_lt hplain' hplain (unpack_cases q) (units_sub_le hb ha ha' hunits hunits') hlt)

end TableRoster.Times
