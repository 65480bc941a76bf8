/-
Doubles in the logic: packing, the sign bit, products by one, and the test of equality.

A double is 64 bits, and arithmetic on it is arithmetic on its unpacked form, packed again. Unpacking loses nothing
(`pack_unpack`), so a statement about unpacked forms is one about bits. `toBits_neg` says that negation flips the sign bit and no
other bit of a number; `one_mul` and `neg_one_mul` that the product by one is the number and the product by minus one its negation,
rounding included: the product of a 53-bit significand and 2^52 is shifted back by the 52 bits it gained, and nothing is rounded
away. `eq_or_zero_of_beq` says what the test of equality means: the same bits, or two zeros.
-/
import Mathlib
import MomentProgram.Scalar

namespace MomentProgram.Double

open Float.Model Float.Model.UnpackedFloat

/-- the format of doubles -/
abbrev binary64 : Float.Model.Format := .binary64

/-! ## Unpacking loses nothing -/

theorem sign_toBitVec_ofBitVec (v : BitVec 1) : (Sign.ofBitVec v).toBitVec = v := by
  revert v; decide

/-- sign, exponent and mantissa of a word, put together again -/
theorem packComponents_fields (b : BitVec binary64.numBits) :
    packComponents binary64 (Sign.ofBitVec (unpackSign b)) (unpackExponent b) (unpackMantissa b) = b := by
  apply BitVec.eq_of_getLsbD_eq
  intro i hi
  simp only [packComponents, sign_toBitVec_ofBitVec, unpackSign, unpackExponent, unpackMantissa, BitVec.getLsbD_append,
    BitVec.getLsbD_cast, BitVec.getLsbD_extractLsb]
  grind

theorem toNat_implicit_append (m : BitVec 52) : (1#1 ++ m).toNat = 2 ^ 52 + m.toNat := by
  have h := BitVec.toNat_append 1#1 m
  rw [h, ← Nat.shiftLeft_add_eq_or_of_lt m.isLt]
  rfl

/-- the fields of a word of the format, read as numbers -/
theorem pack_finite_subnormal (s : Sign) (m : Nat) (hm : 0 < m) (hlt : m < 2 ^ 52) :
    UnpackedFloat.pack binary64 (.finite s m (-1074) hm) = packComponents binary64 s 0#11 (BitVec.ofNat 52 m) := by
  have hlog : m.log2 < 52 := (Nat.log2_lt hm.ne').2 hlt
  have hne : ¬ m.log2 + 1 = binary64.mantissaBits := by
    rw [show binary64.mantissaBits = 53 from rfl]; omega
  unfold UnpackedFloat.pack
  rw [if_neg (by decide), if_neg hne]

theorem pack_finite_normal (s : Sign) (m E : Nat) (hlo : 2 ^ 52 ≤ m) (hhi : m < 2 ^ 53) (hE : E < 2047) (hm : 0 < m) :
    UnpackedFloat.pack binary64 (.finite s m ((E : Int) - 1075) hm) =
      packComponents binary64 s (BitVec.ofNat 11 E) (BitVec.ofNat 52 m) := by
  have hlog : m.log2 + 1 = binary64.mantissaBits := by
    have h1 := (Nat.le_log2 hm.ne').2 hlo
    have h2 := (Nat.log2_lt hm.ne').2 hhi
    rw [show binary64.mantissaBits = 53 from rfl]; omega
  have hexp : (((E : Int) - 1075) + binary64.exponentBias + binary64.mantissaBitsWithoutImplicit).toNat = E := by
    rw [show (binary64.exponentBias : Int) = 1023 from rfl]; simp; omega
  unfold UnpackedFloat.pack
  simp only [hexp]
  rw [if_neg (by simp; omega), if_pos hlog]

/-- what a word unpacks to, by its exponent and mantissa -/
theorem unpack_fields (b : BitVec binary64.numBits) :
    (unpackExponent b = -1#11 ∧ unpackMantissa b = 0#52 ∧ unpack binary64 b = .infinity (.ofBitVec (unpackSign b))) ∨
    (unpackExponent b = -1#11 ∧ unpackMantissa b ≠ 0#52 ∧ unpack binary64 b = .notANumber) ∨
    (unpackExponent b = 0#11 ∧ unpackMantissa b = 0#52 ∧ unpack binary64 b = .zero (.ofBitVec (unpackSign b))) ∨
    (unpackExponent b = 0#11 ∧ ∃ h : 0 < (unpackMantissa b).toNat,
      unpack binary64 b = .finite (.ofBitVec (unpackSign b)) (unpackMantissa b).toNat (-1074) h) ∨
    ((unpackExponent b).toNat < 2047 ∧ 0 < (unpackExponent b).toNat ∧ ∃ h : 0 < 2 ^ 52 + (unpackMantissa b).toNat,
      unpack binary64 b =
        .finite (.ofBitVec (unpackSign b)) (2 ^ 52 + (unpackMantissa b).toNat) ((unpackExponent b).toNat - 1075) h) := by
  unfold UnpackedFloat.unpack
  dsimp only
  by_cases htop : unpackExponent b = -1#11
  · by_cases hM : unpackMantissa b = 0#52
    · exact .inl ⟨htop, hM, by rw [if_pos htop, if_pos hM]⟩
    · exact .inr (.inl ⟨htop, hM, by rw [if_pos htop, if_neg hM]⟩)
  · by_cases hbottom : unpackExponent b = 0#11
    · by_cases hM : unpackMantissa b = 0#52
      · exact .inr (.inr (.inl ⟨hbottom, hM, by rw [if_neg htop, if_pos hbottom, dif_pos hM]⟩))
      · have hpos : 0 < (unpackMantissa b).toNat := Nat.pos_of_ne_zero fun h => hM (BitVec.eq_of_toNat_eq h)
        refine .inr (.inr (.inr (.inl ⟨hbottom, hpos, ?_⟩)))
        rw [if_neg htop, if_pos hbottom, dif_neg hM]
        simp only [hbottom]
        rfl
    · have hE := (unpackExponent b).isLt
      have hlt : (unpackExponent b).toNat ≠ 2047 := fun h => htop (BitVec.eq_of_toNat_eq h)
      have hpos : (unpackExponent b).toNat ≠ 0 := fun h => hbottom (BitVec.eq_of_toNat_eq h)
      refine .inr (.inr (.inr (.inr ⟨by simp at hE; omega, by omega, by positivity, ?_⟩)))
      rw [if_neg htop, if_neg hbottom]
      simp only [toNat_implicit_append]
      rfl

/-- **A word is what its unpacked form packs to**, as long as its NaN is the one that is stored. -/
theorem pack_unpack (b : BitVec binary64.numBits) (hb : binary64.Valid b) :
    UnpackedFloat.pack binary64 (unpack binary64 b) = b := by
  have hfields := packComponents_fields b
  have hbits : (unpackMantissa b).toNat < 2 ^ 52 := (unpackMantissa b).isLt
  rcases unpack_fields b with ⟨hE, hM, h⟩ | ⟨hE, hM, h⟩ | ⟨hE, hM, h⟩ | ⟨hE, hpos, h⟩ | ⟨hlt, hpos, hm, h⟩
  · rw [hE, hM] at hfields
    rw [h]; exact hfields
  · rw [h]; exact (hb.eq_packedNaN hE hM).symm
  · rw [hE, hM] at hfields
    rw [h]; exact hfields
  · rw [h, pack_finite_subnormal _ _ _ hbits, BitVec.ofNat_toNat, BitVec.setWidth_eq, ← hE, hfields]
  · have hmantissa : BitVec.ofNat 52 (2 ^ 52 + (unpackMantissa b).toNat) = unpackMantissa b := by
      apply BitVec.eq_of_toNat_eq
      rw [BitVec.toNat_ofNat, Nat.add_mod_left, Nat.mod_eq_of_lt hbits]
    rw [h, pack_finite_normal _ _ _ (by omega) (by omega) hlt, hmantissa, BitVec.ofNat_toNat, BitVec.setWidth_eq, hfields]

/-- a double is the packed form of what it unpacks to -/
theorem ofModel_pack_unpack (x : Float) : Float.ofModel (Float.Model.pack x.toModel.unpack) = x := by
  obtain ⟨⟨bits, hv⟩⟩ := x
  have h : UnpackedFloat.pack binary64 (unpack binary64 bits.toBitVec) = bits.toBitVec := pack_unpack _ hv
  simp only [Float.Model.pack, Float.Model.unpack, h]

/-- a double is a number unless it unpacks to the NaN -/
theorem isNaN_eq_false_iff {x : Float} : x.isNaN = false ↔ x.toModel.unpack ≠ .notANumber := by
  show UnpackedFloat.isNaN x.toModel.unpack = false ↔ _
  cases x.toModel.unpack with
  | notANumber => exact iff_of_false nofun (not_not.2 rfl)
  | infinity s => exact iff_of_true rfl nofun
  | zero s => exact iff_of_true rfl nofun
  | finite s m e hm => exact iff_of_true rfl nofun

/-! ## The sign bit -/

/-- the highest of 64 bits -/
def signBit : UInt64 := 0x8000000000000000

theorem packComponents_neg (s : Sign) (e : BitVec 11) (m : BitVec 52) :
    packComponents binary64 (-s) e m = packComponents binary64 s e m ^^^ signBit.toBitVec := by
  have hbit : signBit.toBitVec = 1#1 ++ 0#11 ++ 0#52 := rfl
  have hsign : (-s).toBitVec = s.toBitVec ^^^ 1#1 := by cases s <;> rfl
  rw [packComponents, packComponents, hbit, hsign, BitVec.xor_append, BitVec.xor_append, BitVec.xor_zero, BitVec.xor_zero]

/-- negation flips the sign bit of what a number is stored as -/
theorem pack_neg (u : UnpackedFloat) (hu : u ≠ .notANumber) :
    UnpackedFloat.pack binary64 u.neg = UnpackedFloat.pack binary64 u ^^^ signBit.toBitVec := by
  cases u with
  | notANumber => exact absurd rfl hu
  | infinity s => exact packComponents_neg s _ _
  | zero s => exact packComponents_neg s _ _
  | finite s m e hm =>
    simp only [UnpackedFloat.neg, UnpackedFloat.pack]
    split_ifs
    · exact packComponents_neg s _ _
    · exact packComponents_neg s _ _
    · exact packComponents_neg s _ _

/-- **Negation flips the sign bit** of every double that is a number, and changes nothing else. -/
theorem toBits_neg (x : Float) (hx : x.isNaN = false) : (-x).toBits = x.toBits ^^^ signBit := by
  have hnan : x.toModel.unpack ≠ .notANumber := isNaN_eq_false_iff.1 hx
  have hpack : UnpackedFloat.pack binary64 x.toModel.unpack = x.toBits.toBitVec := pack_unpack _ x.toModel.valid
  apply UInt64.toBitVec_inj.1
  show UnpackedFloat.pack binary64 x.toModel.unpack.neg = x.toBits.toBitVec ^^^ signBit.toBitVec
  rw [pack_neg _ hnan, hpack]

theorem toBits_injective : Function.Injective Float.toBits := by
  rintro ⟨⟨b, hb⟩⟩ ⟨⟨c, hc⟩⟩ h
  obtain rfl : b = c := h
  rfl

/-- there is only one NaN -/
theorem eq_nan {x : Float} (h : x.isNaN = true) : x = Float.ofModel (Float.Model.pack .notANumber) := by
  have hu : x.toModel.unpack = .notANumber := by
    have h' : UnpackedFloat.isNaN x.toModel.unpack = true := h
    cases hu : x.toModel.unpack <;> rw [hu] at h' <;> first | rfl | cases h'
  rw [← hu, ofModel_pack_unpack]

theorem isNaN_neg {x : Float} (hx : x.isNaN = false) : (-x).isNaN = false := by
  rw [← Bool.not_eq_true]
  intro h
  have hbits := toBits_neg x hx
  rw [eq_nan h] at hbits
  -- NaN with the sign bit flipped would be a second NaN
  have hx' : x.toBits = (Float.ofModel (Float.Model.pack .notANumber)).toBits ^^^ signBit := by
    rw [hbits, UInt64.xor_assoc, UInt64.xor_self, UInt64.xor_zero]
  have hunpack : x.isNaN = (unpack binary64 x.toBits.toBitVec).isNaN := rfl
  rw [hunpack, hx'] at hx
  revert hx
  decide

theorem neg_neg (x : Float) : - -x = x := by
  cases hx : x.isNaN with
  | false =>
    apply toBits_injective
    rw [toBits_neg _ (isNaN_neg hx), toBits_neg x hx, UInt64.xor_assoc, UInt64.xor_self, UInt64.xor_zero]
  | true => rw [eq_nan hx]; rfl

/-! ## Products by one and by minus one -/

/-- shifting back what a shift to the left has gained loses no bit -/
theorem shiftRight_exact (m k : Nat) :
    (⟨2 ^ k * m, false, false⟩ : ExtendedMantissa) >>> k = ⟨m, false, false⟩ := by
  show Nat.repeat ExtendedMantissa.shiftRightOne k ⟨2 ^ k * m, false, false⟩ = _
  induction k generalizing m with
  | zero => simp [Nat.repeat]
  | succ k ih =>
    have hstep : 2 ^ (k + 1) * m = 2 ^ k * (2 * m) := by rw [pow_succ, mul_assoc]
    rw [Nat.repeat, hstep, ih (2 * m)]
    simp [ExtendedMantissa.shiftRightOne]

theorem targetExponent_binary64 (t : Int) : binary64.targetExponent t = max (t - 53) (-1074) := rfl

/-- what a word unpacks to has the exponent that its format asks for -/
theorem targetExponent_unpack {b : BitVec binary64.numBits} {s : Sign} {m : Nat} {e : Int} {hm : 0 < m}
    (h : unpack binary64 b = .finite s m e hm) : binary64.targetExponent (totalExponent m e) = e := by
  have hbits : (unpackMantissa b).toNat < 2 ^ 52 := (unpackMantissa b).isLt
  rw [targetExponent_binary64, totalExponent]
  rcases unpack_fields b with ⟨-, -, hu⟩ | ⟨-, -, hu⟩ | ⟨-, -, hu⟩ | ⟨-, hpos, hu⟩ | ⟨hlt, hpos, hmp, hu⟩
  · rw [h] at hu; cases hu
  · rw [h] at hu; cases hu
  · rw [h] at hu; cases hu
  · rw [h] at hu
    cases hu
    have hlog := (Nat.log2_lt hpos.ne').2 hbits
    omega
  · rw [h] at hu
    cases hu
    have h1 := (Nat.le_log2 hmp.ne').2 (Nat.le_add_right _ _)
    have h2 := (Nat.log2_lt hmp.ne').2 (show 2 ^ 52 + (unpackMantissa b).toNat < 2 ^ 53 by omega)
    omega

/-- 52 bits gained and given back: the rounding of `2^52 · m` at an exponent 52 lower is `m` -/
theorem roundWithAccuracy_gained (s : Sign) (m : Nat) (e : Int) (hm : 0 < m)
    (hcanon : binary64.targetExponent (totalExponent m e) = e) :
    roundWithAccuracy binary64 s (2 ^ 52 * m) (-52 + e) .exact = .finite s m e hm := by
  have hlog : (2 ^ 52 * m).log2 = 52 + m.log2 := by
    rw [Nat.log2_eq_iff (by positivity)]
    have hlo := Nat.log2_self_le hm.ne'
    have hhi := Nat.lt_log2_self (n := m)
    constructor
    · rw [pow_add]; exact Nat.mul_le_mul_left _ hlo
    · rw [add_assoc, pow_add]; exact Nat.mul_lt_mul_of_pos_left hhi (by positivity)
  have htotal : totalExponent (2 ^ 52 * m) (-52 + e) = totalExponent m e := by
    simp only [totalExponent, hlog]; push_cast; omega
  have hfirst : shiftToTargetExponent binary64 (2 ^ 52 * m) (-52 + e) .exact = (⟨m, false, false⟩, e) := by
    have hby : (e - (-52 + e)).toNat = 52 := by omega
    simp only [shiftToTargetExponent, htotal, hcanon, shiftToExponent, hby, ExtendedMantissa.ofMantissaAndAccuracy,
      shiftRight_exact]
    simp
  have hsecond : shiftToTargetExponent binary64 m e .exact = (⟨m, false, false⟩, e) := by
    have hby : (e - e).toNat = 0 := by omega
    simp only [shiftToTargetExponent, hcanon, shiftToExponent, hby, ExtendedMantissa.ofMantissaAndAccuracy]
    simpa using shiftRight_exact m 0
  have hround : (⟨m, false, false⟩ : ExtendedMantissa).roundedMantissa = m := rfl
  unfold roundWithAccuracy
  simp only [hfirst, hround, hsecond]
  rw [dif_neg hm.ne']

/-- the product of a double by plus or minus one: the sign is multiplied and nothing else changes -/
theorem mul_unit_unpack (t : Sign) (x : Float) :
    UnpackedFloat.mul binary64 (.finite t (2 ^ 52) (-52) (by norm_num)) x.toModel.unpack =
      match t with
      | .positive => x.toModel.unpack
      | .negative => x.toModel.unpack.neg := by
  cases hu : x.toModel.unpack with
  | notANumber => cases t <;> rfl
  | infinity s => cases t <;> cases s <;> rfl
  | zero s => cases t <;> cases s <;> rfl
  | finite s m e hm =>
    have hcanon := targetExponent_unpack hu
    simp only [UnpackedFloat.mul, roundWithAccuracy_gained _ m e hm hcanon]
    cases t <;> cases s <;> rfl

/-- **One times a double is the double**, NaN and both zeros included. -/
theorem one_mul (x : Float) : 1.0 * x = x := by
  show Float.ofModel (Float.Model.pack (UnpackedFloat.mul binary64 (1.0 : Float).toModel.unpack x.toModel.unpack)) = x
  rw [show (1.0 : Float).toModel.unpack = .finite .positive (2 ^ 52) (-52) (by norm_num) from rfl, mul_unit_unpack]
  exact ofModel_pack_unpack x

/-- **Minus one times a double is its negation**, bit for bit. -/
theorem neg_one_mul (x : Float) : -1.0 * x = -x := by
  show Float.ofModel (Float.Model.pack (UnpackedFloat.mul binary64 (-1.0 : Float).toModel.unpack x.toModel.unpack)) = -x
  rw [show (-1.0 : Float).toModel.unpack = .finite .negative (2 ^ 52) (-52) (by norm_num) from rfl, mul_unit_unpack]
  rfl

/-! ## The test of equality -/

/-- one of the two zeros -/
def IsZero (x : Float) : Prop := x = 0.0 ∨ x = -0.0

theorem isZero_of_unpack {x : Float} {s : Sign} (h : x.toModel.unpack = .zero s) : IsZero x := by
  rw [← ofModel_pack_unpack x, h]
  cases s with
  | positive => exact .inl rfl
  | negative => exact .inr rfl

theorem eq_of_unpack_eq {x y : Float} (h : x.toModel.unpack = y.toModel.unpack) : x = y := by
  rw [← ofModel_pack_unpack x, h, ofModel_pack_unpack]

theorem finite_eq_of_compare {s : Sign} {m n : Nat} {e f : Int} (hm : 0 < m) (hn : 0 < n)
    (h : (compare e f).then (compare m n) = .eq) : UnpackedFloat.finite s m e hm = .finite s n f hn := by
  rw [Ordering.then_eq_eq] at h
  obtain rfl : e = f := Std.LawfulEqOrd.eq_of_compare h.1
  obtain rfl : m = n := Std.LawfulEqOrd.eq_of_compare h.2
  rfl

/-- unpacked forms that compare as equal are the same or both zero -/
theorem unpack_eq_or_zero {u v : UnpackedFloat} (h : u.compare v = some .eq) :
    u = v ∨ (∃ s, u = .zero s) ∧ ∃ s, v = .zero s := by
  cases u with
  | notANumber => cases v <;> cases h
  | infinity s =>
    cases v with
    | infinity t => cases s <;> cases t <;> first | exact .inl rfl | cases h
    | notANumber => cases h
    | zero t => cases s <;> cases h
    | finite t n f hn => cases s <;> cases h
  | zero s =>
    cases v with
    | zero t => exact .inr ⟨⟨s, rfl⟩, t, rfl⟩
    | notANumber => cases h
    | infinity t => cases t <;> cases h
    | finite t n f hn => cases t <;> cases h
  | finite s m e hm =>
    cases v with
    | notANumber => cases h
    | infinity t => cases t <;> cases s <;> cases h
    | zero t => cases s <;> cases h
    | finite t n f hn =>
      cases s <;> cases t
      · have h' : ((compare e f).then (compare m n)).swap = .eq := Option.some.inj h
        rw [Ordering.swap_eq_eq] at h'
        exact .inl (finite_eq_of_compare hm hn h')
      · cases h
      · cases h
      · exact .inl (finite_eq_of_compare hm hn (Option.some.inj h))

/-- **Equal doubles have the same bits or are both zero.** -/
theorem eq_or_zero_of_beq {x y : Float} (h : (x == y) = true) : x = y ∨ IsZero x ∧ IsZero y := by
  have hcompare : x.toModel.unpack.compare y.toModel.unpack = some .eq := by
    have : (x.toModel.unpack.compare y.toModel.unpack == some .eq) = true := h
    exact eq_of_beq this
  rcases unpack_eq_or_zero hcompare with heq | ⟨⟨s, hx⟩, t, hy⟩
  · exact .inl (eq_of_unpack_eq heq)
  · exact .inr ⟨isZero_of_unpack hx, isZero_of_unpack hy⟩

/-- a double that equals anything is a number -/
theorem not_isNaN_of_beq {x y : Float} (h : (x == y) = true) : x.isNaN = false := by
  have hcompare : (x.toModel.unpack.compare y.toModel.unpack == some .eq) = true := h
  refine isNaN_eq_false_iff.2 fun hu => ?_
  rw [hu] at hcompare
  cases hcompare

end MomentProgram.Double
