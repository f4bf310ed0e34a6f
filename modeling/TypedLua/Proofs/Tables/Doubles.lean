import Mathlib
import TypedLua.Number

/-!
# Equality of doubles

Every finite double has one significand and one exponent, so two doubles that are the same whole
number are the same double, but for the two zeros.
-/

namespace TypedLua.Binary64

def IsInt : Binary64 → Int → Prop
  | finite negative m q, n => (if negative then -m else m : Int) * 2 ^ q.toNat = n * 2 ^ (-q).toNat
  | _, _ => False

structure IsNormal (m : Nat) (q : Int) : Prop where
  lt : m < 2 ^ 53
  least : -1074 ≤ q
  leading : 2 ^ 52 ≤ m ∨ q = -1074

variable {x y : Float} {negative negative' : Bool} {m m' : Nat} {q q' n : Int}

theorem bits_of_decode (h : decode x = finite negative m q) :
    ∃ e f, x.toBits.toNat = (if negative then 2 ^ 63 else 0) + e * 2 ^ 52 + f ∧ f < 2 ^ 52 ∧
      (e = 0 ∧ m = f ∧ q = -1074 ∨ 0 < e ∧ m = 2 ^ 52 + f ∧ q = e - 1075) := by
  have hbits : x.toBits.toNat < 2 ^ 64 := x.toBits.toNat_lt
  have hhidden : hiddenBit = 2 ^ 52 := rfl
  have hsign : signBit = 2 ^ 63 := rfl
  refine ⟨x.toBits.toNat / hiddenBit % (topExponent + 1), x.toBits.toNat % hiddenBit, ?_⟩
  unfold decode at h
  dsimp only at h
  generalize x.toBits.toNat = bits at h hbits ⊢
  have hsplit : bits = (if signBit ≤ bits then 2 ^ 63 else 0) +
      bits / hiddenBit % (topExponent + 1) * 2 ^ 52 + bits % hiddenBit := by
    rw [hhidden, hsign, topExponent]
    split <;> omega
  have hfraction : bits % hiddenBit < 2 ^ 52 := Nat.mod_lt _ (by decide)
  split at h
  · split at h <;> cases h
  · split at h
    case isTrue hzero =>
      cases h
      exact ⟨by simpa using hsplit, hfraction, .inl ⟨hzero, rfl, rfl⟩⟩
    case isFalse hzero =>
      cases h
      exact ⟨by simpa using hsplit, hfraction, .inr ⟨Nat.pos_of_ne_zero hzero, by rw [hhidden], rfl⟩⟩

theorem isNormal_of_decode (h : decode x = finite negative m q) : IsNormal m q := by
  obtain ⟨e, f, -, hf, ⟨-, rfl, rfl⟩ | ⟨he, rfl, rfl⟩⟩ := bits_of_decode h
  · exact ⟨by omega, by omega, .inr rfl⟩
  · exact ⟨by omega, by omega, .inl (by omega)⟩

theorem eq_of_decode (h : decode x = finite negative m q) (h' : decode y = finite negative m q) : x = y := by
  obtain ⟨e, f, hx, hf, hparts⟩ := bits_of_decode h
  obtain ⟨e', f', hy, hf', hparts'⟩ := bits_of_decode h'
  have hbits : x.toBits.toNat = y.toBits.toNat := by
    rw [hx, hy]
    omega
  exact Float.toBits_inj.1 (UInt64.toNat_inj.1 hbits)

theorem eq_of_isInt (hm : IsNormal m q) (hm' : IsNormal m' q') (h : (finite negative m q).IsInt n)
    (h' : (finite negative' m' q').IsInt n) : m = m' ∧ (m = 0 ∨ q = q' ∧ negative = negative') := by
  wlog hle : q ≤ q' generalizing negative negative' m m' q q'
  · obtain ⟨hm'm, hparts⟩ := this hm' hm h' h (by omega)
    refine ⟨hm'm.symm, hparts.imp (hm'm ▸ ·) fun ⟨hq, hs⟩ => ⟨hq.symm, hs.symm⟩⟩
  obtain ⟨d, rfl⟩ : ∃ d : Nat, q' = q + d := ⟨(q' - q).toNat, by omega⟩
  have hmag (s : Bool) (k : Nat) : (if s then -k else k : Int).natAbs = k := by cases s <;> simp
  -- Both magnitudes times the powers that clear the denominators.
  have habs : m * 2 ^ q.toNat = n.natAbs * 2 ^ (-q).toNat := by
    have := congrArg Int.natAbs h
    rwa [Int.natAbs_mul, hmag, Int.natAbs_mul, Int.natAbs_pow, Int.natAbs_pow] at this
  have habs' : m' * 2 ^ (q + d).toNat = n.natAbs * 2 ^ (-(q + d)).toNat := by
    have := congrArg Int.natAbs h'
    rwa [Int.natAbs_mul, hmag, Int.natAbs_mul, Int.natAbs_pow, Int.natAbs_pow] at this
  have hexp : (q + d).toNat + (-q).toNat = d + (q.toNat + (-(q + d)).toNat) := by omega
  have hcross : m = m' * 2 ^ d := by
    apply Nat.eq_of_mul_eq_mul_right (Nat.pow_pos (n := q.toNat + (-(q + d)).toNat) Nat.two_pos)
    calc m * 2 ^ (q.toNat + (-(q + d)).toNat) = m * 2 ^ q.toNat * 2 ^ (-(q + d)).toNat := by rw [pow_add, mul_assoc]
      _ = m' * 2 ^ ((q + d).toNat + (-q).toNat) := by rw [habs, mul_right_comm, ← habs', pow_add]; ring
      _ = m' * 2 ^ d * 2 ^ (q.toNat + (-(q + d)).toNat) := by rw [hexp, pow_add, mul_assoc]
  cases d with
  | succ d =>
    -- The larger exponent is not the least, so the significand above it has its leading digit.
    have hlead : 2 ^ 52 ≤ m' := hm'.leading.resolve_right (by have := hm.least; omega)
    have hbig : 2 ^ 52 * 2 ≤ m := by
      rw [hcross, pow_succ 2 d, ← mul_assoc]
      exact Nat.mul_le_mul_right 2 (hlead.trans (Nat.le_mul_of_pos_right _ (Nat.pow_pos Nat.two_pos)))
    exact absurd hm.lt (by omega)
  | zero =>
    obtain rfl : m = m' := by simpa using hcross
    refine ⟨rfl, or_iff_not_imp_left.2 fun hne => ⟨by simp, ?_⟩⟩
    have hsame : (if negative then -m else m : Int) = (if negative' then -m else m : Int) := by
      rw [IsInt, Nat.cast_zero, add_zero] at h'
      exact Int.eq_of_mul_eq_mul_right (pow_ne_zero _ two_ne_zero) (h.trans h'.symm)
    cases negative <;> cases negative' <;> simp at hsame ⊢ <;> omega

theorem toInt?_eq_some_iff : toInt? x = some n ↔ (decode x).IsInt n := by
  unfold toInt?
  cases decode x with
  | nan => simp [IsInt]
  | infinite negative => simp [IsInt]
  | finite negative m q =>
    rcases le_or_gt 0 q with hq | hq
    · have hzero : (-q).toNat = 0 := by omega
      simp [hq, IsInt, floorParts, hzero]
    · have hzero : q.toNat = 0 := by omega
      have hpos : (0 : Int) < 2 ^ (-q).toNat := by positivity
      have hdvd : m % 2 ^ (-q).toNat = 0 ↔ (2 ^ (-q).toNat : Int) ∣ if negative then -m else m := by
        rw [← Nat.dvd_iff_mod_eq_zero]
        cases negative <;> simp <;> norm_cast
      simp only [IsInt, hzero, pow_zero, mul_one, hq.not_ge, false_or, floorParts, if_false,
        Option.ite_none_right_eq_some, Option.some.injEq, Nat.pow_eq, hdvd, Nat.cast_pow, Nat.cast_ofNat,
        Int.fdiv_eq_ediv_of_nonneg _ hpos.le]
      constructor
      · rintro ⟨h, rfl⟩
        exact (Int.ediv_mul_cancel h).symm
      · intro h
        rw [h]
        exact ⟨Int.dvd_mul_left _ _, Int.mul_ediv_cancel _ hpos.ne'⟩

theorem compareInt_eq_iff : compareInt x n = some .eq ↔ toInt? x = some n := by
  rw [toInt?_eq_some_iff, compareInt]
  cases decode x with
  | nan => simp [IsInt]
  | infinite negative => cases negative <;> simp [IsInt]
  | finite negative m q =>
    rcases le_or_gt 0 q with hq | hq
    · have hzero : (-q).toNat = 0 := by omega
      simp [hq, IsInt, hzero]
    · have hzero : q.toNat = 0 := by omega
      simp [hq.not_ge, IsInt, hzero]

theorem isNaN_iff : isNaN x = true ↔ x = Float.nan := by
  constructor
  · intro h
    obtain ⟨hexponent, hfraction⟩ : x.toBits.toNat / 2 ^ 52 % 2048 = 2047 ∧ x.toBits.toNat % 2 ^ 52 ≠ 0 := by
      unfold isNaN decode at h
      dsimp only at h
      split at h
      · next hdecode =>
        split at hdecode
        · next htop =>
          split at hdecode
          · cases hdecode
          · next hne => exact ⟨htop, hne⟩
        · split at hdecode <;> cases hdecode
      · cases h
    have hbits : x.toBits.toBitVec = _ := x.toModel.valid.eq_packedNaN (BitVec.toNat_inj.1 (by
        rw [Float.Model.UnpackedFloat.unpackExponent_def, BitVec.extractLsb'_toNat, Nat.shiftRight_eq_div_pow]
        exact hexponent))
      (fun h => hfraction (by
        have := congrArg BitVec.toNat h
        rwa [Float.Model.UnpackedFloat.unpackMantissa_def, BitVec.extractLsb'_toNat] at this))
    rw [← Float.toBits_inj, ← UInt64.toBitVec_inj, hbits]
    decide
  · rintro rfl
    decide

theorem isInt_zero (negative : Bool) (q : Int) : (finite negative 0 q).IsInt 0 := by simp [IsInt]

theorem decode_zero : decode 0 = finite false 0 (-1074) := by decide

theorem decode_negative_zero : decode (-0) = finite true 0 (-1074) := by decide

/-- Doubles are equal if they are the same integer, or the same double and neither an integer nor
undefined. -/
theorem beq_iff : (x == y) = true ↔
    (∃ n, toInt? x = some n ∧ toInt? y = some n) ∨ (toInt? x = none ∧ isNaN x = false ∧ x = y) := by
  have hzero : toInt? 0 = some 0 := by
    rw [toInt?_eq_some_iff, decode_zero]
    exact isInt_zero ..
  have hnegative : toInt? (-0) = some 0 := by
    rw [toInt?_eq_some_iff, decode_negative_zero]
    exact isInt_zero ..
  have hnan : toInt? Float.nan = none := by decide
  rw [Float.beq_iff_ne_nan_and_eq]
  constructor
  · rintro ⟨hx, -, rfl | ⟨rfl, rfl⟩ | ⟨rfl, rfl⟩⟩
    · cases h : toInt? x with
      | some n => exact .inl ⟨n, rfl, rfl⟩
      | none => exact .inr ⟨rfl, by rwa [← Bool.not_eq_true, isNaN_iff], rfl⟩
    · exact .inl ⟨0, hzero, hnegative⟩
    · exact .inl ⟨0, hnegative, hzero⟩
  · rintro (⟨n, hx, hy⟩ | ⟨-, hx, rfl⟩)
    · refine ⟨fun h => ?_, fun h => ?_, ?_⟩
      · cases (h ▸ hx).symm.trans hnan
      · cases (h ▸ hy).symm.trans hnan
      · rw [toInt?_eq_some_iff] at hx hy
        match hdx : decode x, hdy : decode y, hx, hy with
        | finite s m q, finite s' m' q', hx, hy =>
          obtain ⟨rfl, rfl | ⟨rfl, rfl⟩⟩ := eq_of_isInt (isNormal_of_decode hdx) (isNormal_of_decode hdy) hx hy
          · have hq := (isNormal_of_decode hdx).leading.resolve_left (by decide)
            have hq' := (isNormal_of_decode hdy).leading.resolve_left (by decide)
            subst hq hq'
            cases s <;> cases s'
            · exact .inl (eq_of_decode hdx hdy)
            · exact .inr (.inl ⟨eq_of_decode hdx decode_zero, eq_of_decode hdy decode_negative_zero⟩)
            · exact .inr (.inr ⟨eq_of_decode hdx decode_negative_zero, eq_of_decode hdy decode_zero⟩)
            · exact .inl (eq_of_decode hdx hdy)
          · exact .inl (eq_of_decode hdx hdy)
    · rw [← Bool.not_eq_true, isNaN_iff] at hx
      exact ⟨hx, hx, .inl rfl⟩

theorem not_lt_of_beq (h : (x == y) = true) : ¬ x < y := by
  intro hlt
  have heq : (x.toModel.unpack.compare y.toModel.unpack == some .eq) = true := h
  have hlt : (x.toModel.unpack.compare y.toModel.unpack == some .lt) = true := of_decide_eq_true hlt
  cases (beq_iff_eq.1 heq).symm.trans (beq_iff_eq.1 hlt)

end TypedLua.Binary64
