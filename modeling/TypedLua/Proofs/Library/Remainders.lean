import TypedLua.Library.Arithmetic
import TypedLua.Proofs.Tables.Doubles

/-!
# Remainders of integers
-/

namespace TypedLua.Binary64

open Float.Model

def signOf (negative : Bool) : UnpackedFloat.Sign := if negative then .negative else .positive

/-- The significands and exponents of doubles that lead with the hidden bit. -/
structure IsLeading (m : Nat) (q : Int) : Prop where
  ge : 2 ^ 52 ≤ m
  lt : m < 2 ^ 53
  least : -1074 ≤ q
  greatest : q ≤ 971

variable {negative : Bool} {m : Nat} {q : Int}

def bitsOf (negative : Bool) (m : Nat) (q : Int) : Nat :=
  (if negative then 2 ^ 63 else 0) + ((q + 1075).toNat * 2 ^ 52 + (m - 2 ^ 52))

theorem IsLeading.pos (h : IsLeading m q) : 0 < m := by have := h.ge; omega

theorem unpack_bitsOf (h : IsLeading m q) :
    UnpackedFloat.unpack Format.binary64 (BitVec.ofNat 64 (bitsOf negative m q)) =
      .finite (signOf negative) m q h.pos := by
  obtain ⟨hge, hlt, hleast, hgreatest⟩ := h
  have hbits : (BitVec.ofNat 64 (bitsOf negative m q)).toNat = bitsOf negative m q := by
    rw [BitVec.toNat_ofNat, Nat.mod_eq_of_lt]
    unfold bitsOf
    split <;> omega
  have hsign : @UnpackedFloat.unpackSign Format.binary64 (BitVec.ofNat 64 (bitsOf negative m q)) =
      (signOf negative).toBitVec := by
    rw [UnpackedFloat.unpackSign_def, ← BitVec.toNat_inj, BitVec.extractLsb'_toNat, hbits, Nat.shiftRight_eq_div_pow]
    unfold bitsOf signOf
    cases negative <;> simp [UnpackedFloat.Sign.toBitVec] <;> omega
  have hexponent : @UnpackedFloat.unpackExponent Format.binary64 (BitVec.ofNat 64 (bitsOf negative m q)) =
      BitVec.ofNat 11 (q + 1075).toNat := by
    rw [UnpackedFloat.unpackExponent_def, ← BitVec.toNat_inj, BitVec.extractLsb'_toNat, hbits, Nat.shiftRight_eq_div_pow]
    simp only [BitVec.toNat_ofNat]
    unfold bitsOf
    split <;> omega
  have hmantissa : @UnpackedFloat.unpackMantissa Format.binary64 (BitVec.ofNat 64 (bitsOf negative m q)) =
      BitVec.ofNat 52 (m - 2 ^ 52) := by
    rw [UnpackedFloat.unpackMantissa_def, ← BitVec.toNat_inj, BitVec.extractLsb'_toNat, hbits, Nat.shiftRight_zero]
    simp only [BitVec.toNat_ofNat]
    unfold bitsOf
    split <;> omega
  have htoNat : (BitVec.ofNat 11 (q + 1075).toNat).toNat = (q + 1075).toNat := by
    rw [BitVec.toNat_ofNat, Nat.mod_eq_of_lt (by omega)]
  have hinfinite : BitVec.ofNat 11 (q + 1075).toNat ≠ -1#11 := fun heq => by
    have := congrArg BitVec.toNat heq
    rw [htoNat] at this
    simp at this
    omega
  have hzero : BitVec.ofNat 11 (q + 1075).toNat ≠ 0#11 := fun heq => by
    have := congrArg BitVec.toNat heq
    rw [htoNat] at this
    simp at this
    omega
  have hleading : (1#1 ++ BitVec.ofNat 52 (m - 2 ^ 52)).toNat = m := by
    rw [BitVec.toNat_append, ← Nat.shiftLeft_add_eq_or_of_lt (BitVec.isLt _), BitVec.toNat_ofNat, Nat.mod_eq_of_lt (by omega)]
    simp
    omega
  have hbias : Format.binary64.exponentBias = 1023 := rfl
  unfold UnpackedFloat.unpack
  simp only [hsign, hexponent, hmantissa, hinfinite, hzero, if_false, htoNat, hleading]
  simp
  omega

theorem pack_finite (h : IsLeading m q) : UnpackedFloat.pack Format.binary64 (.finite (signOf negative) m q h.pos) =
    BitVec.ofNat 64 (bitsOf negative m q) := by
  have hpack := @UnpackedFloat.pack_unpack Format.binary64 (BitVec.ofNat 64 (bitsOf negative m q))
  have hunpack := @unpack_bitsOf negative m q h
  rw [hunpack] at hpack
  split at hpack
  · next hnan =>
    simp only [UnpackedFloat.isNaNBits, decide_eq_true_eq] at hnan
    simp [UnpackedFloat.unpack, hnan] at hunpack
  · exact hpack

def normal (negative : Bool) (h : IsLeading m q) : Float :=
  .ofModel (.pack (.finite (signOf negative) m q h.pos))

theorem unpack_normal (h : IsLeading m q) :
    (normal negative h).toModel.unpack = .finite (signOf negative) m q h.pos := by
  have hbits : (normal negative h).toModel.toBits.toBitVec = _ := pack_finite h
  rw [Float.Model.unpack, hbits, unpack_bitsOf h]

theorem decode_normal (h : IsLeading m q) : decode (normal negative h) = .finite negative m q := by
  have hbits : (normal negative h).toBits.toNat = bitsOf negative m q := by
    have hpack : (normal negative h).toBits.toBitVec = _ := pack_finite h
    rw [← UInt64.toNat_toBitVec, hpack, BitVec.toNat_ofNat, Nat.mod_eq_of_lt]
    obtain ⟨hge, hlt, hleast, hgreatest⟩ := h
    unfold bitsOf
    split <;> omega
  obtain ⟨hge, hlt, hleast, hgreatest⟩ := h
  unfold decode
  simp only [hbits, hiddenBit, signBit, topExponent, Nat.pow_eq]
  have hexponent : bitsOf negative m q / 2 ^ 52 % 2048 = (q + 1075).toNat := by unfold bitsOf; split <;> omega
  have hfraction : bitsOf negative m q % 2 ^ 52 = m - 2 ^ 52 := by unfold bitsOf; split <;> omega
  have hsign : decide (2 ^ 63 ≤ bitsOf negative m q) = negative := by
    unfold bitsOf
    cases negative <;> simp; omega
  rw [hexponent, hfraction, hsign, if_neg (by omega), if_neg (by omega)]
  rw [Nat.add_sub_cancel' hge, show ((q + 1075).toNat : Int) - 1075 = q by omega]

theorem encode_normal (h : IsLeading m q) : encode negative m q = normal negative h := by
  have hmagnitude : (if negative then signBit else 0) +
      (if m < hiddenBit then m else (q + 1075).toNat * hiddenBit + (m - hiddenBit)) = bitsOf negative m q := by
    have hhidden : hiddenBit = 2 ^ 52 := rfl
    rw [hhidden, if_neg (Nat.not_lt.2 h.ge)]
    rfl
  have hunpack : UnpackedFloat.unpack Format.binary64 (UInt64.ofNat (bitsOf negative m q)).toBitVec = _ :=
    unpack_bitsOf h
  unfold encode
  dsimp only
  rw [hmagnitude, Float.ofBits, Float.Model.ofBits, hunpack]
  rfl

theorem log2_mul_two_pow {n : Nat} (h : n ≠ 0) (d : Nat) : (n * 2 ^ d).log2 = n.log2 + d := by
  induction d with
  | zero => simp
  | succ d ih => rw [Nat.pow_succ', Nat.mul_left_comm, Nat.log2_two_mul (by positivity), ih, Nat.add_assoc]

theorem IsLeading.log2 (h : IsLeading m q) : m.log2 = 52 := (Nat.log2_eq_iff h.pos.ne').2 ⟨h.ge, h.lt⟩

theorem shiftRight_mul (m d : Nat) : (⟨m * 2 ^ d, false, false⟩ : UnpackedFloat.ExtendedMantissa) >>> d =
    ⟨m, false, false⟩ := by
  induction d generalizing m with
  | zero => simp [HShiftRight.hShiftRight, Nat.repeat]
  | succ d ih =>
    have hrest := ih (m * 2)
    rw [Nat.mul_assoc, ← Nat.pow_succ'] at hrest
    show UnpackedFloat.ExtendedMantissa.shiftRightOne
      ((⟨m * 2 ^ (d + 1), false, false⟩ : UnpackedFloat.ExtendedMantissa) >>> d) = _
    rw [hrest]
    simp [UnpackedFloat.ExtendedMantissa.shiftRightOne]

theorem shiftToTargetExponent_eq (h : IsLeading m q) (d : Nat) :
    UnpackedFloat.shiftToTargetExponent Format.binary64 (m * 2 ^ d) (q - d) .exact = (⟨m, false, false⟩, q) := by
  have htarget : Format.binary64.targetExponent (totalExponent (m * 2 ^ d) (q - d)) = q := by
    have hleast := h.least
    rw [totalExponent, log2_mul_two_pow h.pos.ne', h.log2, Format.targetExponent]
    simp [Format.mantissaBits, Format.minExponent]
    omega
  rw [UnpackedFloat.shiftToTargetExponent, htarget, UnpackedFloat.shiftToExponent,
    show (q - (q - d)).toNat = d by omega]
  simp [UnpackedFloat.ExtendedMantissa.ofMantissaAndAccuracy, shiftRight_mul]

theorem roundWithAccuracy_eq (h : IsLeading m q) (s : UnpackedFloat.Sign) (d : Nat) :
    UnpackedFloat.roundWithAccuracy Format.binary64 s (m * 2 ^ d) (q - d) .exact = .finite s m q h.pos := by
  have hagain := shiftToTargetExponent_eq h 0
  rw [Nat.pow_zero, Nat.mul_one, Nat.cast_zero, sub_zero] at hagain
  have hm : m ≠ 0 := h.pos.ne'
  rw [UnpackedFloat.roundWithAccuracy, shiftToTargetExponent_eq h d]
  simp only [UnpackedFloat.ExtendedMantissa.roundedMantissa, UnpackedFloat.ExtendedMantissa.accuracy,
    UnpackedFloat.Accuracy.roundToNearestEven, hagain, hm, dif_neg, not_false_eq_true]

theorem ofNat_of_le {j : Nat} (h : IsLeading m j) (hj : 0 < j) : Float.ofNat (m * 2 ^ j) = normal false h := by
  have hlarge : 2 ^ 53 ≤ m * 2 ^ j := Nat.mul_le_mul h.ge (Nat.le_self_pow hj.ne' 2)
  have hround : _ = UnpackedFloat.finite .positive m j h.pos :=
    roundWithAccuracy_eq h (.positive * .positive) (j + 53)
  rw [Nat.pow_add, ← Nat.mul_assoc, ← Nat.shiftLeft_eq _ 53, show ((j : Int) - (j + 53 : Nat)) = -53 by omega] at hround
  have hscientific : UnpackedFloat.ofScientific Format.binary64 (m * 2 ^ j) 0 = .finite .positive m j h.pos := by
    rw [UnpackedFloat.ofScientific, dif_neg (by omega), if_neg (by decide), if_neg (by simp), if_pos (by decide)]
    simpa [UnpackedFloat.mul, Format.mantissaBits] using hround
  show Float.ofScientific (m * 2 ^ j) false 0 = _
  rw [Float.ofScientific, dif_neg (by omega)]
  show Float.ofModel (.pack (UnpackedFloat.ofScientific Format.binary64 (m * 2 ^ j) 0)) = _
  rw [hscientific]
  rfl

theorem ofNat_of_lt {n j : Nat} (h : IsLeading (n * 2 ^ j) (-j)) (hn : n < 2 ^ 53) : Float.ofNat n = normal false h := by
  have hpos : 0 < n := Nat.pos_of_mul_pos_right h.pos
  have hround := roundWithAccuracy_eq h .positive 0
  rw [Nat.pow_zero, Nat.mul_one, Nat.cast_zero, sub_zero] at hround
  have htarget : Format.binary64.targetExponent (totalExponent n 0) = -j := by
    have hlog := h.log2
    rw [log2_mul_two_pow hpos.ne'] at hlog
    rw [totalExponent, Format.targetExponent]
    simp [Format.mantissaBits, Format.minExponent]
    omega
  have hwhole : n.toUInt64.toFloat = normal false h := by
    have htoNat : n.toUInt64.toNat = n := Nat.mod_eq_of_lt (by omega)
    have hcompare : compare (n : Int) 0 = .gt := Int.compare_eq_gt.2 (by omega)
    show Float.ofModel (.pack (UnpackedFloat.normalize Format.binary64 (n.toUInt64.toNat : Int) 0 .positive)) = _
    rw [htoNat, UnpackedFloat.normalize, hcompare]
    simp only [UnpackedFloat.round, Int.toNat_natCast, htarget, UnpackedFloat.decreaseExponent, sub_neg_eq_add, zero_add,
      zero_sub, Nat.shiftLeft_eq, hround]
    rfl
  have hunit : IsLeading (2 ^ 52) (-52) := ⟨by decide, by decide, by decide, by decide⟩
  have hone : Float.exactlyRepresentablePowersOfTen[0] = normal false hunit := by
    rw [← encode_normal]
    decide
  have hmul := roundWithAccuracy_eq h (.positive * .positive) 52
  show Float.ofScientific n false 0 = _
  rw [Float.ofScientific, dif_pos ⟨hn, Nat.zero_le _⟩]
  simp only [Bool.false_eq_true, if_false, hwhole, hone]
  show Float.ofModel (.pack (UnpackedFloat.mul Format.binary64 _ _)) = _
  rw [unpack_normal, unpack_normal]
  simp only [UnpackedFloat.mul]
  rw [show (-(j : Int) + -52) = -j - (52 : Nat) by omega, roundWithAccuracy_eq h]
  rfl

/-- A double holds the integer: it has at most 53 binary digits in front of zeros, and is in the range. -/
def Holds (n : Int) : Prop := ∃ m e : Nat, n.natAbs = m * 2 ^ e ∧ m < 2 ^ 53 ∧ e ≤ 971

theorem isLeading_of_log2 (hm : m ≠ 0) (h : m.log2 = 52) (hleast : -1074 ≤ q) (hgreatest : q ≤ 971) :
    IsLeading m q :=
  have hbounds := (Nat.log2_eq_iff hm).1 h
  ⟨hbounds.1, hbounds.2, hleast, hgreatest⟩

theorem ofNat_holds {n m e : Nat} (hn : n ≠ 0) (h : n = m * 2 ^ e) (hm : m < 2 ^ 53) (he : e ≤ 971) :
    ∃ l q, ∃ hl : IsLeading l q, Float.ofNat n = normal false hl ∧ l * 2 ^ q.toNat = n * 2 ^ (-q).toNat := by
  have hne : m ≠ 0 := by
    rintro rfl
    simp [h] at hn
  have hlog : n.log2 = m.log2 + e := h ▸ log2_mul_two_pow hne e
  have hmlog : m.log2 < 53 := (Nat.log2_lt hne).2 hm
  by_cases hsmall : n.log2 ≤ 52
  · have hl : IsLeading (n * 2 ^ (52 - n.log2)) (-(52 - n.log2 : Nat)) :=
      isLeading_of_log2 (by positivity) (by rw [log2_mul_two_pow hn]; omega) (by omega) (by omega)
    exact ⟨_, _, hl, ofNat_of_lt hl ((Nat.log2_lt hn).1 (by omega)), by simp⟩
  · have hl : IsLeading (m * 2 ^ (53 - (m.log2 + 1))) (n.log2 - 52 : Nat) :=
      isLeading_of_log2 (by positivity) (by rw [log2_mul_two_pow hne]; omega) (by omega) (by omega)
    have heq : n = m * 2 ^ (53 - (m.log2 + 1)) * 2 ^ (n.log2 - 52) := by
      rw [Nat.mul_assoc, ← Nat.pow_add, h]
      congr 2
      rw [← h]
      omega
    refine ⟨_, _, hl, ?_, ?_⟩
    · rw [← ofNat_of_le hl (by omega), ← heq]
    · rw [Int.toNat_natCast, ← heq]
      simp

theorem neg_normal (h : IsLeading m q) : Float.neg (normal false h) = normal true h := by
  show Float.ofModel (.pack (normal false h).toModel.unpack.neg) = _
  rw [unpack_normal]
  rfl

/-- A double that is an integer, by its sign, its significand and its exponent. -/
structure Carries (x : Float) (negative : Bool) (m : Nat) (q n : Int) : Prop where
  decode_eq : decode x = finite negative m q
  isInt : (finite negative m q).IsInt n
  lt : m < 2 ^ 53
  least : -1074 ≤ q
  greatest : q ≤ 971

theorem carries_zero (negative : Bool) : Carries (encode negative 0 (-1074)) negative 0 (-1074) 0 :=
  ⟨by cases negative <;> decide, isInt_zero .., by decide, by decide, by decide⟩

theorem carries_normal {n : Int} (h : IsLeading m q) (hn : (finite negative m q).IsInt n) :
    Carries (normal negative h) negative m q n :=
  ⟨decode_normal h, hn, h.lt, h.least, h.greatest⟩

theorem carries_ofInt {n : Int} (h : Holds n) : ∃ negative m q, Carries (ofInt n) negative m q n := by
  obtain ⟨m, e, hmag, hm, he⟩ := h
  rcases n with n | n
  · by_cases hn : n = 0
    · subst hn
      exact ⟨false, 0, -1074, by decide, isInt_zero .., by decide, by decide, by decide⟩
    · obtain ⟨l, q, hl, hofNat, hval⟩ := ofNat_holds hn hmag hm he
      have hofInt : ofInt (.ofNat n) = normal false hl := hofNat
      exact ⟨false, l, q, hofInt ▸ carries_normal hl (by simpa [IsInt] using mod_cast hval)⟩
  · obtain ⟨l, q, hl, hofNat, hval⟩ := ofNat_holds n.succ_ne_zero hmag hm he
    have hofInt : ofInt (.negSucc n) = normal true hl := by
      rw [← neg_normal hl, ← hofNat]
      rfl
    have hint : (l : Int) * 2 ^ q.toNat = (n + 1) * 2 ^ (-q).toNat := mod_cast hval
    refine ⟨true, l, q, hofInt ▸ carries_normal hl ?_⟩
    simp [IsInt, Int.negSucc_eq, neg_mul, hint, -neg_add_rev]

/-! ## The remainder of doubles -/

theorem IsInt.natAbs {n : Int} (h : (finite negative m q).IsInt n) : m * 2 ^ q.toNat = n.natAbs * 2 ^ (-q).toNat := by
  have hmag : (if negative then -m else m : Int).natAbs = m := by cases negative <;> simp
  have habs := congrArg Int.natAbs h
  rwa [Int.natAbs_mul, hmag, Int.natAbs_mul, Int.natAbs_pow, Int.natAbs_pow] at habs

theorem isInt_iff {n : Int} : (finite negative m q).IsInt n ↔
    m * 2 ^ q.toNat = n.natAbs * 2 ^ (-q).toNat ∧ n = if negative then -(n.natAbs : Int) else n.natAbs := by
  have hpos : (0 : Int) < 2 ^ (-q).toNat := by positivity
  refine ⟨fun h => ⟨h.natAbs, ?_⟩, fun ⟨habs, hsign⟩ => ?_⟩
  · have hm : (0 : Int) ≤ m * 2 ^ q.toNat := by positivity
    cases negative with
    | false =>
      have hn : 0 ≤ n := nonneg_of_mul_nonneg_left (hm.trans_eq h) hpos
      simp only [Bool.false_eq_true, if_false]
      omega
    | true =>
      have hn : 0 ≤ -n := nonneg_of_mul_nonneg_left (hm.trans_eq (by rw [neg_mul, ← h]; simp)) hpos
      simp only [if_true]
      omega
  · have hint : (m : Int) * 2 ^ q.toNat = n.natAbs * 2 ^ (-q).toNat := mod_cast habs
    rw [IsInt, hsign]
    cases negative <;> simp [hint]

theorem IsInt.shift {n : Int} (h : (finite negative m q).IsInt n) (d : Nat) :
    (finite negative (m * 2 ^ d) (q - d)).IsInt n := by
  obtain ⟨habs, hsign⟩ := isInt_iff.1 h
  have hexp : d + (q - d).toNat + (-q).toNat = q.toNat + (-(q - d)).toNat := by omega
  refine isInt_iff.2 ⟨?_, hsign⟩
  apply Nat.eq_of_mul_eq_mul_right (Nat.pow_pos (n := (-q).toNat) Nat.two_pos)
  rw [mul_assoc, ← pow_add, mul_assoc, ← pow_add, ← add_assoc, hexp, pow_add, ← mul_assoc, habs]
  ring

theorem isInt_mod {negative' : Bool} {n : Nat} {a b : Int} (ha : (finite negative m q).IsInt a)
    (hb : (finite negative' n q).IsInt b) : (finite negative (m % n) q).IsInt (a.tmod b) := by
  obtain ⟨habs, hsign⟩ := isInt_iff.1 ha
  have hmod : a.tmod b = if negative then -((a.natAbs % b.natAbs : Nat) : Int) else (a.natAbs % b.natAbs : Nat) := by
    have hnat : (a.natAbs : Int).tmod b = (a.natAbs % b.natAbs : Nat) := by
      rw [Int.tmod_eq_emod_of_nonneg (by positivity), ← Int.emod_abs, Int.abs_eq_natAbs]
      rfl
    rw [hsign]
    cases negative
    · simpa using hnat
    · simpa using hnat
  have hnatAbs : (a.tmod b).natAbs = a.natAbs % b.natAbs := Int.natAbs_tmod a b
  refine isInt_iff.2 ⟨?_, by rw [hnatAbs, hmod]⟩
  rw [hnatAbs, ← Nat.mul_mod_mul_right, habs, hb.natAbs, Nat.mul_mod_mul_right]

theorem truncate?_eq {x : Float} {n : Int} (h : Carries x negative m q n) : truncate? x = some n := by
  obtain ⟨habs, hsign⟩ := isInt_iff.1 h.isInt
  have hfloor : floorParts false m q = n.natAbs := by
    rcases le_or_gt 0 q with hq | hq
    · have hzero : (-q).toNat = 0 := by omega
      rw [hzero, pow_zero, mul_one] at habs
      simp [floorParts, hq, ← habs]
    · have hzero : q.toNat = 0 := by omega
      rw [hzero, pow_zero, mul_one] at habs
      have hpos : (2 ^ (-q).toNat : Int) ≠ 0 := by positivity
      simp [floorParts, hq.not_ge, habs, Int.mul_fdiv_cancel _ hpos]
  rw [truncate?, h.decode_eq]
  simp only [hfloor, ← hsign]

theorem carries_ofExact {n : Int} (h : (finite negative m q).IsInt n) (hlt : m < 2 ^ 53) (hleast : -1074 ≤ q)
    (hgreatest : q ≤ 971) : ∃ l r, Carries (ofExact negative m q) negative l r n := by
  by_cases hm : m = 0
  · obtain rfl : n = 0 := by
      have := h.natAbs
      simpa [hm] using this.symm
    rw [ofExact, if_pos hm]
    exact ⟨0, -1074, carries_zero negative⟩
  · have hlog : m.log2 < 53 := (Nat.log2_lt hm).2 hlt
    -- The number is an integer other than zero, so its first digit is not behind the point.
    have hfirst : 0 ≤ q + m.log2 := by
      by_contra hneg
      have hval := h.natAbs
      rw [show q.toNat = 0 by omega, pow_zero, mul_one] at hval
      have hn : n.natAbs ≠ 0 := fun hzero => hm (by simpa [hzero] using hval)
      rw [hval, log2_mul_two_pow hn] at hneg
      omega
    have hl : IsLeading (m * 2 ^ (52 - m.log2)) (q - (52 - m.log2 : Nat)) :=
      isLeading_of_log2 (by positivity) (by rw [log2_mul_two_pow hm]; omega) (by omega) (by omega)
    have htarget : max (q + (m.log2 + 1 : Nat) - 53) (-1074) = q - (52 - m.log2 : Nat) := by omega
    have hexact : ofExact negative m q = normal negative hl := by
      have hshift : (q - (q - (52 - m.log2 : Nat))).toNat = 52 - m.log2 := by omega
      rw [ofExact, if_neg hm, ← encode_normal hl]
      simp only [htarget, if_pos (show q ≥ q - (52 - m.log2 : Nat) by omega), hshift, Nat.shiftLeft_eq]
    exact ⟨_, _, hexact ▸ carries_normal hl (h.shift _)⟩

/-- The remainder of two integers that doubles hold has no rounding: at the lower of their exponents it
is the remainder of the mantissas. -/
theorem carries_truncMod {x y : Float} {negative' : Bool} {n : Nat} {r a b : Int} (hx : Carries x negative m q a)
    (hy : Carries y negative' n r b) (hb : b ≠ 0) : ∃ l e, Carries (truncMod x y) negative l e (a.tmod b) := by
  have hn : n ≠ 0 := by
    rintro rfl
    have := hy.isInt.natAbs
    simp_all
  have hq := hx.isInt.shift (q - min q r).toNat
  have hr := hy.isInt.shift (r - min q r).toNat
  rw [show q - (q - min q r).toNat = min q r by omega] at hq
  rw [show r - (r - min q r).toNat = min q r by omega] at hr
  have hlt : m * 2 ^ (q - min q r).toNat % (n * 2 ^ (r - min q r).toNat) < 2 ^ 53 := by
    rcases le_total q r with h | h
    · simpa [h] using (Nat.mod_le ..).trans_lt hx.lt
    · simpa [h] using (Nat.mod_lt _ (Nat.pos_of_ne_zero hn)).trans hy.lt
  have hmod : truncMod x y =
      ofExact negative (m * 2 ^ (q - min q r).toNat % (n * 2 ^ (r - min q r).toNat)) (min q r) := by
    rw [truncMod, hx.decode_eq, hy.decode_eq]
    simp only [if_neg hn, Nat.shiftLeft_eq]
  rw [hmod]
  exact carries_ofExact (isInt_mod hq hr) hlt (le_min hx.least hy.least) ((min_le_left q r).trans hx.greatest)

end TypedLua.Binary64

namespace TypedLua.Library

open Binary64 (Holds Carries)

theorem toFloat_carries {x : Float} {negative : Bool} {m : Nat} {q n : Int} (h : Carries x negative m q n)
    (hx : Binary64.ofInt n = x) (store : Store) : toFloat (.int n) store = .ok x store := by
  have hinf : Binary64.isInfinite x = false := by rw [Binary64.isInfinite, h.decode_eq]
  simp only [toFloat, Number.toFloat, hx, hinf]
  rfl

theorem mathFmod_holds {a b : Int} (ha : Holds a) (hb : Holds b) (hne : b ≠ 0) (store : Store) :
    mathFmod (.int a) (.int b) store = .ok (.int (a.tmod b)) store := by
  obtain ⟨negative, m, q, hx⟩ := Binary64.carries_ofInt ha
  obtain ⟨negative', n, r, hy⟩ := Binary64.carries_ofInt hb
  obtain ⟨l, e, hmod⟩ := Binary64.carries_truncMod hx hy hne
  have hnan : Binary64.isNaN (Binary64.truncMod (Binary64.ofInt a) (Binary64.ofInt b)) = false := by
    rw [Binary64.isNaN, hmod.decode_eq]
  have hrem : remainder (Binary64.ofInt a) (Binary64.ofInt b) store =
      .ok (Binary64.truncMod (Binary64.ofInt a) (Binary64.ofInt b)) store := by
    simp only [remainder, hnan, Bool.false_and, Bool.false_eq_true, if_false]
    rfl
  show (if b = 0 then _ else _ : Run Value) store = _
  rw [if_neg hne, Run.bind_ok (toFloat_carries hx rfl store), Run.bind_ok (toFloat_carries hy rfl store),
    Run.bind_ok hrem, Binary64.truncate?_eq hmod]
  rfl

theorem fmod_eq_or (a b : Int) : a.fmod b = a.tmod b ∨ a.fmod b = a.tmod b + b := by
  rw [Int.fmod_eq_tmod]
  split_ifs <;> omega

theorem fdiv_eq_floor (a b : Int) : a.fdiv b = ⌊(a / b : ℚ)⌋ := by
  have hnat (c : Int) (n : Nat) : c.fdiv n = ⌊(c / n : ℚ)⌋ := by
    rw [Int.fdiv_eq_ediv_of_nonneg c n.cast_nonneg, Rat.floor_intCast_div_natCast]
  obtain ⟨n, rfl | rfl⟩ := b.eq_nat_or_neg
  · exact hnat a n
  · simpa [← Int.neg_fdiv_neg a, div_neg, neg_div] using hnat (-a) n

theorem onNumbers_int {operation : String} {f : Number → Number → Except Number.ArithError Number} {a b n : Int}
    (h : f (.int a) (.int b) = .ok (.int n)) : Operator.onNumbers operation f (.int a) (.int b) = .ok (.int n) := by
  show (Operator.arithmetic (f (.int a) (.int b))).bind _ = _
  rw [h]
  rfl

/-- **Remainders of integers.** The operators divide integers of every size exactly, and the quotient is
rounded down. The remainder of the library goes through doubles: where both integers are doubles it is the
exact truncated remainder, and the two remainders are equal or differ by the divisor. -/
theorem integer_remainders (a b : Int) (hb : b ≠ 0) :
    ∃ q r, Operator.binary .idiv (.int a) (.int b) = .ok (.int q) ∧
      Operator.binary .mod (.int a) (.int b) = .ok (.int r) ∧
      q = ⌊(a / b : ℚ)⌋ ∧ a = b * q + r ∧
      (Holds a → Holds b → ∃ s, (∀ store, mathFmod (.int a) (.int b) store = .ok (.int s) store) ∧
        |s| < |b| ∧ (s = 0 ∨ s.sign = a.sign) ∧ b ∣ a - s ∧ (r = s ∨ r = s + b)) := by
  refine ⟨a.fdiv b, a.fmod b, onNumbers_int (if_neg hb), onNumbers_int (if_neg hb), fdiv_eq_floor a b, (Int.mul_fdiv_add_fmod a b).symm,
    fun ha hb' => ⟨a.tmod b, mathFmod_holds ha hb' hb, ?_, ?_, Int.dvd_self_sub_tmod, fmod_eq_or a b⟩⟩
  · rw [Int.abs_eq_natAbs, Int.abs_eq_natAbs, Int.natAbs_tmod]
    exact mod_cast Nat.mod_lt _ (Int.natAbs_pos.2 hb)
  · rw [Int.sign_tmod]
    by_cases hdvd : b ∣ a
    · exact .inl (Int.tmod_eq_zero_of_dvd hdvd)
    · exact .inr (if_neg hdvd)

theorem integer_remainders_large : ∃ s, (∀ store, mathFmod (.int (-(7 * 2 ^ 80))) (.int (3 * 2 ^ 60)) store =
    .ok (.int s) store) ∧ |s| < |(3 * 2 ^ 60 : Int)| ∧ (s = 0 ∨ s.sign = -1) := by
  obtain ⟨q, r, -, -, -, -, hfmod⟩ := integer_remainders (-(7 * 2 ^ 80)) (3 * 2 ^ 60) (by decide)
  obtain ⟨s, hs, hlt, hsign, -⟩ := hfmod ⟨7, 80, by decide⟩ ⟨3, 60, by decide⟩
  exact ⟨s, hs, hlt, hsign⟩

end TypedLua.Library
