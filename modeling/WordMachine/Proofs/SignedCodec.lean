import WordMachine.Proofs.Signed

namespace WordMachine

/-- Half of the signed numbers of a width are negative. -/
structure IsSigned (width : Nat) (number : Int) : Prop where
  least : -2 ^ (width - 1) ≤ number
  below : number < 2 ^ (width - 1)

namespace IsSigned

variable {width : Nat} {number other : Int}

/-- A signed number of a width is one of every larger width. -/
theorem widen {wider : Nat} (signed : IsSigned width number) (longer : width ≤ wider) :
    IsSigned wider number := by
  have bound : (2 : Int) ^ (width - 1) ≤ 2 ^ (wider - 1) :=
    pow_le_pow_right₀ (by decide) (Nat.sub_le_sub_right longer 1)
  obtain ⟨least, below⟩ := signed
  exact ⟨by omega, by omega⟩

/-- A signed number of a width fits it. -/
theorem fits (signed : IsSigned width number) : Assembly.Fits width number := by
  have bound : (2 : Int) ^ (width - 1) ≤ 2 ^ width :=
    pow_le_pow_right₀ (by decide) (Nat.sub_le width 1)
  exact ⟨signed.least, signed.below.trans_le bound⟩

/-- A remainder belongs to a single signed number. -/
theorem eq_of_modEq (signed : IsSigned width number) (otherSigned : IsSigned width other)
    (positive : 1 ≤ width) (same : number ≡ other [ZMOD 2 ^ width]) : number = other := by
  have doubled : (2 : Int) ^ width = 2 * 2 ^ (width - 1) := by
    rw [← Int.pow_succ', Nat.sub_add_cancel positive]
  obtain ⟨least, below⟩ := signed
  obtain ⟨otherLeast, otherBelow⟩ := otherSigned
  have near : |other - number| < 2 ^ width := by
    rw [abs_lt]
    constructor <;> omega
  have vanishes := Int.eq_zero_of_abs_lt_dvd same.dvd near
  omega

end IsSigned

namespace Word

/-- A word reads as a signed number of its width. -/
theorem signed_isSigned {word : Word} (narrow : word.width ≤ 64) (positive : 1 ≤ word.width) :
    IsSigned word.width word.signed :=
  ⟨(signed_bounds narrow positive).1, (signed_bounds narrow positive).2⟩

/-- Only zeros fall off, and none of the bits within the width. -/
theorem withoutLeadingZeros_split (word : Word) (width : Nat) :
    ∃ count, count ≤ word.width - width ∧
      word.bits = List.replicate count false ++ (word.withoutLeadingZeros width).bits := by
  obtain ⟨bits⟩ := word
  let zeros := (bits.take (bits.length - width)).takeWhile (!·)
  have leading : zeros <+: bits := (List.takeWhile_prefix _).trans (List.take_prefix _ _)
  have short : zeros.length ≤ bits.length - width :=
    (List.takeWhile_prefix _).length_le.trans (List.length_take_le _ _)
  have only : zeros = List.replicate zeros.length false := by
    rw [List.eq_replicate_iff]
    refine ⟨rfl, fun bit listed => ?_⟩
    simpa using List.all_eq_true.mp List.all_takeWhile bit listed
  refine ⟨zeros.length, short, ?_⟩
  rw [← only]
  exact List.prefix_append_drop leading

/-- Leading zeros do not count. -/
theorem value_withoutLeadingZeros (word : Word) (width : Nat) :
    (word.withoutLeadingZeros width).value = word.value := by
  obtain ⟨count, _, split⟩ := word.withoutLeadingZeros_split width
  calc (word.withoutLeadingZeros width).value
      = value ⟨List.replicate count false ++ (word.withoutLeadingZeros width).bits⟩ := by
        rw [value_append, value_replicate_false, Nat.zero_mul, Nat.zero_add]
    _ = word.value := by rw [← split]

/-- Zeros are taken off down to the width only. -/
theorem width_withoutLeadingZeros {word : Word} {width : Nat} (long : width ≤ word.width) :
    width ≤ (word.withoutLeadingZeros width).width := by
  obtain ⟨count, short, split⟩ := word.withoutLeadingZeros_split width
  have total := congrArg List.length split
  rw [List.length_append, List.length_replicate] at total
  simp only [Word.width] at *
  omega

/-- The magnitude of a number takes at least the width. -/
def magnitude (width : Nat) (number : Int) : Word :=
  (ofNat (bitCount number.natAbs) number.natAbs).padded width

/-- The magnitude stands for the number without its sign. -/
theorem value_magnitude (width : Nat) (number : Int) :
    (magnitude width number).value = number.natAbs := by
  rw [magnitude, value_padded, value_ofNat_of_lt (lt_two_pow_bitCount _)]

theorem width_magnitude (width : Nat) (number : Int) :
    width ≤ (magnitude width number).width := by
  rw [magnitude, width_padded]
  exact Nat.le_max_left _ _

/-- A number without a minus sign is written as its magnitude. -/
theorem ofInt_of_nonneg {number : Int} (sign : 0 ≤ number) (width : Nat) :
    ofInt width number = magnitude width number := if_pos sign

theorem ofInt_of_neg {number : Int} (sign : number < 0) (width : Nat) :
    ofInt width number =
      ((magnitude width number).inverted.increment.lowBits
        (magnitude width number).width).withoutLeadingZeros width :=
  if_neg (Int.not_le.mpr sign)

/-- A number is written in at least the bits of the width. -/
theorem width_ofInt (width : Nat) (number : Int) : width ≤ (ofInt width number).width := by
  rcases lt_or_ge number 0 with sign | sign
  · rw [ofInt_of_neg sign]
    apply width_withoutLeadingZeros
    rw [width_lowBits]
    exact width_magnitude width number
  · rw [ofInt_of_nonneg sign]
    exact width_magnitude width number

/-- The complement of a magnitude counts from the top of the numbers of its own width, which are a
multiple of those of any narrower width. -/
theorem ofInt_modEq (width : Nat) (number : Int) :
    ((ofInt width number).value : Int) ≡ number [ZMOD 2 ^ width] := by
  rcases lt_or_ge number 0 with sign | sign
  · have flipped := value_inverted (magnitude width number)
    rw [value_magnitude] at flipped
    have cast : ((2 ^ (magnitude width number).width : Nat) : Int) =
        2 ^ (magnitude width number).width := by norm_cast
    have negated : ((magnitude width number).inverted.increment.value : Int) =
        number + 2 ^ (magnitude width number).width := by
      rw [value_increment]
      omega
    have whole : ((ofInt width number).value : Int) ≡ number
        [ZMOD 2 ^ (magnitude width number).width] :=
      calc ((ofInt width number).value : Int)
          = (number + 2 ^ (magnitude width number).width) %
              2 ^ (magnitude width number).width := by
            rw [ofInt_of_neg sign, value_withoutLeadingZeros, value_lowBits, Int.natCast_mod, cast,
              negated]
        _ ≡ number + 2 ^ (magnitude width number).width
              [ZMOD 2 ^ (magnitude width number).width] := Int.mod_modEq _ _
        _ ≡ number [ZMOD 2 ^ (magnitude width number).width] := Int.add_modEq_right
    exact whole.of_dvd (pow_dvd_pow 2 (width_magnitude width number))
  · rw [ofInt_of_nonneg sign, value_magnitude, Int.natAbs_of_nonneg sign]

/-- A magnitude below the count of all numbers of a width leaves no bit beyond it. -/
theorem width_ofInt_of_lt {width : Nat} {number : Int} (positive : 1 ≤ width)
    (small : number.natAbs < 2 ^ width) : (ofInt width number).width = width := by
  rw [ofInt_eq positive small, width_ofNat]

/-- A wide word is read through its low 64 bits. -/
theorem signed_of_wide {word : Word} (wide : 64 < word.width) :
    word.signed = (word.lowBits 64).signed := by
  simp [signed, wide]

/-- Reading gives a signed number of the width back, or of 64 bits if the width is larger. -/
theorem signed_ofInt {width : Nat} {number : Int} (positive : 1 ≤ width)
    (signed : IsSigned (min width 64) number) : (ofInt width number).signed = number := by
  have exact := width_ofInt_of_lt positive
    ((signed.widen (Nat.min_le_left _ _)).fits.natAbs_lt positive)
  have congruent := ofInt_modEq width number
  rcases Nat.lt_or_ge 64 width with wide | narrow
  · rw [signed_of_wide (wide.trans_eq exact.symm)]
    have low : ((ofInt width number).lowBits 64).signed ≡ number [ZMOD 2 ^ 64] :=
      calc ((ofInt width number).lowBits 64).signed
          ≡ ((ofInt width number).lowBits 64).value [ZMOD 2 ^ 64] :=
            signed_modEq (Nat.le_refl 64) (width_lowBits _ _)
        _ = (ofInt width number).value % 2 ^ 64 := by rw [value_lowBits]; norm_cast
        _ ≡ (ofInt width number).value [ZMOD 2 ^ 64] := Int.mod_modEq _ _
        _ ≡ number [ZMOD 2 ^ 64] := congruent.of_dvd (pow_dvd_pow 2 wide.le)
    rw [Nat.min_eq_right wide.le] at signed
    have read : IsSigned ((ofInt width number).lowBits 64).width
        ((ofInt width number).lowBits 64).signed :=
      signed_isSigned (width_lowBits _ _).le (by rw [width_lowBits]; decide)
    rw [width_lowBits] at read
    exact read.eq_of_modEq signed (by decide) low
  · have read := signed_isSigned (exact.trans_le narrow) (positive.trans_eq exact.symm)
    rw [exact] at read
    rw [Nat.min_eq_left narrow] at signed
    exact read.eq_of_modEq signed positive ((signed_modEq narrow exact).trans congruent)

/-- Writing gives a machine word back. -/
theorem ofInt_signed {word : Word} (positive : 1 ≤ word.width) (narrow : word.width ≤ 64) :
    ofInt word.width word.signed = word := by
  have small := (signed_isSigned narrow positive).fits.natAbs_lt positive
  rw [ofInt_eq positive small, signed_emod narrow, Int.toNat_natCast, ofNat_value]

/-- Signed numbers of a width and its words are written and read as each other. -/
theorem signed_codec_bijective {width : Nat} (positive : 1 ≤ width) {number : Int}
    (host : IsSigned 64 number) :
    width ≤ (ofInt width number).width ∧
    ((ofInt width number).value : Int) ≡ number [ZMOD 2 ^ width] ∧
    (number.natAbs < 2 ^ width → (ofInt width number).width = width) ∧
    (IsSigned width number → (ofInt width number).signed = number) ∧
    (64 ≤ width → (ofInt width number).signed = number) ∧
    ∀ word : Word, 1 ≤ word.width → word.width ≤ 64 →
      IsSigned word.width word.signed ∧ ofInt word.width word.signed = word := by
  refine ⟨width_ofInt width number, ofInt_modEq width number, width_ofInt_of_lt positive, ?_, ?_,
    ?_⟩
  · intro signed
    apply signed_ofInt positive
    rcases Nat.le_total width 64 with narrow | wide
    · rwa [Nat.min_eq_left narrow]
    · rwa [Nat.min_eq_right wide]
  · intro wide
    apply signed_ofInt positive
    rwa [Nat.min_eq_right wide]
  · intro word wordPositive narrow
    exact ⟨signed_isSigned narrow wordPositive, ofInt_signed wordPositive narrow⟩

/-- The least number of the host has a magnitude of as many bits as the host's widest word, and the
only negative word of one bit reads as minus one. -/
theorem signed_codec_bijective_least :
    1 ≤ 64 ∧ IsSigned 64 (-2 ^ 63) ∧ (-2 ^ 63 : Int).natAbs < 2 ^ 64 ∧
      (ofInt 64 (-2 ^ 63)).width = 64 ∧ (ofInt 64 (-2 ^ 63)).signed = -2 ^ 63 ∧
      1 ≤ (⟨[true]⟩ : Word).width ∧ (⟨[true]⟩ : Word).width ≤ 64 ∧
      ofInt 1 (⟨[true]⟩ : Word).signed = ⟨[true]⟩ := by
  have host : IsSigned 64 (-2 ^ 63) := ⟨by decide, by decide⟩
  have small : (-2 ^ 63 : Int).natAbs < 2 ^ 64 := by decide
  obtain ⟨_, _, fits, reads, _, writes⟩ := signed_codec_bijective (by decide : 1 ≤ 64) host
  have single : 1 ≤ (⟨[true]⟩ : Word).width := by decide
  have narrow : (⟨[true]⟩ : Word).width ≤ 64 := by decide
  exact ⟨by decide, host, small, fits small, reads host, single, narrow,
    (writes ⟨[true]⟩ single narrow).2⟩

/-- A negative number beyond the width keeps its remainder, without the zeros above the width. -/
example : (ofInt 8 (-300)).text = "11010100" ∧ (ofInt 8 300).text = "100101100" := by
  decide

end Word

end WordMachine
