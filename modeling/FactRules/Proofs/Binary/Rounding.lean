import FactRules.Binary.Rounding
import FactRules.Proofs.Binary.Order

/-!
# Rounding keeps the order

A rank is a significand on a scale (`Format.IsSignificand`, `Format.exists_scaled`), and rounding
finds both: the scale is the one on which the quotient has the width of the format, and the
significand is the integer nearest to the quotient there (`Format.rankOf_scale`). So rounding keeps
the order (`Format.rankOf_mono`) and leaves the format's own numbers as they are
(`Format.rankOf_units`).

Both go over to the change of format: it keeps the order of numbers (`Binary.convert_le_convert`),
and a single is still the same after it was made a double (`Single.toSingle_toDouble`).
-/

namespace FactRules

/-! ## The nearest integer -/

/-- A multiple of the denominator is not rounded. -/
theorem roundHalfEven_mul (c : Nat) {d : Nat} (hd : 0 < d) : roundHalfEven (c * d) d = c := by
  simp [roundHalfEven, hd]

/-- Rounding gives the quotient or the next number. -/
theorem roundHalfEven_bounds (n d : Nat) :
    n / d ≤ roundHalfEven n d ∧ roundHalfEven n d ≤ n / d + 1 := by
  grind [roundHalfEven]

/-- Rounding to even keeps the order. Where the quotients are equal, the remainders decide, and at a
tie both are rounded to the same even number. -/
theorem roundHalfEven_mono {n m : Nat} (h : n ≤ m) (d : Nat) :
    roundHalfEven n d ≤ roundHalfEven m d := by
  rcases Nat.lt_or_eq_of_le (Nat.div_le_div_right (c := d) h) with hlt | heq
  · exact Nat.le_trans (roundHalfEven_bounds n d).2
      (Nat.le_trans hlt (roundHalfEven_bounds m d).1)
  · -- Between the same two integers the remainders decide.
    have hrest : n % d ≤ m % d := by
      have hn := Nat.div_add_mod n d
      have hm := Nat.div_add_mod m d
      rw [heq] at hn
      omega
    grind [roundHalfEven]

/-- A quotient up to an integer is rounded to at most this integer. -/
theorem roundHalfEven_le {n c d : Nat} (hd : 0 < d) (h : n ≤ c * d) : roundHalfEven n d ≤ c :=
  roundHalfEven_mul c hd ▸ roundHalfEven_mono h d

/-- A quotient from an integer on is rounded to at least this integer. -/
theorem le_roundHalfEven {n c d : Nat} (hd : 0 < d) (h : c * d ≤ n) : c ≤ roundHalfEven n d :=
  roundHalfEven_mul c hd ▸ roundHalfEven_mono h d

namespace Format

variable {f g : Format}

/-! ## Significands and scales -/

/-- A significand of a scale has the bits of the format and no bit more; on all scales but the least
it has no bit less. -/
def IsSignificand (f : Format) (scale significand : Nat) : Prop :=
  significand < 2 * Nat.pow 2 f.fractionBits ∧
    (scale = 0 ∨ Nat.pow 2 f.fractionBits ≤ significand)

/-- Every rank is a significand on a scale. -/
theorem exists_scaled (f : Format) (rank : Nat) :
    ∃ scale significand, f.IsSignificand scale significand ∧
      rank = scale * Nat.pow 2 f.fractionBits + significand := by
  have hpos : 0 < Nat.pow 2 f.fractionBits := Nat.two_pow_pos _
  have hrank := Nat.div_add_mod rank (Nat.pow 2 f.fractionBits)
  have hfraction := Nat.mod_lt rank hpos
  cases hbinade : rank / Nat.pow 2 f.fractionBits with
  | zero =>
    rw [hbinade] at hrank
    exact ⟨0, rank, ⟨by omega, .inl rfl⟩, by omega⟩
  | succ scale =>
    rw [hbinade, Nat.mul_comm, Nat.succ_mul] at hrank
    exact ⟨scale, Nat.pow 2 f.fractionBits + rank % Nat.pow 2 f.fractionBits,
      ⟨by omega, .inr (Nat.le_add_right ..)⟩, by omega⟩

/-- The magnitude of a rank is the significand times the power of two of the scale. -/
theorem units_scaled {scale significand : Nat} (h : f.IsSignificand scale significand) :
    f.units (scale * Nat.pow 2 f.fractionBits + significand) =
      significand * Nat.pow 2 scale := by
  have hpos : 0 < Nat.pow 2 f.fractionBits := Nat.two_pow_pos _
  obtain ⟨hlt, hscale⟩ := h
  unfold units
  dsimp only
  rcases Nat.lt_or_ge significand (Nat.pow 2 f.fractionBits) with hsmall | hlarge
  · obtain rfl : scale = 0 := hscale.resolve_right (Nat.not_le.2 hsmall)
    rw [Nat.zero_mul, Nat.zero_add, Nat.div_eq_of_lt hsmall, if_pos rfl, Nat.mod_eq_of_lt hsmall]
    exact (Nat.mul_one significand).symm
  · obtain ⟨fraction, rfl⟩ := Nat.exists_eq_add_of_le hlarge
    have hfraction : fraction < Nat.pow 2 f.fractionBits := by omega
    have hrank : scale * Nat.pow 2 f.fractionBits + (Nat.pow 2 f.fractionBits + fraction) =
        fraction + (scale + 1) * Nat.pow 2 f.fractionBits := by
      rw [Nat.succ_mul]
      omega
    rw [hrank, Nat.add_mul_div_right _ _ hpos, Nat.add_mul_mod_self_right,
      Nat.div_eq_of_lt hfraction, Nat.mod_eq_of_lt hfraction, Nat.zero_add,
      if_neg (Nat.succ_ne_zero scale), Nat.add_sub_cancel]

/-- `n / d` units have the width of the format on this scale. -/
def HasScale (f : Format) (n d scale : Nat) : Prop :=
  n < 2 * Nat.pow 2 f.fractionBits * (d * Nat.pow 2 scale) ∧
    (scale = 0 ∨ Nat.pow 2 f.fractionBits * (d * Nat.pow 2 scale) ≤ n)

/-- Powers of two on a higher scale are at least twice as large. -/
theorem two_mul_scaled_le (a : Nat) {low high : Nat} (h : low < high) :
    2 * (a * Nat.pow 2 low) ≤ a * Nat.pow 2 high := by
  have hpow : Nat.pow 2 (low + 1) ≤ Nat.pow 2 high := Nat.pow_le_pow_right (by omega) h
  have hmul := Nat.mul_le_mul_left a hpow
  have hsucc : a * Nat.pow 2 (low + 1) = 2 * (a * Nat.pow 2 low) := by
    show a * (Nat.pow 2 low * 2) = _
    rw [← Nat.mul_assoc, Nat.mul_comm]
  omega

/-- What is larger does not have a lower scale. -/
theorem HasScale.le {n m d low high : Nat} (hn : f.HasScale n d high) (hm : f.HasScale m d low)
    (h : n ≤ m) : high ≤ low := by
  refine Nat.le_of_not_lt fun hlt => ?_
  have hhigh := hn.2.resolve_left (Nat.ne_of_gt (Nat.zero_lt_of_lt hlt))
  have hlow := hm.1
  have htwice := two_mul_scaled_le (Nat.pow 2 f.fractionBits * d) hlt
  rw [Nat.mul_assoc] at hlow
  rw [Nat.mul_assoc, Nat.mul_assoc] at htwice
  omega

/-- Rounding is to the nearest significand of the scale of the quotient. -/
theorem rankOf_scale (f : Format) (n : Nat) {d : Nat} (hd : 0 < d) :
    ∃ scale, f.HasScale n d scale ∧
      f.rankOf n d = min (scale * Nat.pow 2 f.fractionBits +
        roundHalfEven n (d * Nat.pow 2 scale)) f.infinityRank := by
  have hreach : ∀ bound, n / d < bound ↔ n < bound * d := fun _ => Nat.div_lt_iff_lt_mul hd
  have hreached : ∀ bound, bound ≤ n / d ↔ bound * d ≤ n := fun _ => Nat.le_div_iff_mul_le hd
  have hswap : ∀ shift, Nat.pow 2 f.fractionBits * (d * Nat.pow 2 shift) =
      Nat.pow 2 (f.fractionBits + shift) * d := by
    intro shift
    have hadd : Nat.pow 2 (f.fractionBits + shift) =
        Nat.pow 2 f.fractionBits * Nat.pow 2 shift := Nat.pow_add ..
    rw [hadd, Nat.mul_comm d, Nat.mul_assoc]
  refine ⟨(n / d).log2 - f.fractionBits, ⟨?_, ?_⟩, rfl⟩
  · have hlog : n / d < Nat.pow 2 ((n / d).log2 + 1) := Nat.lt_log2_self
    have hpow : Nat.pow 2 ((n / d).log2 + 1) ≤
        Nat.pow 2 (f.fractionBits + ((n / d).log2 - f.fractionBits) + 1) :=
      Nat.pow_le_pow_right (by omega) (by omega)
    have htwice : Nat.pow 2 (f.fractionBits + ((n / d).log2 - f.fractionBits) + 1) =
        2 * Nat.pow 2 (f.fractionBits + ((n / d).log2 - f.fractionBits)) := Nat.mul_comm ..
    rw [Nat.mul_assoc, hswap, ← Nat.mul_assoc, ← hreach]
    omega
  · rw [hswap, ← hreached]
    rcases Nat.eq_zero_or_pos ((n / d).log2 - f.fractionBits) with hzero | hpos
    · exact .inl hzero
    · refine .inr ?_
      have hne : n / d ≠ 0 := by
        intro hzero
        rw [hzero] at hpos
        exact absurd hpos (by simp)
      have hlog : Nat.pow 2 (n / d).log2 ≤ n / d := Nat.log2_self_le hne
      rwa [show f.fractionBits + ((n / d).log2 - f.fractionBits) = (n / d).log2 by omega]

/-- Rounding keeps the order. -/
theorem rankOf_mono (f : Format) {n m d : Nat} (hd : 0 < d) (h : n ≤ m) :
    f.rankOf n d ≤ f.rankOf m d := by
  obtain ⟨low, hlow, hn⟩ := f.rankOf_scale n hd
  obtain ⟨high, hhigh, hm⟩ := f.rankOf_scale m hd
  have hle : low * Nat.pow 2 f.fractionBits + roundHalfEven n (d * Nat.pow 2 low) ≤
      high * Nat.pow 2 f.fractionBits + roundHalfEven m (d * Nat.pow 2 high) := by
    rcases Nat.lt_or_eq_of_le (hlow.le hhigh h) with hlt | rfl
    · -- The lower one is at most the end of its scale, where the next one begins.
      have hstep : 0 < d * Nat.pow 2 low ∧ 0 < d * Nat.pow 2 high :=
        ⟨Nat.mul_pos hd (Nat.two_pow_pos _), Nat.mul_pos hd (Nat.two_pow_pos _)⟩
      have hend := roundHalfEven_le hstep.1 (Nat.le_of_lt hlow.1)
      have hbegin := le_roundHalfEven hstep.2
        (hhigh.2.resolve_left (Nat.ne_of_gt (Nat.zero_lt_of_lt hlt)))
      have hscale := Nat.mul_le_mul_right (Nat.pow 2 f.fractionBits) (Nat.succ_le_of_lt hlt)
      rw [Nat.succ_mul] at hscale
      omega
    · exact Nat.add_le_add_left (roundHalfEven_mono h _) _
  rw [hn, hm]
  omega

/-- A magnitude of the format is rounded to its own rank. -/
theorem rankOf_scaled {scale significand d : Nat} (hd : 0 < d)
    (h : f.IsSignificand scale significand) :
    f.rankOf (significand * (d * Nat.pow 2 scale)) d =
      min (scale * Nat.pow 2 f.fractionBits + significand) f.infinityRank := by
  have hstep : 0 < d * Nat.pow 2 scale := Nat.mul_pos hd (Nat.two_pow_pos _)
  have hscale : f.HasScale (significand * (d * Nat.pow 2 scale)) d scale :=
    ⟨Nat.mul_lt_mul_of_pos_right h.1 hstep, h.2.imp_right (Nat.mul_le_mul_right _)⟩
  obtain ⟨other, hother, heq⟩ := f.rankOf_scale (significand * (d * Nat.pow 2 scale)) hd
  obtain rfl :=
    Nat.le_antisymm (hother.le hscale (Nat.le_refl _)) (hscale.le hother (Nat.le_refl _))
  rw [heq, roundHalfEven_mul _ hstep]

/-- What is a number of the format already keeps its rank. -/
theorem rankOf_units {rank d : Nat} (hd : 0 < d) (h : rank ≤ f.infinityRank) :
    f.rankOf (f.units rank * d) d = rank := by
  obtain ⟨scale, significand, hsignificand, rfl⟩ := f.exists_scaled rank
  rw [units_scaled hsignificand, Nat.mul_assoc, Nat.mul_comm _ d, rankOf_scaled hd hsignificand,
    Nat.min_eq_left h]

/-- Magnitudes grow with their ranks. -/
theorem units_mono {low high : Nat} (h : low ≤ high) (hhigh : high ≤ f.infinityRank) :
    f.units low ≤ f.units high := by
  refine Nat.le_of_not_lt fun hlt => ?_
  have hrank := f.rankOf_mono Nat.one_pos (Nat.mul_le_mul_right 1 (Nat.le_of_lt hlt))
  rw [rankOf_units Nat.one_pos hhigh, rankOf_units Nat.one_pos (Nat.le_trans h hhigh)] at hrank
  obtain rfl := Nat.le_antisymm h hrank
  exact Nat.lt_irrefl _ hlt

/-- A magnitude that needs no more bits than the format has is met exactly, if it is not too
large. -/
theorem units_rankOf {significand scale : Nat} (h : significand < 2 * Nat.pow 2 f.fractionBits)
    (hfinite : f.rankOf (significand * Nat.pow 2 scale) 1 < f.infinityRank) :
    f.units (f.rankOf (significand * Nat.pow 2 scale) 1) = significand * Nat.pow 2 scale := by
  obtain ⟨low, hlow, heq⟩ := f.rankOf_scale (significand * Nat.pow 2 scale) Nat.one_pos
  rw [Nat.one_mul] at heq
  have hle : low ≤ scale := by
    refine Nat.le_of_not_lt fun hlt => ?_
    have hwidth := hlow.2.resolve_left (Nat.ne_of_gt (Nat.zero_lt_of_lt hlt))
    have htwice := two_mul_scaled_le (Nat.pow 2 f.fractionBits) hlt
    have hbits : significand * Nat.pow 2 scale <
        2 * Nat.pow 2 f.fractionBits * Nat.pow 2 scale :=
      Nat.mul_lt_mul_of_pos_right h (Nat.two_pow_pos _)
    rw [Nat.mul_assoc] at hbits
    rw [Nat.one_mul] at hwidth
    omega
  have hsplit : significand * Nat.pow 2 scale =
      significand * Nat.pow 2 (scale - low) * (1 * Nat.pow 2 low) := by
    have hadd : Nat.pow 2 (scale - low + low) = Nat.pow 2 (scale - low) * Nat.pow 2 low :=
      Nat.pow_add ..
    rw [Nat.one_mul, Nat.mul_assoc, ← hadd, Nat.sub_add_cancel hle]
  have hstep : 0 < 1 * Nat.pow 2 low := Nat.mul_pos Nat.one_pos (Nat.two_pow_pos _)
  have hsignificand : f.IsSignificand low (significand * Nat.pow 2 (scale - low)) := by
    rw [hsplit] at hlow
    exact ⟨Nat.lt_of_mul_lt_mul_right hlow.1,
      hlow.2.imp_right fun hwidth => Nat.le_of_mul_le_mul_right hwidth hstep⟩
  rw [hsplit, rankOf_scaled Nat.one_pos hsignificand] at hfinite ⊢
  rw [Nat.min_eq_left (by omega), units_scaled hsignificand, Nat.one_mul]

/-! ## Ranks in another format -/

/-- The rank in format `g` of the number nearest to the one of a rank in format `f`. -/
def rankIn (f g : Format) (rank : Nat) : Nat :=
  if rank = f.infinityRank then g.infinityRank
  else
    g.rankOf (f.units rank * Nat.pow 2 (g.unitExponent - f.unitExponent))
      (Nat.pow 2 (f.unitExponent - g.unitExponent))

/-- What is too large is ranked as infinity, and nothing beyond. -/
theorem rankOf_le_infinityRank (f : Format) (n d : Nat) : f.rankOf n d ≤ f.infinityRank :=
  Nat.min_le_right ..

/-- Nor does changing the format lead beyond infinity. -/
theorem rankIn_le_infinityRank (f g : Format) (rank : Nat) :
    f.rankIn g rank ≤ g.infinityRank := by
  rw [rankIn]
  split
  · exact Nat.le_refl _
  · exact g.rankOf_le_infinityRank ..

/-- Changing the format keeps the order of ranks, with infinity above all. -/
theorem rankIn_mono (f g : Format) {low high : Nat} (h : low ≤ high)
    (hhigh : high ≤ f.infinityRank) : f.rankIn g low ≤ f.rankIn g high := by
  by_cases hinfinite : high = f.infinityRank
  · rw [rankIn, rankIn, if_pos hinfinite, ← rankIn]
    exact f.rankIn_le_infinityRank g low
  · rw [rankIn, rankIn, if_neg hinfinite, if_neg (by omega)]
    exact g.rankOf_mono (Nat.two_pow_pos _) (Nat.mul_le_mul_right _ (units_mono h hhigh))

theorem units_zero (f : Format) : f.units 0 = 0 := by
  simp [units]

/-- Zero is zero in every format. -/
theorem rankIn_zero (g : Format) (hf : 0 < f.infinityRank) : f.rankIn g 0 = 0 := by
  have hrank : g.rankOf (g.units 0 * Nat.pow 2 (f.unitExponent - g.unitExponent))
      (Nat.pow 2 (f.unitExponent - g.unitExponent)) = 0 :=
    rankOf_units (Nat.two_pow_pos _) (Nat.zero_le _)
  rw [units_zero, Nat.zero_mul] at hrank
  rw [rankIn, if_neg (Nat.ne_of_lt hf), units_zero, Nat.zero_mul, hrank]

/-- A finite number that is met exactly in a format with finer units comes back as it was. -/
theorem rankIn_rankIn {rank : Nat} (hbits : f.fractionBits ≤ g.fractionBits)
    (hunits : f.unitExponent ≤ g.unitExponent) (hrank : rank < f.infinityRank)
    (hfinite : f.rankIn g rank < g.infinityRank) : g.rankIn f (f.rankIn g rank) = rank := by
  have hexact : g.units (f.rankIn g rank) =
      f.units rank * Nat.pow 2 (g.unitExponent - f.unitExponent) := by
    rw [rankIn, if_neg (Nat.ne_of_lt hrank), Nat.sub_eq_zero_of_le hunits] at hfinite ⊢
    obtain ⟨scale, significand, hsignificand, rfl⟩ := f.exists_scaled rank
    have hwidth : significand < 2 * Nat.pow 2 g.fractionBits :=
      Nat.lt_of_lt_of_le hsignificand.1
        (Nat.mul_le_mul_left 2 (Nat.pow_le_pow_right (by omega) hbits))
    have hadd : Nat.pow 2 (scale + (g.unitExponent - f.unitExponent)) =
        Nat.pow 2 scale * Nat.pow 2 (g.unitExponent - f.unitExponent) := Nat.pow_add ..
    rw [units_scaled hsignificand, Nat.mul_assoc, ← hadd] at hfinite ⊢
    exact units_rankOf hwidth hfinite
  rw [rankIn, if_neg (Nat.ne_of_lt hfinite), hexact, Nat.sub_eq_zero_of_le hunits]
  have hone : Nat.pow 2 0 = 1 := rfl
  rw [hone, Nat.mul_one]
  exact rankOf_units (Nat.two_pow_pos _) (Nat.le_of_lt hrank)

end Format

namespace Binary

variable {f g : Format}

/-- A number of a format is one in every other format. -/
theorem isNan_convert (x : Binary f) :
    (x.convert : Binary g).isNan = x.isNan := by
  cases x with
  | nan => rfl
  | num negative rank hle =>
    rw [convert]
    split
    · rfl
    · rfl

/-- A change of format keeps the sign and changes the rank. -/
theorem convert_num (negative : Bool) {rank : Nat} (h : rank ≤ f.infinityRank) :
    (num negative rank h).convert = (ofRank negative (f.rankIn g rank) : Binary g) := by
  rw [convert, Format.rankIn]
  split
  · rfl
  · rfl

/-- A number stands in the order at its rank, counted downwards if it is negative. -/
theorem ordinal?_ofRank (negative : Bool) {rank : Nat} (h : rank ≤ f.infinityRank) :
    (ofRank negative rank : Binary f).ordinal? =
      some (if negative then -(rank : Int) else rank) := by
  rw [ofRank_of_le negative h, ordinal?]

/-- Signs and ranks tell numbers apart, zeros included. -/
theorem ofRank_inj {negative other : Bool} {rank second : Nat} (h : rank ≤ f.infinityRank)
    (hsecond : second ≤ f.infinityRank) :
    (ofRank negative rank : Binary f) = ofRank other second ↔ negative = other ∧ rank = second := by
  rw [ofRank_of_le negative h, ofRank_of_le other hsecond, num.injEq]

/-- The order of numbers is kept in every other format. -/
theorem convert_le_convert (hf : 0 < f.infinityRank) {x y : Binary f} (h : x.le y = true) :
    (x.convert : Binary g).le y.convert = true := by
  obtain ⟨a, b, ha, hb, hab⟩ := le_iff.1 h
  cases x with
  | nan => cases ha
  | num negative low hlow =>
  cases y with
  | nan => cases hb
  | num other high hhigh =>
  obtain rfl := Option.some.inj ha
  obtain rfl := Option.some.inj hb
  rw [convert_num, convert_num]
  refine le_iff.2 ⟨_, _, ordinal?_ofRank _ (f.rankIn_le_infinityRank g low),
    ordinal?_ofRank _ (f.rankIn_le_infinityRank g high), ?_⟩
  -- Numbers of one sign are ordered by their ranks. A positive number is at most a negative one
  -- only if both are zero.
  cases negative with
  | false =>
    cases other with
    | false =>
      have hle : low ≤ high := Int.ofNat_le.1 hab
      exact Int.ofNat_le.2 (f.rankIn_mono g hle hhigh)
    | true =>
      have hzero : (low : Int) ≤ -(high : Int) := hab
      obtain ⟨rfl, rfl⟩ : low = 0 ∧ high = 0 := by omega
      simp [f.rankIn_zero g hf]
  | true =>
    cases other with
    | false =>
      simp only [if_true, Bool.false_eq_true, if_false]
      omega
    | true =>
      have hle : high ≤ low := Int.ofNat_le.1 (Int.neg_le_neg_iff.1 hab)
      exact Int.neg_le_neg (Int.ofNat_le.2 (f.rankIn_mono g hle hlow))

end Binary

/-! ## Singles as doubles -/

namespace Single

/-- A finite single is a finite double, far below infinity. -/
theorem rankIn_double_lt {rank : Nat} (h : rank < Format.single.infinityRank) :
    Format.single.rankIn .double rank < Format.double.infinityRank := by
  refine Nat.lt_of_le_of_lt (Format.rankIn_mono _ _ (Nat.le_sub_one_of_lt h) (Nat.sub_le ..)) ?_
  decide +kernel

/-- A single that is made a double and a single again has the rank it had. -/
theorem rankIn_single_rankIn_double {rank : Nat} (h : rank ≤ Format.single.infinityRank) :
    Format.double.rankIn .single (Format.single.rankIn .double rank) = rank := by
  rcases Nat.lt_or_eq_of_le h with hfinite | rfl
  · exact Format.rankIn_rankIn (by decide) (by decide) hfinite (rankIn_double_lt hfinite)
  · rw [Format.rankIn, Format.rankIn, if_pos rfl, if_pos rfl]

/-- A single that was made a double is the single nearest to it. -/
theorem toSingle_toDouble (x : Single) : x.toDouble.toSingle = x := by
  cases x with
  | nan => rfl
  | num negative rank hle =>
    rw [toDouble, Double.toSingle, Binary.convert_num, Binary.ofRank, Binary.convert_num]
    simp only [Nat.min_eq_left (Format.rankIn_le_infinityRank _ _ _),
      rankIn_single_rankIn_double hle]
    rw [Binary.ofRank]
    simp only [Nat.min_eq_left hle]

/-- Singles compare as the doubles that they are. -/
theorem toDouble_le_toDouble (x y : Single) : x.toDouble.le y.toDouble = x.le y := by
  rw [Bool.eq_iff_iff]
  constructor
  · intro h
    have hsingle := Binary.convert_le_convert (g := .single) (by decide) h
    rwa [← Double.toSingle, ← Double.toSingle, toSingle_toDouble, toSingle_toDouble] at hsingle
  · exact Binary.convert_le_convert (by decide)

end Single

/-! ## Doubles too large for a single -/

namespace Double

/-- Half a step above the greatest finite single. -/
def overflowBound : Nat := Nat.pow 2 128 - Nat.pow 2 103

/-- The rank of this number among the doubles. -/
def overflowRank : Nat := Format.double.rankOf (overflowBound * Nat.pow 2 1074) 1

/-- The bound from which doubles round to infinity is the double of the rank from which they do, on
either side of zero. -/
theorem ofInt_overflowBound :
    (.ofInt overflowBound : Double) = .ofRank false overflowRank ∧
      (.ofInt (-overflowBound) : Double) = .ofRank true overflowRank := by
  decide +kernel

/-- The rank is one that doubles have. -/
theorem overflowRank_le : overflowRank ≤ Format.double.infinityRank :=
  Format.rankOf_le_infinityRank ..

/-- A double rounds to the infinite single from `overflowRank` on. Rounding keeps the order, so it
is enough to look at this rank and at the one before. -/
theorem rankIn_single_eq_infinityRank_iff {rank : Nat} (h : rank ≤ Format.double.infinityRank) :
    Format.double.rankIn .single rank = Format.single.infinityRank ↔ overflowRank ≤ rank := by
  have hat : Format.double.rankIn .single overflowRank = Format.single.infinityRank := by
    decide +kernel
  have hbefore : Format.double.rankIn .single (overflowRank - 1) < Format.single.infinityRank := by
    decide +kernel
  constructor
  · intro hinfinite
    refine Nat.le_of_not_lt fun hlt => ?_
    have hmono := Format.rankIn_mono .double .single (Nat.le_sub_one_of_lt hlt)
      (Nat.le_trans (Nat.sub_le ..) overflowRank_le)
    exact Nat.ne_of_lt (Nat.lt_of_le_of_lt hmono hbefore) hinfinite
  · intro hle
    have hmono := Format.rankIn_mono .double .single hle h
    exact Nat.le_antisymm (Format.rankIn_le_infinityRank ..) (hat ▸ hmono)

/-- So a double rounds to an infinite single if it is this large, and keeps its sign. -/
theorem toSingle_num_eq_infinity_iff {negative other : Bool} {rank : Nat}
    (h : rank ≤ Format.double.infinityRank) :
    toSingle (.num negative rank h) = .infinity other ↔ negative = other ∧ overflowRank ≤ rank := by
  rw [toSingle, Binary.convert_num, Binary.infinity,
    Binary.ofRank_inj (Format.rankIn_le_infinityRank ..) (Nat.le_refl _),
    rankIn_single_eq_infinityRank_iff h]

/-- From the bound on a double is rounded to infinity, and from its negative on down to negative
infinity. -/
theorem toSingle_eq_infinity_iff (x : Double) :
    (x.toSingle = .infinity false ↔ (Binary.ofInt overflowBound : Double).le x = true) ∧
      (x.toSingle = .infinity true ↔ x.le (.ofInt (-overflowBound)) = true) := by
  have hpos : 0 < overflowRank := by decide +kernel
  rw [ofInt_overflowBound.1, ofInt_overflowBound.2, Binary.ofRank_of_le _ overflowRank_le,
    Binary.ofRank_of_le _ overflowRank_le]
  cases x with
  | nan =>
    rw [Binary.le_eq_false_of_isNan (.inr rfl), Binary.le_eq_false_of_isNan (.inl rfl)]
    exact ⟨iff_of_false nofun Bool.false_ne_true, iff_of_false nofun Bool.false_ne_true⟩
  | num negative rank h =>
    rw [toSingle_num_eq_infinity_iff, toSingle_num_eq_infinity_iff, Binary.num_le_num_iff,
      Binary.num_le_num_iff]
    generalize overflowRank = bound at hpos ⊢
    cases negative with
    | false => simp; omega
    | true => simp; omega

end Double

end FactRules
