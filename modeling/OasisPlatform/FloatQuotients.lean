import Mathlib.Algebra.Order.Ring.Nat
import Mathlib.Tactic.Ring

/-!
Quotients of natural numbers as binary floating point numbers. The quotient is rounded to the
nearest number with the bits of the format, to the even one of two that are as near; what is
rounded up to it here is its ceiling, which is monotone, and which is too large for the format
from some dividend on (`ceilQuotient_overflows_iff`).
-/
namespace OasisPlatform.FloatQuotients
set_option linter.unusedSimpArgs false

/-- `n / d` rounded to a whole number, half to even. -/
def roundHalfEven (n d : Nat) : Nat :=
  if 2 * (n % d) < d ∨ (2 * (n % d) = d ∧ n / d % 2 = 0) then n / d else n / d + 1

theorem roundHalfEven_ge {n d k : Nat} (some_d : 0 < d) (least : k * d ≤ n) : k ≤ roundHalfEven n d := by
  have whole : k ≤ n / d := (Nat.le_div_iff_mul_le some_d).mpr least
  unfold roundHalfEven
  split <;> omega

theorem roundHalfEven_le {n d k : Nat} (some_d : 0 < d) (most : n ≤ k * d) : roundHalfEven n d ≤ k := by
  unfold roundHalfEven
  rcases Nat.lt_or_eq_of_le most with below | rfl
  · have whole : n / d < k := (Nat.div_lt_iff_lt_mul some_d).mpr below
    split <;> omega
  · rw [if_pos (.inl (by rw [Nat.mul_mod_left]; exact some_d)),Nat.mul_div_cancel _ some_d]

theorem roundHalfEven_mono {n m : Nat} (d : Nat) (more : n ≤ m) : roundHalfEven n d ≤ roundHalfEven m d := by
  have quotients : n / d ≤ m / d := Nat.div_le_div_right more
  rcases Nat.lt_or_eq_of_le quotients with below | same
  · have least : roundHalfEven n d ≤ n / d + 1 := by
      unfold roundHalfEven
      split <;> omega
    have most : m / d ≤ roundHalfEven m d := by
      unfold roundHalfEven
      split <;> omega
    omega
  · have rests : n % d ≤ m % d := by
      have first := Nat.div_add_mod n d
      have second := Nat.div_add_mod m d
      rw [same] at first
      omega
    unfold roundHalfEven
    rw [same]
    split <;> split <;> omega

/-- Half way above an odd number is rounded up. -/
theorem roundHalfEven_above_odd {n d k : Nat} (some_d : 0 < d) (odd : k % 2 = 1) :
    k + 1 ≤ roundHalfEven n d ↔ (2 * k + 1) * d ≤ 2 * n := by
  have parts := Nat.div_add_mod n d
  have rest := Nat.mod_lt n some_d
  have double : (2 * k + 1) * d = 2 * (d * k) + d := by ring
  rw [double]
  rcases Nat.lt_trichotomy (n / d) k with below | same | above
  · have gap : d * (n / d) + d ≤ d * k := by
      rw [← Nat.mul_succ]
      exact Nat.mul_le_mul_left d below
    refine iff_of_false ?_ (by omega)
    unfold roundHalfEven
    split <;> omega
  · rw [same] at parts
    unfold roundHalfEven
    rw [same]
    split <;> omega
  · have gap : d * k + d ≤ d * (n / d) := by
      rw [← Nat.mul_succ]
      exact Nat.mul_le_mul_left d above
    refine iff_of_true ?_ (by omega)
    exact roundHalfEven_ge some_d (le_trans (Nat.mul_le_mul_right d above) (Nat.div_mul_le_self n d))

/-- The numbers of a format have a leading one and so many bits behind it, are multiples of
    a least one, and are below a power of two. -/
structure Format where
  bits : Nat
  leastExponent : Nat
  limit : Nat
  room : bits + 2 ≤ limit

/-- What a Python `float` is. -/
def binary64 : Format := ⟨52,1074,1024,by decide⟩

variable (f : Format)

/-- The ceiling of the quotient as a number of the format, were there no limit. -/
def ceilQuotient (n d : Nat) : Nat :=
  if n < d then if n * 2 ^ (f.leastExponent + 1) ≤ d then 0 else 1
  else
    let e := (n / d).log2
    if e ≤ f.bits then
      (roundHalfEven (n * 2 ^ (f.bits - e)) d + 2 ^ (f.bits - e) - 1) / 2 ^ (f.bits - e)
    else roundHalfEven n (d * 2 ^ (e - f.bits)) * 2 ^ (e - f.bits)

variable {f} {n m d : Nat}

@[simp] theorem ceilQuotient_zero (d : Nat) : ceilQuotient f 0 d = 0 := by
  unfold ceilQuotient
  split
  · rw [Nat.zero_mul,if_pos (Nat.zero_le d)]
  · have rounded : roundHalfEven 0 d = 0 := by simp [roundHalfEven,eq_comm]
    have last (unit : Nat) : (0 + unit - 1) / unit = 0 := by
      cases unit with
      | zero => rfl
      | succ unit => exact Nat.div_eq_of_lt (by omega)
    simp [rounded,last]

theorem log2_bounds (some_d : 0 < d) (least : d ≤ n) : 2 ^ (n / d).log2 * d ≤ n ∧ n < 2 ^ ((n / d).log2 + 1) * d := by
  have nonzero : n / d ≠ 0 := Nat.pos_iff_ne_zero.mp (Nat.div_pos least some_d)
  obtain ⟨lower,upper⟩ := (Nat.log2_eq_iff nonzero).mp rfl
  exact ⟨(Nat.le_div_iff_mul_le some_d).mp lower,(Nat.div_lt_iff_lt_mul some_d).mp upper⟩

theorem ceil_bounds {k s unit : Nat} (some_unit : 0 < unit) :
    (k * unit ≤ s → k ≤ (s + unit - 1) / unit) ∧ (s ≤ k * unit → (s + unit - 1) / unit ≤ k) := by
  refine ⟨fun least => (Nat.le_div_iff_mul_le some_unit).mpr (by omega),fun most => ?_⟩
  refine Nat.le_of_lt_succ ((Nat.div_lt_iff_lt_mul some_unit).mpr ?_)
  rw [Nat.succ_mul]
  omega

/-- Powers of two are not rounded over. -/
theorem ceilQuotient_bounds (some_d : 0 < d) (least : d ≤ n) :
    2 ^ (n / d).log2 ≤ ceilQuotient f n d ∧ ceilQuotient f n d ≤ 2 ^ ((n / d).log2 + 1) := by
  obtain ⟨lower,upper⟩ := log2_bounds some_d least
  unfold ceilQuotient
  rw [if_neg (by omega)]
  generalize (n / d).log2 = e at lower upper
  dsimp only
  split
  · rename_i fine
    obtain ⟨shift,bits⟩ := Nat.exists_eq_add_of_le fine
    have width : f.bits - e = shift := by omega
    rw [width]
    have some_unit : 0 < 2 ^ shift := Nat.two_pow_pos shift
    refine ⟨(ceil_bounds some_unit).1 (roundHalfEven_ge some_d ?_),(ceil_bounds some_unit).2 (roundHalfEven_le some_d ?_)⟩
    · calc 2 ^ e * 2 ^ shift * d = 2 ^ e * d * 2 ^ shift := by ring
        _ ≤ n * 2 ^ shift := Nat.mul_le_mul_right _ lower
    · calc n * 2 ^ shift ≤ 2 ^ (e + 1) * d * 2 ^ shift := Nat.mul_le_mul_right _ upper.le
        _ = 2 ^ (e + 1) * 2 ^ shift * d := by ring
  · rename_i coarse
    obtain ⟨shift,rfl⟩ := Nat.exists_eq_add_of_le (Nat.le_of_not_le coarse)
    have width : f.bits + shift - f.bits = shift := by omega
    rw [width]
    have some_unit : 0 < d * 2 ^ shift := Nat.mul_pos some_d (Nat.two_pow_pos shift)
    constructor
    · rw [Nat.pow_add]
      refine Nat.mul_le_mul_right _ (roundHalfEven_ge some_unit ?_)
      calc 2 ^ f.bits * (d * 2 ^ shift) = 2 ^ (f.bits + shift) * d := by ring
        _ ≤ n := lower
    · have split : 2 ^ (f.bits + shift + 1) = 2 ^ (f.bits + 1) * 2 ^ shift := by ring
      rw [split]
      refine Nat.mul_le_mul_right _ (roundHalfEven_le some_unit ?_)
      calc n ≤ 2 ^ (f.bits + shift + 1) * d := upper.le
        _ = 2 ^ (f.bits + 1) * (d * 2 ^ shift) := by ring

theorem ceilQuotient_below (below : n < d) : ceilQuotient f n d ≤ 1 := by
  unfold ceilQuotient
  rw [if_pos below]
  split <;> omega

theorem ceilQuotient_mono (d : Nat) (more : n ≤ m) : ceilQuotient f n d ≤ ceilQuotient f m d := by
  have alike (first : ¬n < d) (second : ¬m < d) (same : (n / d).log2 = (m / d).log2) :
      ceilQuotient f n d ≤ ceilQuotient f m d := by
    simp only [ceilQuotient,if_neg first,if_neg second,← same]
    split
    · refine Nat.div_le_div_right ?_
      have rounded := roundHalfEven_mono d (Nat.mul_le_mul_right (2 ^ (f.bits - (n / d).log2)) more)
      omega
    · exact Nat.mul_le_mul_right _ (roundHalfEven_mono _ more)
  rcases Nat.eq_zero_or_pos d with rfl | some_d
  · exact alike (Nat.not_lt_zero n) (Nat.not_lt_zero m) (by rw [Nat.div_zero,Nat.div_zero])
  by_cases below : n < d
  · by_cases still : m < d
    · have shifted := Nat.mul_le_mul_right (2 ^ (f.leastExponent + 1)) more
      unfold ceilQuotient
      rw [if_pos below,if_pos still]
      split <;> split <;> omega
    · have bound := (ceilQuotient_bounds (f := f) some_d (Nat.le_of_not_lt still)).1
      exact (ceilQuotient_below below).trans (Nat.one_le_two_pow.trans bound)
  · have first := Nat.le_of_not_lt below
    have second := first.trans more
    have nonzero : n / d ≠ 0 := Nat.pos_iff_ne_zero.mp (Nat.div_pos first some_d)
    have exponents : (n / d).log2 ≤ (m / d).log2 := by
      refine (Nat.le_log2 (Nat.pos_iff_ne_zero.mp (Nat.div_pos second some_d))).mpr ?_
      exact (Nat.log2_self_le nonzero).trans (Nat.div_le_div_right more)
    rcases Nat.lt_or_eq_of_le exponents with less | same
    · exact (ceilQuotient_bounds some_d first).2.trans
        ((Nat.pow_le_pow_right (by decide) less).trans (ceilQuotient_bounds some_d second).1)
    · exact alike below (Nat.not_lt.mpr second) same

/-- Among the quotients with the largest exponent, those from half of the last step on are
    rounded up to the limit. -/
theorem ceilQuotient_last (some_d : 0 < d) (least : d ≤ n) (last : (n / d).log2 + 1 = f.limit) :
    2 ^ f.limit ≤ ceilQuotient f n d ↔ 2 ^ f.limit * d - 2 ^ (f.limit - f.bits - 2) * d ≤ n := by
  obtain ⟨shift,limit⟩ := Nat.exists_eq_add_of_le f.room
  have half : f.limit - f.bits - 2 = shift := by omega
  have e : (n / d).log2 = f.bits + (shift + 1) := by omega
  have odd : (2 ^ (f.bits + 1) - 1) % 2 = 1 := by
    have even := Nat.pow_succ 2 f.bits
    have some_power := Nat.two_pow_pos f.bits
    omega
  have some_bits : 0 < 2 ^ (f.bits + 1) := Nat.two_pow_pos _
  have some_unit : 0 < 2 ^ (shift + 1) := Nat.two_pow_pos (shift + 1)
  have rounded := roundHalfEven_above_odd (n := n) (Nat.mul_pos some_d some_unit) odd
  rw [Nat.sub_add_cancel some_bits] at rounded
  have unfolded : ceilQuotient f n d = roundHalfEven n (d * 2 ^ (shift + 1)) * 2 ^ (shift + 1) := by
    unfold ceilQuotient
    rw [if_neg (Nat.not_lt.mpr least),e]
    dsimp only
    rw [if_neg (by omega),Nat.add_sub_cancel_left]
  have powers : 2 ^ f.limit = 2 ^ (f.bits + 1) * 2 ^ (shift + 1) := by
    rw [limit]
    ring
  have total : 2 ^ f.limit * d = 2 ^ (f.bits + 1) * (d * 2 ^ (shift + 1)) := by
    rw [powers]
    ring
  have product : (2 * (2 ^ (f.bits + 1) - 1) + 1) * (d * 2 ^ (shift + 1)) =
      2 * (2 ^ (f.bits + 1) * (d * 2 ^ (shift + 1))) - d * 2 ^ (shift + 1) := by
    have count : 2 * (2 ^ (f.bits + 1) - 1) + 1 = 2 * 2 ^ (f.bits + 1) - 1 := by omega
    rw [count,Nat.sub_mul,Nat.one_mul,Nat.mul_assoc]
  have step : d * 2 ^ (shift + 1) = 2 * (2 ^ shift * d) := by ring
  rw [unfolded,half,total,powers,Nat.mul_le_mul_right_iff some_unit,rounded,product]
  omega

/-- The quotient is rounded up to the limit from half of the last step below it on. -/
theorem ceilQuotient_overflows_iff (some_d : 0 < d) :
    2 ^ f.limit ≤ ceilQuotient f n d ↔ (2 ^ f.limit - 2 ^ (f.limit - f.bits - 2)) * d ≤ n := by
  have room := f.room
  rw [Nat.sub_mul]
  have doubled : 2 ^ f.limit * d = 2 * (2 ^ (f.limit - 1) * d) := by
    have next : 2 ^ f.limit = 2 ^ (f.limit - 1) * 2 := by rw [← Nat.pow_succ,Nat.succ_eq_add_one,Nat.sub_add_cancel (by omega)]
    rw [next]
    ring
  have halves : 2 ^ (f.limit - f.bits - 2) * d ≤ 2 ^ (f.limit - 1) * d :=
    Nat.mul_le_mul_right d (Nat.pow_le_pow_right (by decide) (by omega))
  by_cases below : n < d
  · have one : ceilQuotient f n d ≤ 1 := ceilQuotient_below below
    have two : 2 ≤ 2 ^ f.limit := Nat.le_self_pow (by omega) 2
    have large : 2 ^ (f.limit - f.bits - 2) * d + d ≤ 2 ^ f.limit * d := by
      have some_power : 1 ≤ 2 ^ (f.limit - 1) := Nat.one_le_two_pow
      have other := Nat.mul_le_mul_right d some_power
      omega
    exact iff_of_false (by omega) (by omega)
  · have least := Nat.le_of_not_lt below
    obtain ⟨lower,upper⟩ := log2_bounds some_d least
    obtain ⟨atLeast,atMost⟩ := ceilQuotient_bounds (f := f) some_d least
    rcases Nat.lt_trichotomy ((n / d).log2 + 1) f.limit with small | last | large
    · have bound : 2 ^ ((n / d).log2 + 1) ≤ 2 ^ (f.limit - 1) := Nat.pow_le_pow_right (by decide) (by omega)
      have product := Nat.mul_le_mul_right d bound
      have strict : 2 ^ (f.limit - 1) < 2 ^ f.limit := Nat.pow_lt_pow_right (by decide) (by omega)
      exact iff_of_false (by omega) (by omega)
    · exact ceilQuotient_last some_d least last
    · have bound : 2 ^ f.limit ≤ 2 ^ (n / d).log2 := Nat.pow_le_pow_right (by decide) (by omega)
      have product := Nat.mul_le_mul_right d bound
      exact iff_of_true (bound.trans atLeast) (by omega)

theorem binary64_overflows_iff (some_d : 0 < d) :
    2 ^ 1024 ≤ ceilQuotient binary64 n d ↔ (2 ^ 1024 - 2 ^ 970) * d ≤ n := by
  have overflows := ceilQuotient_overflows_iff (f := binary64) (n := n) some_d
  have limit : binary64.limit = 1024 := rfl
  have half : binary64.limit - binary64.bits - 2 = 970 := rfl
  rwa [half,limit] at overflows

example : ceilQuotient binary64 7 2 = 4 ∧ ceilQuotient binary64 (2 ^ 53 + 1) 1 = 2 ^ 53 := by decide +kernel

end OasisPlatform.FloatQuotients
