import Mathlib.Data.Rat.Floor
import Mathlib.Tactic.NormNum
import Mathlib.Tactic.Linarith

/-! Rounding to the nearest integer, halves to the even one. -/

namespace AgreementIntelligence.Lib.HalfEven

/-- `round(x)` -/
def roundHalfEven (x : ℚ) : ℤ :=
  let low := ⌊x⌋
  let rest := x - low
  if rest < 1 / 2 then low else if 1 / 2 < rest then low + 1
  else if low % 2 = 0 then low else low + 1

theorem floor_le_roundHalfEven (x : ℚ) : ⌊x⌋ ≤ roundHalfEven x := by
  simp only [roundHalfEven]
  split_ifs <;> omega

theorem roundHalfEven_le (x : ℚ) : roundHalfEven x ≤ ⌊x⌋ + 1 := by
  simp only [roundHalfEven]
  split_ifs <;> omega

@[simp] theorem roundHalfEven_intCast (n : ℤ) : roundHalfEven n = n := by
  simp [roundHalfEven]

theorem roundHalfEven_mono {x y : ℚ} (below : x ≤ y) : roundHalfEven x ≤ roundHalfEven y := by
  rcases (Int.floor_le_floor below).eq_or_lt with same | less
  · -- within one step only the rest decides
    have rests : x - ⌊x⌋ ≤ y - ⌊y⌋ := by
      rw [same]
      linarith
    simp only [roundHalfEven, ← same] at rests ⊢
    split_ifs <;> first | omega | linarith
  · have upper := roundHalfEven_le x
    have lower := floor_le_roundHalfEven y
    omega

/-- A number is rounded down where it is above an integer by less than a half, or by a half and the
integer is even. -/
theorem le_roundHalfEven_iff (x : ℚ) :
    x ≤ roundHalfEven x ↔
      Int.fract x = 0 ∨ 1 / 2 < Int.fract x ∨ Int.fract x = 1 / 2 ∧ ⌊x⌋ % 2 = 1 := by
  have parts := Int.floor_add_fract x
  have bounds := And.intro (Int.fract_nonneg x) (Int.fract_lt_one x)
  have rest : x - ⌊x⌋ = Int.fract x := Int.self_sub_floor x
  simp only [roundHalfEven, rest]
  split_ifs with low high even
  · have down : x ≤ ⌊x⌋ ↔ Int.fract x = 0 :=
      ⟨fun below => by linarith, fun none_ => by linarith⟩
    rw [down]
    constructor
    · exact .inl
    · rintro (none_ | above | half)
      · exact none_
      · linarith
      · linarith [half.1]
  · push_cast
    simp only [high, true_or, or_true, iff_true]
    linarith
  · constructor
    · intro below
      linarith
    · rintro (none_ | above | half)
      · linarith
      · linarith
      · omega
  · push_cast
    have half : Int.fract x = 1 / 2 := le_antisymm (not_lt.mp high) (not_lt.mp low)
    simp only [half, true_and]
    constructor
    · intro _
      right
      right
      omega
    · intro _
      linarith

end AgreementIntelligence.Lib.HalfEven
