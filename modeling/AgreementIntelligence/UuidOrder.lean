import AgreementIntelligence.UuidText
import Mathlib.Algebra.Group.Nat.Defs
import Mathlib.Data.String.Basic
import Mathlib.Tactic.Common
import Mathlib.Tactic.Positivity
import Mathlib.Tactic.Ring

/-! The order of identifiers. The texts of `str` are compared character by character, and they order
as the numbers do, which is how the database orders a column of identifiers. -/

namespace AgreementIntelligence.UuidText
open Identity

/-- The `k` lowest hexadecimal digits of a number, most significant first. -/
def lowDigits : ℕ → ℕ → List Char
  | 0, _ => []
  | k + 1, n => hexDigit (n / 16 ^ k % 16) :: lowDigits k n

theorem hex_eq_lowDigits (u : Uuid) : u.hex = lowDigits 32 u.bits.toNat := by
  simp only [Uuid.hex, lowDigits]
  rfl

theorem hexDigit_lt : ∀ n < 16, ∀ m < n, hexDigit m < hexDigit n := by
  decide

theorem lowDigits_mod (k n : ℕ) : lowDigits k (n % 16 ^ k) = lowDigits k n := by
  suffices general : ∀ j, k ≤ j → lowDigits k (n % 16 ^ j) = lowDigits k n from general k le_rfl
  induction k with
  | zero => exact fun _ _ => rfl
  | succ k ih =>
      intro j within
      obtain ⟨gap, rfl⟩ := Nat.exists_eq_add_of_le within
      have power : 16 ^ (k + 1 + gap) = 16 ^ k * (16 * 16 ^ gap) := by ring
      have digit : n % 16 ^ (k + 1 + gap) / 16 ^ k % 16 = n / 16 ^ k % 16 := by
        rw [power, Nat.mod_mul_right_div_self, Nat.mod_mul_right_mod]
      rw [lowDigits, lowDigits, digit, ih _ (by omega)]

theorem lowDigits_lt {k m n : ℕ} (less : m < n) (bound : n < 16 ^ k) :
    lowDigits k m < lowDigits k n := by
  induction k generalizing m n with
  | zero => omega
  | succ k ih =>
      have positive : 0 < 16 ^ k := by positivity
      have highest {i : ℕ} (small : i < 16 ^ (k + 1)) : i / 16 ^ k < 16 := by
        rw [Nat.div_lt_iff_lt_mul positive, mul_comm, ← pow_succ]
        exact small
      have one := highest (less.trans bound)
      have two := highest bound
      rw [lowDigits, lowDigits, Nat.mod_eq_of_lt one, Nat.mod_eq_of_lt two, List.cons_lt_cons_iff]
      rcases (Nat.div_le_div_right less.le : m / 16 ^ k ≤ n / 16 ^ k).eq_or_lt with same | above
      · -- the leading digits agree, and the rests are in order
        refine .inr ⟨by rw [same], ?_⟩
        have whole := Nat.div_add_mod m (16 ^ k)
        have other := Nat.div_add_mod n (16 ^ k)
        rw [← lowDigits_mod k m, ← lowDigits_mod k n]
        apply ih
        · rw [same] at whole
          omega
        · exact Nat.mod_lt n positive
      · exact .inl (hexDigit_lt _ two _ above)

/-! Hyphens -/

/-- The characters in groups of the lengths, with a hyphen behind each group. -/
def hyphenate : List ℕ → List Char → List Char
  | [], text => text
  | group :: groups, text => text.take group ++ '-' :: hyphenate groups (text.drop group)

theorem append_lt_append_iff {first second rest others : List Char}
    (length : first.length = second.length) :
    first ++ rest < second ++ others ↔ first < second ∨ first = second ∧ rest < others := by
  induction first generalizing second with
  | nil =>
      cases second with
      | nil => simp
      | cons c second => cases length
  | cons c first ih =>
      cases second with
      | nil => cases length
      | cons d second =>
          rw [List.cons_append, List.cons_append, List.cons_lt_cons_iff, List.cons_lt_cons_iff,
            ih (Nat.succ_injective length), List.cons.injEq]
          tauto

theorem hyphenate_lt (groups : List ℕ) {text other : List Char}
    (length : text.length = other.length) (less : text < other) :
    hyphenate groups text < hyphenate groups other := by
  induction groups generalizing text other with
  | nil => exact less
  | cons group groups ih =>
      have short : (text.take group).length = (other.take group).length := by simp [length]
      rw [← List.take_append_drop group text, ← List.take_append_drop group other,
        append_lt_append_iff short] at less
      rw [hyphenate, hyphenate, append_lt_append_iff short, List.cons_lt_cons_iff]
      rcases less with before | ⟨same, rest⟩
      · exact .inl before
      · exact .inr ⟨same, .inr ⟨rfl, ih (by simp [length]) rest⟩⟩

theorem str_eq_hyphenate (u : Uuid) : u.str.toList = hyphenate [8, 4, 4, 4] u.hex := by
  rw [str_toList]
  simp [hyphenate, List.drop_drop]

theorem str_lt {one other : Uuid} (less : one.bits.toNat < other.bits.toNat) :
    one.str < other.str := by
  rw [String.lt_iff_toList_lt, str_eq_hyphenate, str_eq_hyphenate]
  apply hyphenate_lt
  · rw [length_hex, length_hex]
  · rw [hex_eq_lowDigits, hex_eq_lowDigits]
    exact lowDigits_lt less other.bits.isLt

end AgreementIntelligence.UuidText
