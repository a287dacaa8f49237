import Mathlib.Algebra.Group.Nat.Defs
import Mathlib.Tactic.Common

/-! Case mappings of texts. Python maps a text character by character through the tables of the
Unicode standard, and one character may become several. The tables are a parameter; what is
known of them is what they say about ASCII. -/

namespace AgreementIntelligence.Lib.Casing

structure CaseTable where
  upper : Char → List Char
  fold : Char → List Char
  upper_ascii : ∀ c, c.toNat < 128 → upper c = [c.toUpper]
  fold_ascii : ∀ c, c.toNat < 128 → fold c = [c.toLower]

/-- `text.upper()` -/
def CaseTable.upperText (table : CaseTable) (text : String) : String :=
  String.ofList (text.toList.flatMap table.upper)

/-- `text.casefold()` -/
def CaseTable.casefold (table : CaseTable) (text : String) : String :=
  String.ofList (text.toList.flatMap table.fold)

/-- The tables of a text world that knows no letters outside ASCII. -/
def CaseTable.ascii : CaseTable where
  upper c := [c.toUpper]
  fold c := [c.toLower]
  upper_ascii _ _ := rfl
  fold_ascii _ _ := rfl

def Ascii (text : String) : Prop :=
  ∀ c ∈ text.toList, c.toNat < 128

theorem flatMap_ascii {chars : List Char} {f : Char → List Char} {g : Char → Char}
    (plain : ∀ c ∈ chars, c.toNat < 128) (known : ∀ c, c.toNat < 128 → f c = [g c]) :
    chars.flatMap f = chars.map g := by
  induction chars with
  | nil => rfl
  | cons c rest ih =>
      rw [List.flatMap_cons, known c (plain c List.mem_cons_self),
        ih fun other later => plain other (List.mem_cons_of_mem c later)]
      rfl

theorem CaseTable.upperText_ascii (table : CaseTable) {text : String} (plain : Ascii text) :
    table.upperText text = String.ofList (text.toList.map Char.toUpper) := by
  rw [CaseTable.upperText, flatMap_ascii plain table.upper_ascii]

theorem toNat_toLower_of_capital {c : Char} (low : 65 ≤ c.toNat) (high : c.toNat ≤ 90) :
    c.toLower.toNat = c.toNat + 32 := by
  have capital : c.val ≥ 'A'.val ∧ c.val ≤ 'Z'.val := ⟨low, high⟩
  have lowered : c.toLower.toNat = (c.val + ('a'.val - 'A'.val)).toNat :=
    congrArg Char.toNat (dif_pos capital)
  have small : c.val.toNat ≤ 90 := high
  rw [lowered, UInt32.toNat_add]
  show (c.val.toNat + 32) % 2 ^ 32 = c.val.toNat + 32
  omega

theorem isAlphanum_iff (c : Char) :
    c.isAlphanum = true ↔ (65 ≤ c.toNat ∧ c.toNat ≤ 90 ∨ 97 ≤ c.toNat ∧ c.toNat ≤ 122) ∨
      48 ≤ c.toNat ∧ c.toNat ≤ 57 := by
  change ((decide ('A'.val ≤ c.val ∧ c.val ≤ 'Z'.val) ||
    decide ('a'.val ≤ c.val) && decide (c.val ≤ 'z'.val)) ||
      decide ('0'.val ≤ c.val) && decide (c.val ≤ '9'.val)) = true ↔ _
  simp only [Bool.or_eq_true, Bool.and_eq_true, decide_eq_true_eq]
  rfl

theorem toLower_of_not_capital {c : Char} (other : ¬ (65 ≤ c.toNat ∧ c.toNat ≤ 90)) :
    c.toLower = c :=
  dif_neg other

theorem le_toLower (c : Char) : c.toNat ≤ c.toLower.toNat := by
  by_cases capital : 65 ≤ c.toNat ∧ c.toNat ≤ 90
  · rw [toNat_toLower_of_capital capital.1 capital.2]
    omega
  · exact Nat.le_of_eq (congrArg Char.toNat (toLower_of_not_capital capital).symm)

theorem toUpper_toLower (c : Char) : c.toLower.toUpper = c.toUpper := by
  by_cases capital : 65 ≤ c.toNat ∧ c.toNat ≤ 90
  · have lower := toNat_toLower_of_capital capital.1 capital.2
    have plain : c.toUpper = c := dif_neg fun small => by
      have low : 97 ≤ c.toNat := small.1
      omega
    have small : 'a'.val ≤ c.toLower.val ∧ c.toLower.val ≤ 'z'.val := by
      have value : c.toLower.val.toNat = c.toNat + 32 := lower
      constructor
      · show 97 ≤ c.toLower.val.toNat
        omega
      · show c.toLower.val.toNat ≤ 122
        omega
    rw [plain]
    refine (dif_pos small).trans ?_
    apply Char.ext
    apply UInt32.toNat_inj.mp
    show (c.toLower.val + ('A'.val - 'a'.val)).toNat = c.val.toNat
    rw [UInt32.toNat_add]
    show (c.toLower.toNat + 4294967264) % 2 ^ 32 = c.toNat
    omega
  · rw [toLower_of_not_capital capital]

/-- Texts that differ in the case of ASCII letters only have the same upper-case text. -/
theorem CaseTable.upperText_of_lower (table : CaseTable) {text : String} {lower : List Char}
    (spelt : text.toList.map Char.toLower = lower) (plain : ∀ c ∈ lower, c.toNat < 128) :
    table.upperText text = String.ofList (lower.map Char.toUpper) := by
  have small : Ascii text := fun c member => by
    have image : c.toLower ∈ lower := spelt ▸ List.mem_map_of_mem member
    exact Nat.lt_of_le_of_lt (le_toLower c) (plain _ image)
  rw [table.upperText_ascii small, ← spelt, List.map_map]
  congr 1
  exact List.map_congr_left fun c _ => (toUpper_toLower c).symm

/-! Lowering

A capital sigma is lowered by the word that it ends, so `text.lower()` is no map of characters. A
digit has no case and parts words: what stands between digits is lowered as it is alone. -/

structure Lowering where
  lower : List Char → List Char
  lower_ascii : ∀ text : List Char, (∀ c ∈ text, c.toNat < 128) → lower text = text.map Char.toLower
  lower_between : ∀ before text after : List Char, (∀ c ∈ before, c.isDigit) →
    (∀ c ∈ after, c.isDigit) → lower (before ++ text ++ after) = before ++ lower text ++ after

theorem toLower_of_isDigit {c : Char} (digit : c.isDigit) : c.toLower = c := by
  apply toLower_of_not_capital
  simp only [Char.isDigit, Bool.and_eq_true, decide_eq_true_eq] at digit
  have small : c.toNat ≤ 57 := digit.2
  omega

theorem map_toLower_digits {text : List Char} (digits : ∀ c ∈ text, c.isDigit) :
    text.map Char.toLower = text := by
  rw [List.map_congr_left fun c member => toLower_of_isDigit (digits c member)]
  exact List.map_id text

/-- The lowering of a text world that knows no letters outside ASCII. -/
def Lowering.ascii : Lowering where
  lower text := text.map Char.toLower
  lower_ascii _ _ := rfl
  lower_between before text after plain later := by
    simp only [List.map_append, map_toLower_digits plain, map_toLower_digits later]

theorem Lowering.lower_digits (lowering : Lowering) {text : List Char}
    (digits : ∀ c ∈ text, c.isDigit) : lowering.lower text = text := by
  have alone := lowering.lower_between text [] [] digits (by simp)
  have nothing : lowering.lower [] = [] := lowering.lower_ascii [] (by simp)
  simpa [nothing] using alone

end AgreementIntelligence.Lib.Casing
