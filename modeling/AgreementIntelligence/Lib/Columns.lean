import Mathlib.Tactic.Common

/-! Columns of a row that a session has loaded. A flush writes a column when the value it has been
given differs from the one that was loaded; any other column keeps what the row holds by then. -/

namespace AgreementIntelligence.Lib.Columns

variable {α : Type} [DecidableEq α] {loaded value current : α}

/-- What a column holds after the flush. -/
def written (loaded value current : α) : α :=
  if value = loaded then current else value

theorem written_of_ne (apart : loaded ≠ value) : written loaded value current = value :=
  if_neg fun same => apart same.symm

/-- A column that is not assigned keeps what it holds. -/
@[simp] theorem written_self : written loaded loaded current = current := if_pos rfl

/-- After a refresh the column holds what it is given. -/
@[simp] theorem written_current : written current value current = value := by
  unfold written
  split
  · next same => exact same.symm
  · rfl

theorem isSome_written {loaded current : Option α} {value : α} (set : current.isSome) :
    (written loaded (some value) current).isSome := by
  unfold written
  split
  · exact set
  · rfl

end AgreementIntelligence.Lib.Columns
