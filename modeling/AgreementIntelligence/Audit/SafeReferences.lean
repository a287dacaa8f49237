import AgreementIntelligence.Audit.RestrictedText
import AgreementIntelligence.Lib.Casing
import AgreementIntelligence.Lib.JsonPaths
import AgreementIntelligence.Reviews.Decisions

/-! What the audit log keeps of the references and the metadata of an event: a mapping of any depth,
of which the values under sensitive keys and the restricted texts are redacted. -/

namespace AgreementIntelligence.Audit
open Lib Json Reviews.Decisions

/-- `key.lower().replace("-", "_").replace(" ", "_")` -/
def normalizedKey (lowering : Casing.Lowering) (key : String) : String :=
  String.ofList ((lowering.lower key.toList).map fun c => if c = '-' ∨ c = ' ' then '_' else c)

section Values
variable {φ : Type} (unicode : UnicodeTable) (lowering : Casing.Lowering)

mutual
/-- `_safe_value` -/
def safeReference (key : String) (value : Json φ) : Json φ :=
  if isReasonCodeKey (normalizedKey lowering key) then
    match value with
    | .string code => if code ∈ approvedReasonCodes then .string code else .string redacted
    | _ => .string redacted
  else if isSensitiveKey (normalizedKey lowering key) then .string redacted
  else
    match value with
    | .object fields => .object (safeReferences fields)
    | .array items => .array (safeReferenceItems key items)
    | .string text => if isRestrictedText unicode text then .string redacted else .string text
    | .int number => .int number
    | .float number => .float number
    | .bool flag => .bool flag
    | .null => .null

/-- `_safe_mapping` -/
def safeReferences : List (String × Json φ) → List (String × Json φ)
  | [] => []
  | (key, value) :: rest => (key, safeReference key value) :: safeReferences rest

def safeReferenceItems (key : String) : List (Json φ) → List (Json φ)
  | [] => []
  | item :: rest => safeReference key item :: safeReferenceItems key rest
end

/-- What the log may hold under a key. -/
structure Clean (key : String) (value : Json φ) : Prop where
  text : ∀ text, value = .string text → isRestrictedText unicode text = false
  sensitive : isSensitiveKey (normalizedKey lowering key) = true →
    isReasonCodeKey (normalizedKey lowering key) = false → value = .string redacted
  reasonCode : isReasonCodeKey (normalizedKey lowering key) = true →
    value = .string redacted ∨ ∃ code ∈ approvedReasonCodes, value = .string code

theorem marks_plain : ∀ mark ∈ redacted :: approvedReasonCodes,
    (mark.toList.all fun c => decide (c.toNat < 128) && !c.isDigit) = true ∧
      mark.length ≤ maxSafeTextLength ∧
      ∀ pattern ∈ [credentialPattern, jwtPattern, emailPattern, restrictedTextPattern],
        pattern.search UnicodeTable.ascii.patterns mark = false := by
  decide +kernel

theorem mark_unrestricted {mark : String} (known : mark ∈ redacted :: approvedReasonCodes) :
    isRestrictedText unicode mark = false := by
  obtain ⟨plain, short, clean⟩ := marks_plain mark known
  refine unrestricted_of_plain unicode (fun c there => ?_) short clean
  simpa using List.all_eq_true.mp plain c there

theorem clean_redacted (key : String) : Clean unicode lowering key (.string redacted : Json φ) where
  text text same := by
    obtain rfl := Json.string.inj same
    exact mark_unrestricted unicode List.mem_cons_self
  sensitive _ _ := rfl
  reasonCode _ := .inl rfl

variable {unicode lowering} {key : String} {value : Json φ}

theorem safeReference_eq : safeReference unicode lowering key value =
    if isReasonCodeKey (normalizedKey lowering key) then
      match value with
      | .string code => if code ∈ approvedReasonCodes then .string code else .string redacted
      | _ => .string redacted
    else if isSensitiveKey (normalizedKey lowering key) then .string redacted
    else
      match value with
      | .object fields => .object (safeReferences unicode lowering fields)
      | .array items => .array (safeReferenceItems unicode lowering key items)
      | .string text => if isRestrictedText unicode text then .string redacted else .string text
      | .int number => .int number
      | .float number => .float number
      | .bool flag => .bool flag
      | .null => .null := by
  unfold safeReference
  rfl

/-! Under a sensitive key stands a mark, which stays as it is. -/

theorem safeReference_reasonCode (reason : isReasonCodeKey (normalizedKey lowering key) = true) :
    safeReference unicode lowering key value = .string redacted ∨
      ∃ code ∈ approvedReasonCodes, safeReference unicode lowering key value = .string code := by
  rw [safeReference_eq, if_pos reason]
  cases value with
  | string code =>
    by_cases approved : code ∈ approvedReasonCodes
    · exact .inr ⟨code, approved, if_pos approved⟩
    · exact .inl (if_neg approved)
  | null | bool | int | float | array | object => exact .inl rfl

theorem safeReference_sensitive (other : isReasonCodeKey (normalizedKey lowering key) = false)
    (sensitive : isSensitiveKey (normalizedKey lowering key) = true) :
    safeReference unicode lowering key value = .string redacted := by
  rw [safeReference_eq, if_neg (by simp [other]), if_pos sensitive]

/-- The key decides what becomes of every value that is under it. -/
def Closes (lowering : Casing.Lowering) (key : String) : Prop :=
  isReasonCodeKey (normalizedKey lowering key) = true ∨
    isSensitiveKey (normalizedKey lowering key) = true

instance (lowering : Casing.Lowering) (key : String) : Decidable (Closes lowering key) := by
  unfold Closes
  infer_instance

theorem safeReference_closed (closes : Closes lowering key) :
    ∃ mark, safeReference unicode lowering key value = .string mark ∧
      Clean unicode lowering key (.string mark : Json φ) := by
  cases reason : isReasonCodeKey (normalizedKey lowering key) with
  | false =>
    have sensitive := closes.resolve_left (by simp [reason])
    exact ⟨redacted, safeReference_sensitive reason sensitive, clean_redacted unicode lowering key⟩
  | true =>
    rcases safeReference_reasonCode reason with hidden | ⟨code, approved, shown⟩
    · exact ⟨redacted, hidden, clean_redacted unicode lowering key⟩
    · refine ⟨code, shown, ⟨?_, ?_, fun _ => .inr ⟨code, approved, rfl⟩⟩⟩
      · intro text same
        obtain rfl := Json.string.inj same
        exact mark_unrestricted unicode (List.mem_cons_of_mem redacted approved)
      · intro _ other
        rw [reason] at other
        cases other

theorem safeReference_again_closed (closes : Closes lowering key) :
    safeReference unicode lowering key (safeReference unicode lowering key value) =
      safeReference unicode lowering key value := by
  cases reason : isReasonCodeKey (normalizedKey lowering key) with
  | false =>
    have sensitive := closes.resolve_left (by simp [reason])
    rw [safeReference_sensitive reason sensitive, safeReference_sensitive reason sensitive]
  | true =>
    have again (mark : String) : safeReference unicode lowering key (.string mark : Json φ) =
        if mark ∈ approvedReasonCodes then .string mark else .string redacted := by
      rw [safeReference_eq, if_pos reason]
    rcases @safeReference_reasonCode _ unicode _ _ value reason with hidden | ⟨code, approved, shown⟩
    · rw [hidden, again, ite_self]
    · rw [shown, again, if_pos approved]

section Open
variable (opens : ¬ Closes lowering key)
include opens

theorem clean_open {value : Json φ} (unrestricted : ∀ text, value = .string text →
    isRestrictedText unicode text = false) : Clean unicode lowering key value where
  text := unrestricted
  sensitive sensitive _ := absurd (.inr sensitive) opens
  reasonCode reason := absurd (.inl reason) opens

theorem safeReference_object (fields : List (String × Json φ)) :
    safeReference unicode lowering key (.object fields) =
      .object (safeReferences unicode lowering fields) := by
  have opens' := not_or.mp opens
  rw [safeReference_eq, if_neg opens'.1, if_neg opens'.2]

theorem safeReference_array (items : List (Json φ)) :
    safeReference unicode lowering key (.array items) =
      .array (safeReferenceItems unicode lowering key items) := by
  have opens' := not_or.mp opens
  rw [safeReference_eq, if_neg opens'.1, if_neg opens'.2]

theorem safeReference_string (text : String) :
    safeReference unicode lowering key (.string text : Json φ) =
      if isRestrictedText unicode text then .string redacted else .string text := by
  have opens' := not_or.mp opens
  rw [safeReference_eq, if_neg opens'.1, if_neg opens'.2]

theorem safeReference_scalar (scalar : isContainer value = false)
    (other : ∀ text, value ≠ .string text) : safeReference unicode lowering key value = value := by
  have opens' := not_or.mp opens
  rw [safeReference_eq, if_neg opens'.1, if_neg opens'.2]
  cases value with
  | string text => exact absurd rfl (other text)
  | array | object => cases scalar
  | null | bool | int | float => rfl

end Open

/-! The whole of a mapping, by its values -/

theorem keyed_scalar (scalar : isContainer value = false) : keyed key value = [(key, value)] := by
  cases value <;> simp_all [keyed, isContainer]

theorem clean_closed (closes : Closes lowering key) :
    ∀ item ∈ keyed key (safeReference unicode lowering key value),
      Clean unicode lowering item.1 item.2 := by
  obtain ⟨mark, shown, clean⟩ := @safeReference_closed _ unicode _ _ value closes
  rw [shown, keyed_scalar rfl]
  exact List.forall_mem_singleton.mpr clean

theorem clean_scalar (opens : ¬ Closes lowering key) (scalar : isContainer value = false)
    (other : ∀ text, value ≠ .string text) :
    ∀ item ∈ keyed key (safeReference unicode lowering key value),
      Clean unicode lowering item.1 item.2 := by
  rw [safeReference_scalar opens scalar other, keyed_scalar scalar]
  exact List.forall_mem_singleton.mpr (clean_open opens fun text same => absurd same (other text))

mutual
theorem clean_safeReference (key : String) (value : Json φ) :
    ∀ item ∈ keyed key (safeReference unicode lowering key value),
      Clean unicode lowering item.1 item.2 := by
  by_cases opens : Closes lowering key
  · exact clean_closed opens
  match value with
  | .object fields =>
    rw [safeReference_object opens, keyed]
    exact List.forall_mem_cons.mpr ⟨clean_open opens (by simp), clean_safeReferences fields⟩
  | .array items =>
    rw [safeReference_array opens, keyed]
    exact List.forall_mem_cons.mpr ⟨clean_open opens (by simp), clean_safeReferenceItems key items⟩
  | .string text =>
    rw [safeReference_string opens]
    cases restricted : isRestrictedText unicode text with
    | true =>
      rw [if_pos rfl, keyed_scalar rfl]
      exact List.forall_mem_singleton.mpr (clean_redacted unicode lowering key)
    | false =>
      rw [if_neg Bool.false_ne_true, keyed_scalar rfl]
      refine List.forall_mem_singleton.mpr (clean_open opens fun other same => ?_)
      obtain rfl := Json.string.inj same
      exact restricted
  | .null => exact clean_scalar opens rfl (by simp)
  | .bool _ => exact clean_scalar opens rfl (by simp)
  | .int _ => exact clean_scalar opens rfl (by simp)
  | .float _ => exact clean_scalar opens rfl (by simp)

theorem clean_safeReferences (fields : List (String × Json φ)) :
    ∀ item ∈ keyedFields (safeReferences unicode lowering fields),
      Clean unicode lowering item.1 item.2 := by
  match fields with
  | [] => simp [safeReferences, keyedFields]
  | (key, value) :: rest =>
    rw [safeReferences, keyedFields]
    exact List.forall_mem_append.mpr ⟨clean_safeReference key value, clean_safeReferences rest⟩

theorem clean_safeReferenceItems (key : String) (items : List (Json φ)) :
    ∀ item ∈ keyedItems key (safeReferenceItems unicode lowering key items),
      Clean unicode lowering item.1 item.2 := by
  match items with
  | [] => simp [safeReferenceItems, keyedItems]
  | item :: rest =>
    rw [safeReferenceItems, keyedItems]
    exact List.forall_mem_append.mpr
      ⟨clean_safeReference key item, clean_safeReferenceItems key rest⟩
end

theorem safeReference_again_scalar (opens : ¬ Closes lowering key)
    (scalar : isContainer value = false) (other : ∀ text, value ≠ .string text) :
    safeReference unicode lowering key (safeReference unicode lowering key value) =
      safeReference unicode lowering key value := by
  have same := @safeReference_scalar _ unicode _ _ _ opens scalar other
  rw [same, same]

mutual
theorem safeReference_again (key : String) (value : Json φ) :
    safeReference unicode lowering key (safeReference unicode lowering key value) =
      safeReference unicode lowering key value := by
  by_cases opens : Closes lowering key
  · exact safeReference_again_closed opens
  match value with
  | .object fields =>
    rw [safeReference_object opens, safeReference_object opens, safeReferences_again fields]
  | .array items =>
    rw [safeReference_array opens, safeReference_array opens, safeReferenceItems_again key items]
  | .string text =>
    rw [safeReference_string opens]
    cases restricted : isRestrictedText unicode text with
    | true =>
      rw [if_pos rfl, safeReference_string opens, ite_self]
    | false =>
      rw [if_neg Bool.false_ne_true, safeReference_string opens, restricted,
        if_neg Bool.false_ne_true]
  | .null => exact safeReference_again_scalar opens rfl (by simp)
  | .bool _ => exact safeReference_again_scalar opens rfl (by simp)
  | .int _ => exact safeReference_again_scalar opens rfl (by simp)
  | .float _ => exact safeReference_again_scalar opens rfl (by simp)

theorem safeReferences_again (fields : List (String × Json φ)) :
    safeReferences unicode lowering (safeReferences unicode lowering fields) =
      safeReferences unicode lowering fields := by
  match fields with
  | [] => simp [safeReferences]
  | (key, value) :: rest =>
    rw [safeReferences, safeReferences, safeReference_again key value, safeReferences_again rest]

theorem safeReferenceItems_again (key : String) (items : List (Json φ)) :
    safeReferenceItems unicode lowering key (safeReferenceItems unicode lowering key items) =
      safeReferenceItems unicode lowering key items := by
  match items with
  | [] => simp [safeReferenceItems]
  | item :: rest =>
    rw [safeReferenceItems, safeReferenceItems, safeReference_again key item,
      safeReferenceItems_again key rest]
end

/-- At every depth the log holds no restricted text as a value, and under a sensitive key the mark or
an approved reason code; what it holds would be kept as it is. -/
theorem safeReferences_clean (unicode : UnicodeTable) (lowering : Casing.Lowering)
    (value : List (String × Json φ)) :
    (∀ item ∈ keyedFields (safeReferences unicode lowering value),
      Clean unicode lowering item.1 item.2) ∧
    safeReferences unicode lowering (safeReferences unicode lowering value) =
      safeReferences unicode lowering value :=
  ⟨clean_safeReferences value, safeReferences_again value⟩

/-- Keys are kept as they are, and so is an approved code under a key that counts as sensitive. -/
theorem safeReferences_keep :
    (isRestrictedText .ascii "ann@example.com" = true ∧
      safeReferences (φ := Unit) .ascii .ascii [("ann@example.com", .int 1)] =
        [("ann@example.com", .int 1)]) ∧
    isSensitiveKey (normalizedKey .ascii "reason_code") = true ∧
      safeReferences (φ := Unit) .ascii .ascii [("reason_code", .string "other")] =
        [("reason_code", .string "other")] := by
  refine ⟨⟨by decide +kernel, ?_⟩, by decide +kernel, ?_⟩ <;> rfl

end Values

end AgreementIntelligence.Audit
