import AgreementIntelligence.Privacy.Metadata

/-! Emitted metadata is what pruning by paths leaves. A path is entered unless its classification is
prohibited, and a scalar stays when its path allows it and the value is safe there. -/

namespace AgreementIntelligence.Privacy
open Lib Json

variable {φ : Type} (table : Casing.CaseTable)

def enters (path : String) : Bool :=
  classifyKey table path ≠ .prohibited

def keeps (path : String) (value : Json φ) : Bool :=
  allows table path && !unsafeScalar table path value

mutual
theorem kept_container (path : String) : (value : Json φ) → isContainer value = true →
    kept joinKey (enters table) (keeps table) path value =
      if isHollow (safeNode table path value) then none else some (safeNode table path value)
  | .object fields, _ => by rw [kept, safeNode, isHollow, safeFields_eq_keptFields path fields]
  | .array items, _ => by rw [kept, safeNode, isHollow, safeItems_eq_keptItems path items]

theorem safeFields_eq_keptFields (path : String) : (fields : List (String × Json φ)) →
    safeFields table path fields = keptFields joinKey (enters table) (keeps table) path fields
  | [] => by rw [safeFields, keptFields]
  | (key, value) :: rest => by
    rw [safeFields, keptFields, safeFields_eq_keptFields path rest]
    by_cases prohibited : classifyKey table (joinKey path key) = .prohibited
    · simp [enters, prohibited]
    · cases container : isContainer value with
      | true =>
        rw [kept_container (joinKey path key) value container]
        cases hollow : isHollow (safeNode table (joinKey path key) value) <;>
          simp [enters, prohibited, hollow]
      | false =>
        rw [kept_of_scalar container]
        cases passes : keeps table (joinKey path key) value <;>
          simp_all [enters, keeps]

theorem safeItems_eq_keptItems (path : String) : (items : List (Json φ)) →
    safeItems table path items = keptItems joinKey (enters table) (keeps table) path items
  | [] => by rw [safeItems, keptItems]
  | item :: rest => by
    rw [safeItems, keptItems, safeItems_eq_keptItems path rest]
    cases container : isContainer item with
    | true =>
      rw [kept_container path item container]
      cases hollow : isHollow (safeNode table path item) <;> simp [hollow]
    | false =>
      rw [kept_of_scalar container]
      cases passes : keeps table path item <;> simp_all [keeps]
end

/-! What is left passes through both functions unchanged. -/

mutual
theorem redactNode_kept {path : String} {out : Json φ} : (value : Json φ) →
    isContainer value = true →
    kept joinKey (enters table) (keeps table) path value = some out → redactNode table path out = out
  | .object fields, _, left => by
    obtain ⟨-, rfl⟩ := kept_object.mp left
    rw [redactNode, redactFields_keptFields path fields]
  | .array items, _, left => by
    obtain ⟨-, rfl⟩ := kept_array.mp left
    rw [redactNode, redactItems_keptItems path items]

theorem redactFields_keptFields (path : String) : (fields : List (String × Json φ)) →
    redactFields table path (keptFields joinKey (enters table) (keeps table) path fields) =
      keptFields joinKey (enters table) (keeps table) path fields
  | [] => by rw [keptFields, redactFields]
  | (key, value) :: rest => by
    have again := redactFields_keptFields path rest
    rw [keptFields]
    cases enter : enters table (joinKey path key) with
    | false => simpa using again
    | true =>
      have open_ : classifyKey table (joinKey path key) ≠ .prohibited := by simpa [enters] using enter
      cases left : kept joinKey (enters table) (keeps table) (joinKey path key) value with
      | none => simpa using again
      | some child =>
        cases container : isContainer value with
        | true =>
          have inner := redactNode_kept value container left
          rw [← isContainer_kept left] at container
          simpa [redactFields, open_, container, inner] using again
        | false =>
          obtain ⟨passes, rfl⟩ := (kept_scalar container).mp left
          rw [keeps, Bool.and_eq_true, Bool.not_eq_true'] at passes
          simpa [redactFields, open_, container, passes] using again

theorem redactItems_keptItems (path : String) : (items : List (Json φ)) →
    redactItems table path (keptItems joinKey (enters table) (keeps table) path items) =
      keptItems joinKey (enters table) (keeps table) path items
  | [] => by rw [keptItems, redactItems]
  | item :: rest => by
    have again := redactItems_keptItems path rest
    cases left : kept joinKey (enters table) (keeps table) path item with
    | none => simpa [keptItems, left] using again
    | some child =>
      cases container : isContainer item with
      | true =>
        have inner := redactNode_kept item container left
        rw [← isContainer_kept left] at container
        simpa [keptItems, left, redactItems, container, inner] using again
      | false =>
        obtain ⟨passes, rfl⟩ := (kept_scalar container).mp left
        rw [keeps, Bool.and_eq_true, Bool.not_eq_true'] at passes
        simpa [keptItems, left, redactItems, container, passes] using again
end

/-! What a scalar's path says of it -/

theorem lastComponent_key : ∀ key ∈ operationalKeys ++ allowedRestrictedKeys,
    lastComponent key = key := by
  decide +kernel

/-- No enclosing key is prohibited, and the last component of the path is operational or allowed. -/
def qualifies (trail : List String) (path : String) : Bool :=
  trail.all (enters table) &&
    (leafName table path ∈ operationalKeys || leafName table path ∈ allowedRestrictedKeys)

theorem leafName_of_allows {path : String} (allowed : allows table path = true) :
    leafName table path ∈ operationalKeys ++ allowedRestrictedKeys := by
  have whole (known : normalizeKey table path ∈ operationalKeys ++ allowedRestrictedKeys) :
      leafName table path ∈ operationalKeys ++ allowedRestrictedKeys := by
    rwa [leafName, lastComponent_key _ known]
  rw [allows, Bool.or_eq_true, decide_eq_true_eq, isAllowedRestricted, Bool.or_eq_true,
    decide_eq_true_eq, decide_eq_true_eq] at allowed
  rcases allowed with operational | named | leaf
  · rw [classifyKey] at operational
    split_ifs at operational with _ known
    rcases known with named | leaf
    · exact whole (List.mem_append_left _ named)
    · exact List.mem_append_left _ leaf
  · exact whole (List.mem_append_right _ named)
  · exact List.mem_append_right _ leaf

theorem qualifies_of_allows {trail : List String} {path : String}
    (entered : ∀ other ∈ trail, enters table other = true) (allowed : allows table path = true) :
    qualifies table trail path = true := by
  have known := leafName_of_allows table allowed
  rw [List.mem_append] at known
  simp [qualifies, known]
  exact entered

theorem shows_qualified : Shows (φ := φ) (enters table) (keeps table) (qualifies table) := by
  intro trail path entered hidden value
  cases allowed : allows table path with
  | false => rw [keeps, allowed, Bool.false_and]
  | true => rw [qualifies_of_allows table entered allowed] at hidden; cases hidden

/-- A scalar that may be emitted. -/
structure Emittable (leaf : Leaf String φ) : Prop where
  qualified : qualifies table leaf.trail leaf.path = true
  address : ∀ text, leaf.value = .string text → '@' ∉ text.toList
  message : leafName table leaf.path = "message" →
    ∀ text, leaf.value = .string text → text ∈ allowedLogMessages
  reasonCode : leafName table leaf.path = "reason_code" →
    ∃ text ∈ approvedReasonCodes, leaf.value = .string text

theorem reasonCode_plain : ∀ code ∈ approvedReasonCodes, '@' ∉ code.toList := by
  decide +kernel

theorem message_ne_reasonCode : "message" ≠ "reason_code" := by
  decide

section Scalars
variable {table} {path : String} {value : Json φ}
  (harmless : unsafeScalar table path value = false)
include harmless

theorem approved_of_harmless (reason : leafName table path = "reason_code") :
    ∃ text ∈ approvedReasonCodes, value = .string text := by
  unfold unsafeScalar at harmless
  rw [if_pos reason] at harmless
  cases value with
  | string text => exact ⟨text, by simpa only [decide_eq_false_iff_not, not_not] using harmless, rfl⟩
  | null | bool | int | float | array | object => cases harmless

theorem text_of_harmless {text : String} (string : value = .string text)
    (other : leafName table path ≠ "reason_code") : '@' ∉ text.toList ∧
      (leafName table path = "message" → text ∈ allowedLogMessages) := by
  rw [string] at harmless
  unfold unsafeScalar at harmless
  rw [if_neg other] at harmless
  obtain ⟨address, message⟩ := Bool.or_eq_false_iff.mp harmless
  refine ⟨by simpa only [decide_eq_false_iff_not] using address, fun leaf => ?_⟩
  simpa only [leaf, decide_true, Bool.true_and, decide_eq_false_iff_not, not_not] using message

end Scalars

theorem emittable_of_admitted {leaf : Leaf String φ}
    (admitted : Admitted (enters table) (keeps table) leaf) : Emittable table leaf := by
  obtain ⟨allowed, harmless⟩ := Bool.and_eq_true_iff.mp admitted.keeps
  rw [Bool.not_eq_true'] at harmless
  refine ⟨qualifies_of_allows table admitted.entered allowed, ?_, ?_, approved_of_harmless harmless⟩
  · intro text string
    by_cases reason : leafName table leaf.path = "reason_code"
    · obtain ⟨code, approved, same⟩ := approved_of_harmless harmless reason
      obtain rfl : code = text := Json.string.inj (same.symm.trans string)
      exact reasonCode_plain code approved
    · exact (text_of_harmless harmless string reason).1
  · intro message text string
    have other : leafName table leaf.path ≠ "reason_code" := message ▸ message_ne_reasonCode
    exact (text_of_harmless harmless string other).2 message

/-- What is emitted is a function of the scalars whose paths qualify, and safe; making it safe or
redacting it again changes nothing. -/
theorem safeEventMetadata_safe (values : List (String × Json φ)) :
    (∀ leaf ∈ leavesFields joinKey [] "" (safeEventMetadata table values), Emittable table leaf) ∧
      (∀ other, maskFields joinKey (qualifies table) [] "" values =
          maskFields joinKey (qualifies table) [] "" other →
        safeEventMetadata table values = safeEventMetadata table other) ∧
      safeEventMetadata table (safeEventMetadata table values) = safeEventMetadata table values ∧
      redactMapping table (safeEventMetadata table values) = safeEventMetadata table values := by
  simp only [safeEventMetadata, redactMapping, safeFields_eq_keptFields]
  refine ⟨?_, ?_, keptFields_keptFields "" values, redactFields_keptFields table "" values⟩
  · intro leaf member
    exact emittable_of_admitted table (admitted_of_keptFields (List.forall_mem_nil _) values member)
  · intro other same
    have entered : ∀ path ∈ ([] : List String), enters table path = true := List.forall_mem_nil _
    rw [← keptFields_mask (shows_qualified table) entered values, same,
      keptFields_mask (shows_qualified table) entered other]

theorem safeEventMetadata_safe_user :
    safeEventMetadata (φ := Unit) .ascii [("user", .string "ann"), ("status", .string "ok")] =
      safeEventMetadata .ascii [("user", .string "bob"), ("status", .string "ok")] :=
  (safeEventMetadata_safe .ascii _).2.1 _ rfl

/-- A dot inside a key hides a prohibited prefix, keys are emitted as they are, and a message that is
no text is not looked up. -/
theorem safeEventMetadata_emits :
    (classifyKey .ascii "secret" = .prohibited ∧ joinKey "secret" "status" = "secret.status" ∧
      safeEventMetadata (φ := Unit) .ascii [("secret.status", .string "ok")] =
        [("secret.status", .string "ok")]) ∧
    safeEventMetadata (φ := Unit) .ascii [("a@b", .object [("status", .string "ok")])] =
      [("a@b", .object [("status", .string "ok")])] ∧
    safeEventMetadata (φ := Unit) .ascii [("message", .int 5)] = [("message", .int 5)] := by
  refine ⟨⟨?_, ?_, ?_⟩, ?_, ?_⟩ <;> rfl

end AgreementIntelligence.Privacy
