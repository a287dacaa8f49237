import AgreementIntelligence.Lib.Json

/-! Pruning a JSON document by the paths of its scalars. A path is what the keys on the way to a
value have made of the path of the root; an item of an array has the path of the array. A key is
entered or dropped with all that is under it, a scalar is kept or dropped, and a container of which
nothing is left is dropped as well. -/

namespace AgreementIntelligence.Lib.Json
variable {φ π : Type}

def isContainer : Json φ → Bool
  | .array _ | .object _ => true
  | _ => false

/-- The value is `{}` or `[]`. -/
def isHollow : Json φ → Bool
  | .array items => items.isEmpty
  | .object fields => fields.isEmpty
  | _ => false

/-- A scalar, its path, and the paths of the keys that enclose it, the nearest first. -/
structure Leaf (π φ : Type) where
  trail : List π
  path : π
  value : Json φ

section Leaves
variable (down : π → String → π)

mutual
def leaves (trail : List π) (path : π) : Json φ → List (Leaf π φ)
  | .object fields => leavesFields trail path fields
  | .array items => leavesItems trail path items
  | value => [⟨trail, path, value⟩]

def leavesFields (trail : List π) (path : π) : List (String × Json φ) → List (Leaf π φ)
  | [] => []
  | (key, value) :: rest =>
    leaves (down path key :: trail) (down path key) value ++ leavesFields trail path rest

def leavesItems (trail : List π) (path : π) : List (Json φ) → List (Leaf π φ)
  | [] => []
  | item :: rest => leaves trail path item ++ leavesItems trail path rest
end

mutual
/-- The document with `null` for each scalar that cannot be seen. -/
def mask (sees : List π → π → Bool) (trail : List π) (path : π) : Json φ → Json φ
  | .object fields => .object (maskFields sees trail path fields)
  | .array items => .array (maskItems sees trail path items)
  | value => if sees trail path then value else .null

def maskFields (sees : List π → π → Bool) (trail : List π) (path : π) :
    List (String × Json φ) → List (String × Json φ)
  | [] => []
  | (key, value) :: rest =>
    (key, mask sees (down path key :: trail) (down path key) value) ::
      maskFields sees trail path rest

def maskItems (sees : List π → π → Bool) (trail : List π) (path : π) :
    List (Json φ) → List (Json φ)
  | [] => []
  | item :: rest => mask sees trail path item :: maskItems sees trail path rest
end

end Leaves

mutual
/-- Every value of a document, with the key that it is under. -/
def keyed (key : String) : Json φ → List (String × Json φ)
  | .object fields => (key, .object fields) :: keyedFields fields
  | .array items => (key, .array items) :: keyedItems key items
  | value => [(key, value)]

def keyedFields : List (String × Json φ) → List (String × Json φ)
  | [] => []
  | (key, value) :: rest => keyed key value ++ keyedFields rest

def keyedItems (key : String) : List (Json φ) → List (String × Json φ)
  | [] => []
  | item :: rest => keyed key item ++ keyedItems key rest
end

section Kept
variable (down : π → String → π) (enters : π → Bool) (keeps : π → Json φ → Bool)

mutual
/-- What is left of a value, `none` when that is nothing. -/
def kept (path : π) : Json φ → Option (Json φ)
  | .object fields =>
    if (keptFields path fields).isEmpty then none else some (.object (keptFields path fields))
  | .array items =>
    if (keptItems path items).isEmpty then none else some (.array (keptItems path items))
  | value => if keeps path value then some value else none

def keptFields (path : π) : List (String × Json φ) → List (String × Json φ)
  | [] => []
  | (key, value) :: rest =>
    let child := if enters (down path key) then kept (down path key) value else none
    (child.map (key, ·)).toList ++ keptFields path rest

def keptItems (path : π) : List (Json φ) → List (Json φ)
  | [] => []
  | item :: rest => (kept path item).toList ++ keptItems path rest
end

variable {down enters keeps}

theorem kept_eq (path : π) (value : Json φ) : kept down enters keeps path value =
    match value with
    | .object fields =>
      if (keptFields down enters keeps path fields).isEmpty then none
      else some (.object (keptFields down enters keeps path fields))
    | .array items =>
      if (keptItems down enters keeps path items).isEmpty then none
      else some (.array (keptItems down enters keeps path items))
    | value => if keeps path value then some value else none := by
  cases value <;> rw [kept] <;> nofun

theorem kept_object {path : π} {fields : List (String × Json φ)} {out : Json φ} :
    kept down enters keeps path (.object fields) = some out ↔
      keptFields down enters keeps path fields ≠ [] ∧
        out = .object (keptFields down enters keeps path fields) := by
  rw [kept_eq]
  by_cases hollow : keptFields down enters keeps path fields = []
  · simp [hollow]
  · simp only [List.isEmpty_iff, hollow, if_false, Option.some.injEq, ne_eq, not_false_iff, true_and]
    exact eq_comm

theorem kept_array {path : π} {items : List (Json φ)} {out : Json φ} :
    kept down enters keeps path (.array items) = some out ↔
      keptItems down enters keeps path items ≠ [] ∧
        out = .array (keptItems down enters keeps path items) := by
  rw [kept_eq]
  by_cases hollow : keptItems down enters keeps path items = []
  · simp [hollow]
  · simp only [List.isEmpty_iff, hollow, if_false, Option.some.injEq, ne_eq, not_false_iff, true_and]
    exact eq_comm

theorem kept_of_scalar {path : π} {value : Json φ} (scalar : isContainer value = false) :
    kept down enters keeps path value = if keeps path value then some value else none := by
  cases value <;> simp_all [kept_eq, isContainer]

theorem kept_scalar {path : π} {value out : Json φ} (scalar : isContainer value = false) :
    kept down enters keeps path value = some out ↔ keeps path value = true ∧ value = out := by
  simp [kept_of_scalar scalar]

theorem isContainer_kept {path : π} {value out : Json φ}
    (left : kept down enters keeps path value = some out) : isContainer out = isContainer value := by
  cases scalar : isContainer value with
  | false =>
    obtain ⟨-, rfl⟩ := (kept_scalar scalar).mp left
    exact scalar
  | true =>
    cases value with
    | object => rw [(kept_object.mp left).2]; rfl
    | array => rw [(kept_array.mp left).2]; rfl
    | null | bool | int | float | string => exact absurd scalar Bool.false_ne_true

theorem leaves_scalar {trail : List π} {path : π} {value : Json φ}
    (scalar : isContainer value = false) : leaves down trail path value = [⟨trail, path, value⟩] := by
  cases value <;> simp_all [leaves, isContainer]

/-- The leaf may stay: no key that encloses it is dropped, nor is it itself. -/
structure Admitted (enters : π → Bool) (keeps : π → Json φ → Bool) (leaf : Leaf π φ) : Prop where
  entered : ∀ path ∈ leaf.trail, enters path = true
  keeps : keeps leaf.path leaf.value = true
  scalar : isContainer leaf.value = false

theorem admitted_scalar {trail : List π} {path : π} {value out : Json φ} {leaf : Leaf π φ}
    (entered : ∀ path ∈ trail, enters path = true) (scalar : isContainer value = false)
    (left : kept down enters keeps path value = some out)
    (member : leaf ∈ leaves down trail path out) : Admitted enters keeps leaf := by
  obtain ⟨passes, rfl⟩ := (kept_scalar scalar).mp left
  rw [leaves_scalar scalar, List.mem_singleton] at member
  subst member
  exact ⟨entered, passes, scalar⟩

mutual
theorem admitted_of_kept {trail : List π} {path : π} {out : Json φ} {leaf : Leaf π φ}
    (entered : ∀ path ∈ trail, enters path = true) : (value : Json φ) →
    kept down enters keeps path value = some out → leaf ∈ leaves down trail path out →
    Admitted enters keeps leaf
  | .object fields, left, member => by
    obtain ⟨-, rfl⟩ := kept_object.mp left
    rw [leaves] at member
    exact admitted_of_keptFields entered fields member
  | .array items, left, member => by
    obtain ⟨-, rfl⟩ := kept_array.mp left
    rw [leaves] at member
    exact admitted_of_keptItems entered items member
  | .null, left, member => admitted_scalar entered rfl left member
  | .bool _, left, member => admitted_scalar entered rfl left member
  | .int _, left, member => admitted_scalar entered rfl left member
  | .float _, left, member => admitted_scalar entered rfl left member
  | .string _, left, member => admitted_scalar entered rfl left member

theorem admitted_of_keptFields {trail : List π} {path : π} {leaf : Leaf π φ}
    (entered : ∀ path ∈ trail, enters path = true) : (fields : List (String × Json φ)) →
    leaf ∈ leavesFields down trail path (keptFields down enters keeps path fields) →
    Admitted enters keeps leaf
  | [], member => by simp [keptFields, leavesFields] at member
  | (key, value) :: rest, member => by
    rw [keptFields] at member
    by_cases enter : enters (down path key) = true
    · cases left : kept down enters keeps (down path key) value with
      | none =>
        simp only [enter, left, if_true, Option.map_none, Option.toList_none, List.nil_append]
          at member
        exact admitted_of_keptFields entered rest member
      | some child =>
        simp only [enter, left, if_true, Option.map_some, Option.toList_some, List.cons_append,
          List.nil_append, leavesFields, List.mem_append] at member
        rcases member with inside | later
        · have deeper : ∀ other ∈ down path key :: trail, enters other = true :=
            List.forall_mem_cons.mpr ⟨enter, entered⟩
          exact admitted_of_kept deeper value left inside
        · exact admitted_of_keptFields entered rest later
    · simp only [enter, if_false, Option.map_none, Option.toList_none, List.nil_append,
        Bool.false_eq_true] at member
      exact admitted_of_keptFields entered rest member

theorem admitted_of_keptItems {trail : List π} {path : π} {leaf : Leaf π φ}
    (entered : ∀ path ∈ trail, enters path = true) : (items : List (Json φ)) →
    leaf ∈ leavesItems down trail path (keptItems down enters keeps path items) →
    Admitted enters keeps leaf
  | [], member => by simp [keptItems, leavesItems] at member
  | item :: rest, member => by
    rw [keptItems] at member
    cases left : kept down enters keeps path item with
    | none =>
      simp only [left, Option.toList_none, List.nil_append] at member
      exact admitted_of_keptItems entered rest member
    | some child =>
      simp only [left, Option.toList_some, List.cons_append, List.nil_append, leavesItems,
        List.mem_append] at member
      rcases member with inside | later
      · exact admitted_of_kept entered item left inside
      · exact admitted_of_keptItems entered rest later
end

mutual
/-- What is left of what is left is all of it. -/
theorem kept_of_kept {path : π} {out : Json φ} : (value : Json φ) →
    kept down enters keeps path value = some out → kept down enters keeps path out = some out
  | .object fields, left => by
    obtain ⟨some_, rfl⟩ := kept_object.mp left
    rw [kept_object, keptFields_keptFields path fields]
    exact ⟨some_, rfl⟩
  | .array items, left => by
    obtain ⟨some_, rfl⟩ := kept_array.mp left
    rw [kept_array, keptItems_keptItems path items]
    exact ⟨some_, rfl⟩
  | .null, left => by rwa [((kept_scalar rfl).mp left).2] at left
  | .bool _, left => by rwa [((kept_scalar rfl).mp left).2] at left
  | .int _, left => by rwa [((kept_scalar rfl).mp left).2] at left
  | .float _, left => by rwa [((kept_scalar rfl).mp left).2] at left
  | .string _, left => by rwa [((kept_scalar rfl).mp left).2] at left

theorem keptFields_keptFields (path : π) : (fields : List (String × Json φ)) →
    keptFields down enters keeps path (keptFields down enters keeps path fields) =
      keptFields down enters keeps path fields
  | [] => by simp [keptFields]
  | (key, value) :: rest => by
    have again := keptFields_keptFields path rest
    by_cases enter : enters (down path key) = true
    · cases left : kept down enters keeps (down path key) value with
      | none => simpa [keptFields, enter, left] using again
      | some child =>
        simpa [keptFields, enter, left, kept_of_kept value left] using again
    · simpa [keptFields, enter] using again

theorem keptItems_keptItems (path : π) : (items : List (Json φ)) →
    keptItems down enters keeps path (keptItems down enters keeps path items) =
      keptItems down enters keeps path items
  | [] => by simp [keptItems]
  | item :: rest => by
    have again := keptItems_keptItems path rest
    cases left : kept down enters keeps path item with
    | none => simpa [keptItems, left] using again
    | some child => simpa [keptItems, left, kept_of_kept item left] using again
end

/-! Of a scalar that cannot be seen nothing stays, whatever it is, so what is left of a document is
a function of what can be seen of it. -/

/-- Whatever is kept under keys that are entered can be seen. -/
def Shows (enters : π → Bool) (keeps : π → Json φ → Bool) (sees : List π → π → Bool) : Prop :=
  ∀ trail path, (∀ other ∈ trail, enters other = true) → sees trail path = false →
    ∀ value, keeps path value = false

variable {sees : List π → π → Bool}

theorem kept_mask_scalar (shows_ : Shows enters keeps sees) {trail : List π} {path : π}
    {value : Json φ} (entered : ∀ other ∈ trail, enters other = true) (scalar : isContainer value = false) :
    kept down enters keeps path (mask down sees trail path value) =
      kept down enters keeps path value := by
  have masked : mask down sees trail path value = if sees trail path then value else .null := by
    cases value <;> simp_all [mask, isContainer]
  rw [masked]
  cases seen : sees trail path with
  | true => rfl
  | false =>
    have drops := shows_ trail path entered seen
    have nothing (other : Json φ) (plain : isContainer other = false) :
        kept down enters keeps path other = none := by
      apply Option.eq_none_iff_forall_ne_some.mpr
      intro out left
      simpa [drops other] using ((kept_scalar plain).mp left).1
    rw [nothing value scalar]
    exact nothing .null rfl

mutual
theorem kept_mask (shows_ : Shows enters keeps sees) {trail : List π} {path : π}
    (entered : ∀ other ∈ trail, enters other = true) : (value : Json φ) →
    kept down enters keeps path (mask down sees trail path value) =
      kept down enters keeps path value
  | .object fields => by rw [mask, kept, kept, keptFields_mask shows_ entered fields]
  | .array items => by rw [mask, kept, kept, keptItems_mask shows_ entered items]
  | .null => kept_mask_scalar shows_ entered rfl
  | .bool _ => kept_mask_scalar shows_ entered rfl
  | .int _ => kept_mask_scalar shows_ entered rfl
  | .float _ => kept_mask_scalar shows_ entered rfl
  | .string _ => kept_mask_scalar shows_ entered rfl

theorem keptFields_mask (shows_ : Shows enters keeps sees) {trail : List π} {path : π}
    (entered : ∀ other ∈ trail, enters other = true) : (fields : List (String × Json φ)) →
    keptFields down enters keeps path (maskFields down sees trail path fields) =
      keptFields down enters keeps path fields
  | [] => by rw [maskFields]
  | (key, value) :: rest => by
    rw [maskFields, keptFields, keptFields, keptFields_mask shows_ entered rest]
    cases enter : enters (down path key) with
    | false => rfl
    | true =>
      have deeper : ∀ other ∈ down path key :: trail, enters other = true :=
        List.forall_mem_cons.mpr ⟨enter, entered⟩
      simp only [kept_mask shows_ deeper value]

theorem keptItems_mask (shows_ : Shows enters keeps sees) {trail : List π} {path : π}
    (entered : ∀ other ∈ trail, enters other = true) : (items : List (Json φ)) →
    keptItems down enters keeps path (maskItems down sees trail path items) =
      keptItems down enters keeps path items
  | [] => by rw [maskItems]
  | item :: rest => by
    rw [maskItems, keptItems, keptItems, kept_mask shows_ entered item,
      keptItems_mask shows_ entered rest]
end

end Kept

end AgreementIntelligence.Lib.Json
