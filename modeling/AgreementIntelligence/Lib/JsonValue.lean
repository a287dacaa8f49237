import AgreementIntelligence.Lib.JsonText

/-! JSON documents up to the order of the items of their objects, which is all that a database
keeps of them. Such documents have the same canonical text and the same values at every key. -/

namespace AgreementIntelligence.Lib.Json

variable {φ : Type}

/-- The same value: the same document but for the order of the items of its objects. -/
inductive Same : Json φ → Json φ → Prop
  | refl (value : Json φ) : Same value value
  | trans {a b c : Json φ} : Same a b → Same b c → Same a c
  | item {a b : Json φ} (before after : List (Json φ)) : Same a b →
      Same (.array (before ++ a :: after)) (.array (before ++ b :: after))
  | field {a b : Json φ} (key : String) (before after : List (String × Json φ)) : Same a b →
      Same (.object (before ++ (key, a) :: after)) (.object (before ++ (key, b) :: after))
  | order {fields other : List (String × Json φ)} : (fields.map Prod.fst).Nodup →
      fields.Perm other → Same (.object fields) (.object other)

/-! Values at keys -/

/-- Nothing on both sides, or the same value. -/
abbrev SameAt (one other : Option (Json φ)) : Prop := Option.Rel Same one other

theorem SameAt.refl (value : Option (Json φ)) : SameAt value value := by
  cases value with
  | none => exact .none
  | some value => exact .some (.refl value)

theorem SameAt.trans {one other last : Option (Json φ)} (first : SameAt one other)
    (second : SameAt other last) : SameAt one last := by
  cases first with
  | none => exact second
  | some same => cases second with
    | some again => exact .some (same.trans again)

theorem lookup_field {a b : Json φ} (same : Same a b) (key : String)
    (before after : List (String × Json φ)) (wanted : String) :
    SameAt ((before ++ (key, a) :: after).lookup wanted)
      ((before ++ (key, b) :: after).lookup wanted) := by
  induction before with
  | nil =>
      rw [List.nil_append, List.nil_append, List.lookup_cons, List.lookup_cons]
      split
      · exact .some same
      · exact .refl _
  | cons first rest ih =>
      obtain ⟨name, value⟩ := first
      rw [List.cons_append, List.cons_append, List.lookup_cons, List.lookup_cons]
      split
      · exact .refl _
      · exact ih

theorem lookup_eq_some_iff {fields : List (String × Json φ)}
    (distinct : (fields.map Prod.fst).Nodup) {key : String} {value : Json φ} :
    fields.lookup key = some value ↔ (key, value) ∈ fields := by
  induction fields with
  | nil => simp
  | cons first rest ih =>
      obtain ⟨name, held⟩ := first
      rw [List.map_cons, List.nodup_cons] at distinct
      rw [List.lookup_cons, List.mem_cons, Prod.mk.injEq]
      by_cases here : key = name
      · subst here
        have absent : (key, value) ∉ rest := fun member =>
          distinct.1 (List.mem_map.mpr ⟨(key, value), member, rfl⟩)
        simp [absent, eq_comm]
      · have differ : (key == name) = false := beq_false_of_ne here
        simp [differ, here, ih distinct.2]

theorem lookup_order {fields other : List (String × Json φ)}
    (distinct : (fields.map Prod.fst).Nodup) (perm : fields.Perm other) (key : String) :
    fields.lookup key = other.lookup key := by
  have distinct' : (other.map Prod.fst).Nodup := (perm.map Prod.fst).nodup_iff.mp distinct
  ext value
  rw [lookup_eq_some_iff distinct, lookup_eq_some_iff distinct', perm.mem_iff]

theorem Same.of_object {a b : Json φ} (same : Same a b) :
    ∀ {fields : List (String × Json φ)}, a = .object fields → ∃ other, b = .object other ∧
      ∀ key, SameAt (fields.lookup key) (other.lookup key) := by
  induction same with
  | refl value => exact fun same => ⟨_, same, fun key => .refl _⟩
  | trans _ _ first second =>
      intro fields object
      obtain ⟨middle, object', one⟩ := first object
      obtain ⟨other, object'', two⟩ := second object'
      exact ⟨other, object'', fun key => (one key).trans (two key)⟩
  | item before after _ _ => exact nofun
  | field key before after same _ =>
      intro fields object
      cases object
      exact ⟨_, rfl, lookup_field same key before after⟩
  | order distinct perm =>
      intro fields object
      cases object
      refine ⟨_, rfl, fun key => ?_⟩
      rw [lookup_order distinct perm key]
      exact .refl _

theorem Same.of_string {a b : Json φ} (same : Same a b) :
    ∀ {text : String}, a = .string text → b = .string text := by
  induction same with
  | refl value => exact id
  | trans _ _ first second => exact fun string => second (first string)
  | item before after _ _ => exact nofun
  | field key before after _ _ => exact nofun
  | order distinct perm => exact nofun

section Fields

variable {fields other : List (String × Json φ)}

/-- Two objects with the same values at every key. -/
def SameFields (fields other : List (String × Json φ)) : Prop :=
  ∀ key, SameAt (fields.lookup key) (other.lookup key)

theorem Same.object (same : Same (.object fields) (.object other)) : SameFields fields other := by
  obtain ⟨found, object, at_keys⟩ := same.of_object rfl
  cases object
  exact at_keys

theorem SameFields.lookup_string (same : SameFields fields other) {key text : String}
    (held : fields.lookup key = some (.string text)) : other.lookup key = some (.string text) := by
  have there := same key
  rw [held] at there
  cases found : other.lookup key with
  | none => rw [found] at there; cases there
  | some value =>
      rw [found] at there
      cases there with
      | some string => rw [string.of_string rfl]

theorem SameFields.lookup_object (same : SameFields fields other) (key : String)
    (inner : List (String × Json φ)) (held : fields.lookup key = some (.object inner)) :
    ∃ inner', other.lookup key = some (.object inner') ∧
      Same (.object inner) (.object inner') := by
  have there := same key
  rw [held] at there
  cases found : other.lookup key with
  | none => rw [found] at there; cases there
  | some value =>
      rw [found] at there
      cases there with
      | some object =>
          obtain ⟨inner', same', -⟩ := object.of_object rfl
          exact ⟨inner', congrArg some same', same' ▸ object⟩

theorem SameFields.lookup_none (same : SameFields fields other) {key : String}
    (absent : fields.lookup key = none) : other.lookup key = none := by
  have there := same key
  rw [absent] at there
  cases found : other.lookup key with
  | none => rfl
  | some value => rw [found] at there; cases there

end Fields

/-! The canonical text -/

section Text

variable (floatText : φ → String)

theorem dumpsItems_append (before after : List (Json φ)) :
    dumpsItems floatText (before ++ after) =
      dumpsItems floatText before ++ dumpsItems floatText after := by
  induction before with
  | nil => simp [dumpsItems]
  | cons first rest ih => simp [dumpsItems, ih]

theorem dumpsFields_eq_map (fields : List (String × Json φ)) :
    dumpsFields floatText fields = fields.map fun field => (field.1, dumps floatText field.2) := by
  induction fields with
  | nil => simp [dumpsFields]
  | cons first rest ih => simp [dumpsFields, ih]

/-- Items with distinct keys are sorted in one way only. -/
theorem sortedFields_perm {fields other : List (String × String)}
    (distinct : (fields.map Prod.fst).Nodup) (perm : fields.Perm other) :
    sortedFields fields = sortedFields other := by
  have total : Std.Total fun a b : String × String => a.1.toList ≤ b.1.toList :=
    ⟨fun a b => le_total a.1.toList b.1.toList⟩
  have transitive : IsTrans (String × String) fun a b => a.1.toList ≤ b.1.toList :=
    ⟨fun _ _ _ => le_trans⟩
  have sorts (items : List (String × String)) : (sortedFields items).Perm items :=
    List.perm_insertionSort _ items
  refine List.Perm.eq_of_pairwise (fun a b first second below above => ?_)
    (List.pairwise_insertionSort _ fields) (List.pairwise_insertionSort _ other)
    (((sorts fields).trans perm).trans (sorts other).symm)
  have same : a.1 = b.1 := String.toList_injective (le_antisymm below above)
  exact List.inj_on_of_nodup_map distinct ((sorts fields).mem_iff.mp first)
    (perm.mem_iff.mpr ((sorts other).mem_iff.mp second)) same

theorem dumps_same {a b : Json φ} (same : Same a b) : dumps floatText a = dumps floatText b := by
  induction same with
  | refl value => rfl
  | trans _ _ first second => exact first.trans second
  | item before after _ ih => simp only [dumps, dumpsItems_append, dumpsItems, ih]
  | field key before after _ ih =>
      simp only [dumps, dumpsFields_eq_map, List.map_append, List.map_cons, ih]
  | order distinct perm =>
      have names : ∀ fields : List (String × Json φ),
          (fields.map fun field => (field.1, dumps floatText field.2)).map Prod.fst =
            fields.map Prod.fst := by
        intro fields
        rw [List.map_map]
        rfl
      simp only [dumps, dumpsFields_eq_map]
      rw [sortedFields_perm (names _ ▸ distinct) (perm.map _)]

end Text

end AgreementIntelligence.Lib.Json
