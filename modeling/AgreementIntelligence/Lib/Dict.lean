import Mathlib.Data.List.Nodup
import Mathlib.Tactic.Common

/-! Dictionaries as lists of items in the order of insertion, each key at most once. -/

namespace AgreementIntelligence.Lib.Dict

variable {κ α : Type*} [DecidableEq κ]

/-- `dict.get(key)` -/
def get? (dict : List (κ × α)) (key : κ) : Option α :=
  (dict.find? fun item => item.1 = key).map Prod.snd

/-- `dict[key] = value` -/
def set : List (κ × α) → κ → α → List (κ × α)
  | [], key, value => [(key, value)]
  | item :: rest, key, value =>
    if item.1 = key then (key, value) :: rest else item :: set rest key value

/-- `dict.pop(key, None)` -/
def pop (dict : List (κ × α)) (key : κ) : List (κ × α) :=
  dict.filter fun item => item.1 ≠ key

/-- `{key(item): item for item in items}` -/
def ofItems {ι : Type*} (key : ι → κ) (items : List ι) : List (κ × ι) :=
  items.foldl (fun dict item => set dict (key item) item) []

@[simp] theorem get?_nil (key : κ) : get? ([] : List (κ × α)) key = none := rfl

theorem get?_cons (item : κ × α) (rest : List (κ × α)) (key : κ) :
    get? (item :: rest) key = if item.1 = key then some item.2 else get? rest key := by
  by_cases here : item.1 = key <;> simp [get?, here]

theorem get?_set (dict : List (κ × α)) (key other : κ) (value : α) :
    get? (set dict key value) other = if key = other then some value else get? dict other := by
  induction dict with
  | nil => rw [set, get?_cons]
  | cons item rest ih =>
      by_cases here : item.1 = key
      · rw [set, if_pos here, get?_cons, get?_cons, here]
        by_cases same : key = other <;> simp [same]
      · rw [set, if_neg here, get?_cons, get?_cons, ih]
        by_cases found : item.1 = other
        · have apart : ¬ key = other := fun same => here (found.trans same.symm)
          rw [if_pos found, if_pos found, if_neg apart]
        · rw [if_neg found, if_neg found]

theorem get?_pop (dict : List (κ × α)) (key other : κ) :
    get? (pop dict key) other = if key = other then none else get? dict other := by
  induction dict with
  | nil => simp [pop]
  | cons item rest ih =>
      by_cases gone : item.1 = key
      · have dropped : pop (item :: rest) key = pop rest key := by simp [pop, gone]
        rw [dropped, ih, get?_cons, gone]
        by_cases same : key = other <;> simp [same]
      · have kept : pop (item :: rest) key = item :: pop rest key := by simp [pop, gone]
        rw [kept, get?_cons, get?_cons, ih]
        by_cases found : item.1 = other
        · have apart : ¬ key = other := fun same => gone (found.trans same.symm)
          rw [if_pos found, if_pos found, if_neg apart]
        · rw [if_neg found, if_neg found]

theorem get?_foldl_pop (dict : List (κ × α)) (keys : List κ) (key : κ) :
    get? (keys.foldl pop dict) key = if key ∈ keys then none else get? dict key := by
  induction keys generalizing dict with
  | nil => simp
  | cons first rest ih =>
      rw [List.foldl_cons, ih, get?_pop]
      by_cases later : key ∈ rest
      · simp [later]
      · by_cases here : first = key
        · simp [here]
        · simp [later, here, Ne.symm here]

theorem mem_of_get? {dict : List (κ × α)} {key : κ} {value : α}
    (found : get? dict key = some value) : (key, value) ∈ dict := by
  obtain ⟨item, here, rfl⟩ := Option.map_eq_some_iff.mp found
  have same : item.1 = key := by simpa using List.find?_some here
  rw [← same]
  exact List.mem_of_find?_eq_some here

theorem get?_isSome_of_mem {dict : List (κ × α)} {key : κ} {value : α}
    (member : (key, value) ∈ dict) : (get? dict key).isSome := by
  rw [get?, Option.isSome_map, List.find?_isSome]
  exact ⟨(key, value), member, by simp⟩

theorem mem_set {dict : List (κ × α)} {key : κ} {value : α} {entry : κ × α}
    (member : entry ∈ set dict key value) : entry = (key, value) ∨ entry ∈ dict := by
  induction dict with
  | nil => exact .inl (List.mem_singleton.mp member)
  | cons item rest ih =>
      rw [set] at member
      split at member
      · exact (List.mem_cons.mp member).imp_right (List.mem_cons_of_mem item)
      · rcases List.mem_cons.mp member with rfl | later
        · exact .inr List.mem_cons_self
        · exact (ih later).imp_right (List.mem_cons_of_mem item)

section OfItems
variable {ι : Type*} (key : ι → κ)

/-- The last item with a key stands under it. -/
theorem get?_ofItems (items : List ι) (k : κ) :
    get? (ofItems key items) k = items.reverse.find? fun item => key item = k := by
  suffices step : ∀ dict : List (κ × ι),
      get? (items.foldl (fun dict item => set dict (key item) item) dict) k =
        (items.reverse.find? fun item => key item = k).or (get? dict k) by
    rw [ofItems, step []]
    simp
  induction items with
  | nil => simp
  | cons item rest ih =>
      intro dict
      rw [List.foldl_cons, ih, get?_set, List.reverse_cons, List.find?_append, Option.or_assoc]
      by_cases here : key item = k <;> simp [here]

theorem mem_of_get?_ofItems {items : List ι} {k : κ} {item : ι}
    (found : get? (ofItems key items) k = some item) : item ∈ items ∧ key item = k := by
  rw [get?_ofItems] at found
  exact ⟨List.mem_reverse.mp (List.mem_of_find?_eq_some found), by simpa using List.find?_some found⟩

theorem mem_ofItems {items : List ι} {entry : κ × ι} (member : entry ∈ ofItems key items) :
    entry.2 ∈ items := by
  suffices step : ∀ dict : List (κ × ι),
      entry ∈ items.foldl (fun dict item => set dict (key item) item) dict →
        entry.2 ∈ items ∨ entry ∈ dict by
    exact (step [] member).resolve_right List.not_mem_nil
  clear member
  induction items with
  | nil => exact fun dict member => .inr member
  | cons item rest ih =>
      intro dict member
      rcases ih _ member with later | here
      · exact .inl (List.mem_cons_of_mem item later)
      · rcases mem_set here with rfl | old
        · exact .inl List.mem_cons_self
        · exact .inr old

theorem get?_ofItems_of_mem {items : List ι} (distinct : (items.map key).Nodup) {item : ι}
    (member : item ∈ items) : get? (ofItems key items) (key item) = some item := by
  have some_ : (get? (ofItems key items) (key item)).isSome := by
    rw [get?_ofItems, List.find?_isSome]
    exact ⟨item, List.mem_reverse.mpr member, by simp⟩
  obtain ⟨other, found⟩ := Option.isSome_iff_exists.mp some_
  obtain ⟨listed, same⟩ := mem_of_get?_ofItems key found
  rw [found, List.inj_on_of_nodup_map distinct listed member same]

end OfItems

/-! The keys of a dictionary -/

theorem mem_keys_set {dict : List (κ × α)} {key other : κ} {value : α} :
    other ∈ (set dict key value).map Prod.fst ↔ other = key ∨ other ∈ dict.map Prod.fst := by
  induction dict with
  | nil => simp [set]
  | cons item rest ih =>
      by_cases here : item.1 = key
      · simp [set, here]
      · rw [set, if_neg here, List.map_cons, List.mem_cons, ih, List.map_cons, List.mem_cons]
        tauto

theorem nodup_keys_set {dict : List (κ × α)} (distinct : (dict.map Prod.fst).Nodup) (key : κ)
    (value : α) : ((set dict key value).map Prod.fst).Nodup := by
  induction dict with
  | nil => simp [set]
  | cons item rest ih =>
      rw [List.map_cons, List.nodup_cons] at distinct
      by_cases here : item.1 = key
      · rw [set, if_pos here, List.map_cons, List.nodup_cons, ← here]
        exact distinct
      · rw [set, if_neg here, List.map_cons, List.nodup_cons, mem_keys_set]
        exact ⟨fun known => known.elim here distinct.1, ih distinct.2⟩

theorem nodup_keys_ofItems {ι : Type*} (key : ι → κ) (items : List ι) :
    ((ofItems key items).map Prod.fst).Nodup := by
  suffices step : ∀ dict : List (κ × ι), (dict.map Prod.fst).Nodup →
      ((items.foldl (fun dict item => set dict (key item) item) dict).map Prod.fst).Nodup by
    exact step [] List.nodup_nil
  induction items with
  | nil => exact fun _ distinct => distinct
  | cons item rest ih =>
      exact fun dict distinct => ih (set dict (key item) item) (nodup_keys_set distinct _ _)

/-- Where no key repeats, the items are what the dictionary returns for its keys. -/
theorem get?_eq_some_iff {dict : List (κ × α)} (distinct : (dict.map Prod.fst).Nodup) {key : κ}
    {value : α} : get? dict key = some value ↔ (key, value) ∈ dict := by
  refine ⟨mem_of_get?, fun member => ?_⟩
  obtain ⟨other, found⟩ := Option.isSome_iff_exists.mp (get?_isSome_of_mem member)
  have same := List.inj_on_of_nodup_map distinct (mem_of_get? found) member rfl
  rw [found, (Prod.mk.inj same).2]

section Update
variable {ι : Type*} (key : ι → κ) (value : Option α → ι → α)

/-- A pass over items, each stored under its key as a value made of the item and of what the
dictionary held there. -/
def update (dict : List (κ × α)) (items : List ι) : List (κ × α) :=
  items.foldl (fun dict item => set dict (key item) (value (get? dict (key item)) item)) dict

theorem nodup_keys_update {dict : List (κ × α)} (distinct : (dict.map Prod.fst).Nodup)
    (items : List ι) : ((update key value dict items).map Prod.fst).Nodup := by
  induction items generalizing dict with
  | nil => exact distinct
  | cons item rest ih => exact ih (nodup_keys_set distinct _ _)

/-- Items whose keys are distinct do not meet one another. -/
theorem get?_update {items : List ι} (distinct : (items.map key).Nodup) (dict : List (κ × α))
    (k : κ) : get? (update key value dict items) k =
      ((items.find? fun item => key item = k).map (value (get? dict k))).or (get? dict k) := by
  induction items generalizing dict with
  | nil => rfl
  | cons item rest ih =>
      rw [List.map_cons, List.nodup_cons] at distinct
      have step := ih distinct.2 (set dict (key item) (value (get? dict (key item)) item))
      by_cases here : key item = k
      · have later : (rest.find? fun item => key item = k) = none := by
          rw [List.find?_eq_none]
          intro other member same
          exact distinct.1 (List.mem_map.mpr ⟨other, member, by simpa [here] using same⟩)
        rw [update, List.foldl_cons, ← update, step, later, get?_set, if_pos here]
        simp [here]
      · rw [update, List.foldl_cons, ← update, step, get?_set, if_neg here]
        simp [here]

end Update

end AgreementIntelligence.Lib.Dict
