import AgreementIntelligence.Search.Filters

/-! When the filters of a search mean what they say. The bounds lose their offset on the way to the
database, and the text of the parties holds keys, roles and escapes besides the names. No text of a
party is safe: the digits around a name can be cut so that the text moves into a role. -/

namespace AgreementIntelligence.Search
open Identity Lib Lib.Casing Lib.Like

/-! The text that the party filter reads -/

/-- A text as it stands in the lowered column. -/
def spelling (text : List Char) : List Char :=
  (text.flatMap Json.escapeChar).map Char.toLower

@[simp] theorem spelling_nil : spelling [] = [] := rfl

theorem spelling_append (left right : List Char) :
    spelling (left ++ right) = spelling left ++ spelling right := by
  simp [spelling]

theorem escapeChar_of_isDigit {c : Char} (digit : c.isDigit) : Json.escapeChar c = [c] := by
  simp only [Char.isDigit, Bool.and_eq_true, decide_eq_true_eq] at digit
  have low : 48 ≤ c.toNat := digit.1
  have high : c.toNat ≤ 57 := digit.2
  have other (d : Char) (apart : d.toNat < 48 ∨ 57 < d.toNat) : c ≠ d := by
    rintro rfl
    omega
  rw [Json.escapeChar, if_neg (other _ (by decide)), if_neg (other _ (by decide)),
    if_neg (other _ (by decide)), if_neg (other _ (by decide)), if_neg (other _ (by decide)),
    if_neg (by omega), if_neg (by omega), if_pos (by omega)]

theorem spelling_digits {text : List Char} (digits : ∀ c ∈ text, c.isDigit) :
    spelling text = text := by
  have plain : text.flatMap Json.escapeChar = text := by
    induction text with
    | nil => rfl
    | cons c rest ih =>
        rw [List.flatMap_cons, escapeChar_of_isDigit (digits c List.mem_cons_self),
          ih fun d later => digits d (List.mem_cons_of_mem c later)]
        rfl
  rw [spelling, plain, map_toLower_digits digits]

def opening : List Char := '\x7b' :: "\"name\"".toList ++ ": \"".toList

def toRole : List Char := '"' :: ", ".toList ++ "\"role\"".toList ++ ": \"".toList

def closing : List Char := ['"', '\x7d']

/-- What stands between the role of a party and the name of the next one. -/
def toNext : List Char := closing ++ ", ".toList ++ opening

theorem toList_quoteText (text : String) :
    (Json.quoteText text).toList = '"' :: text.toList.flatMap Json.escapeChar ++ ['"'] := by
  rw [Json.quoteText, String.toList_ofList]

theorem map_toLower_texts :
    (Json.quoteText "name").toList.map Char.toLower = "\"name\"".toList ∧
      (Json.quoteText "role").toList.map Char.toLower = "\"role\"".toList := by
  decide +kernel

theorem lowered_fieldText {key : String} {lowered : List Char} (value : String)
    (written : (Json.quoteText key).toList.map Char.toLower = lowered) :
    (fieldText key value).map Char.toLower =
      lowered ++ ": \"".toList ++ spelling value.toList ++ ['"'] := by
  have colon : ": ".toList.map Char.toLower = ": ".toList := by decide
  have quote : Char.toLower '"' = '"' := by decide
  rw [fieldText, List.map_append, List.map_append, colon, written, toList_quoteText,
    List.map_append, List.map_cons, List.map_cons, List.map_nil, quote, spelling]
  simp

theorem lowered_partyText (party : Party) : (partyText party).map Char.toLower =
    opening ++ spelling party.name.toList ++ toRole ++ spelling party.role.toList ++ closing := by
  have name := lowered_fieldText party.name map_toLower_texts.1
  have role := lowered_fieldText party.role map_toLower_texts.2
  have comma : ", ".toList.map Char.toLower = ", ".toList := by decide
  have ends : Char.toLower '\x7b' = '\x7b' ∧ Char.toLower '\x7d' = '\x7d' := by decide
  calc (partyText party).map Char.toLower
    _ = '\x7b' :: ((fieldText "name" party.name).map Char.toLower ++ ", ".toList ++
        (fieldText "role" party.role).map Char.toLower) ++ ['\x7d'] := by
      rw [partyText, List.intercalate_cons_cons, List.intercalate_singleton]
      simp only [List.map_cons, List.map_append, List.map_nil, comma, ends, List.append_assoc]
    _ = opening ++ spelling party.name.toList ++ toRole ++ spelling party.role.toList ++
        closing := by
      simp only [name, role, opening, toRole, closing, List.append_assoc, List.cons_append,
        List.nil_append]

theorem lowered_one (party : Party) : (partiesText [party]).map Char.toLower =
    '[' :: (opening ++ spelling party.name.toList ++ toRole ++ spelling party.role.toList ++
      closing) ++ [']'] := by
  have text : (partiesText [party]).map Char.toLower =
      '[' :: (partyText party).map Char.toLower ++ [']'] := by
    simp [partiesText, List.intercalate]
  rw [text, lowered_partyText]

theorem lowered_two (first second : Party) : (partiesText [first, second]).map Char.toLower =
    '[' :: (opening ++ spelling first.name.toList ++ toRole ++ spelling first.role.toList ++
      toNext ++ spelling second.name.toList ++ toRole ++ spelling second.role.toList ++
      closing) ++ [']'] := by
  have text : (partiesText [first, second]).map Char.toLower =
      '[' :: ((partyText first).map Char.toLower ++ ", ".toList ++
        (partyText second).map Char.toLower) ++ [']'] := by
    simp [partiesText, List.intercalate]
  rw [text, lowered_partyText, lowered_partyText, toNext]
  simp only [List.append_assoc]

/-! Moving a text out of a name -/

section Misread
variable (lowering : Lowering)

theorem partiesContain_iff {party : String} {parsed : List Token}
    (reads : tokens (containing (lowering.lower party.toList)) = some parsed)
    (parties : List Party) :
    partiesContain lowering party parties =
      matchesTokens parsed ((partiesText parties).map Char.toLower) := by
  rw [partiesContain, like, reads]
  rfl

/-- A name of digits around the text, and a role that is one more digit. -/
def wrapped (party : String) (digit : Char) (stretch : List Char) : List Party :=
  [⟨String.ofList (digit :: stretch ++ party.toList ++ (stretch ++ [digit])),
    String.ofList [digit]⟩]

/-- The same characters, with the text in the role of a party that is named by digits. -/
def cut (party : String) (digit : Char) (left right left' right' : List Char) : List Party :=
  [⟨String.ofList (digit :: left), String.ofList (right ++ party.toList ++ left')⟩,
    ⟨String.ofList (right' ++ [digit]), String.ofList [digit]⟩]

variable {party : String} {digit : Char}

/-- A pattern that is met by the name in a long stretch of digits is met by the role as well. -/
theorem exists_cut {stretch : List Char} {parsed : List Token}
    (digits : ∀ c ∈ stretch, c.isDigit) (long : parsed.length < stretch.length)
    (isDigit : digit.isDigit)
    (found : matchesTokens parsed
      ((partiesText (wrapped party digit stretch)).map Char.toLower) = true) :
    ∃ left right left' right', stretch = left ++ right ∧ stretch = left' ++ right' ∧
      matchesTokens parsed
        ((partiesText (cut party digit left right left' right')).map Char.toLower) = true := by
  have one : spelling [digit] = [digit] := spelling_digits (by simpa using isDigit)
  have whole : spelling stretch = stretch := spelling_digits digits
  have headed (text : List Char) : spelling (digit :: text) = digit :: spelling text := by
    rw [← List.singleton_append, spelling_append, one, List.singleton_append]
  have first : matchesTokens parsed (('[' :: opening ++ [digit]) ++ stretch ++
      (spelling party.toList ++ stretch ++ [digit] ++ toRole ++ [digit] ++ closing ++ [']'])) =
        true := by
    rw [wrapped, lowered_one] at found
    simpa [spelling_append, whole, headed] using found
  obtain ⟨left, right, split, roleCut⟩ := yields long first
  have second : matchesTokens parsed (('[' :: opening ++ [digit] ++ left ++ toRole ++ right ++
      spelling party.toList) ++ stretch ++ ([digit] ++ toRole ++ [digit] ++ closing ++ [']'])) =
        true := by
    simpa using roleCut toRole
  obtain ⟨left', right', split', nameCut⟩ := yields long second
  refine ⟨left, right, left', right', split, split', ?_⟩
  have parts {part : List Char} (within : part ⊆ stretch) : spelling part = part :=
    spelling_digits fun c member => digits c (within member)
  have leftPart : spelling left = left := parts (by simp [split])
  have rightPart : spelling right = right := parts (by simp [split])
  have leftPart' : spelling left' = left' := parts (by simp [split'])
  have rightPart' : spelling right' = right' := parts (by simp [split'])
  rw [cut, lowered_two]
  simpa [spelling_append, headed, leftPart, rightPart, leftPart', rightPart'] using
    nameCut toNext

theorem named_wrapped {stretch : List Char} (digits : ∀ c ∈ stretch, c.isDigit)
    (isDigit : digit.isDigit) : Named lowering party (wrapped party digit stretch) := by
  have before : ∀ c ∈ digit :: stretch, c.isDigit := by
    simpa [isDigit] using digits
  have after : ∀ c ∈ stretch ++ [digit], c.isDigit := by
    intro c member
    apply before
    simpa [or_comm] using member
  refine ⟨_, List.mem_singleton_self _, ?_⟩
  rw [String.toList_ofList, lowering.lower_between _ _ _ before after]
  exact List.infix_append ..

/-- A name of one digit repeated holds no text with another character. -/
theorem not_named_cut {left right left' right' : List Char} (isDigit : digit.isDigit)
    (same : ∀ c ∈ left ++ right', c = digit)
    (other : ∃ c ∈ lowering.lower party.toList, c ≠ digit) :
    ¬ Named lowering party (cut party digit left right left' right') := by
  have alone {name : List Char} (repeated : ∀ c ∈ name, c = digit) :
      ¬ lowering.lower party.toList <:+: lowering.lower name := by
    intro held
    obtain ⟨c, member, apart⟩ := other
    have digits : ∀ d ∈ name, d.isDigit := fun d member => by rw [repeated d member]; exact isDigit
    rw [lowering.lower_digits digits] at held
    exact apart (repeated c (held.subset member))
  intro named
  obtain ⟨listed, member, held⟩ := named
  simp only [cut, List.mem_cons, List.not_mem_nil, or_false] at member
  rcases member with rfl | rfl
  · rw [String.toList_ofList] at held
    apply alone _ held
    intro c member
    rcases List.mem_cons.mp member with rfl | later
    · rfl
    · exact same c (List.mem_append_left _ later)
  · rw [String.toList_ofList] at held
    apply alone _ held
    intro c member
    rcases List.mem_append.mp member with early | last
    · exact same c (List.mem_append_right _ early)
    · exact List.mem_singleton.mp last

/-- No text of a party is read right in every list of parties. -/
theorem exists_misread (party : String) :
    ∃ parties, ¬ (partiesContain lowering party parties = true ↔ Named lowering party parties) := by
  cases lowered : lowering.lower party.toList with
  | nil =>
      -- an empty text is met by the brackets of a list without parties
      refine ⟨[], fun agrees => ?_⟩
      have met : partiesContain lowering party [] = true := by
        rw [partiesContain, lowered]
        exact like_containing_nil _
      obtain ⟨listed, member, _⟩ := agrees.mp met
      exact absurd member List.not_mem_nil
  | cons c rest =>
      obtain ⟨parsed, reads⟩ :=
        Option.isSome_iff_exists.mp (isSome_tokens_containing (lowering.lower party.toList))
      obtain ⟨digit, isDigit, apart⟩ : ∃ digit : Char, digit.isDigit ∧ c ≠ digit := by
        by_cases zero : c = '0'
        · exact ⟨'1', by decide, by rw [zero]; decide⟩
        · exact ⟨'0', by decide, zero⟩
      let stretch := List.replicate (parsed.length + 1) digit
      have same : ∀ d ∈ stretch, d = digit := fun d member => (List.mem_replicate.mp member).2
      have digits : ∀ d ∈ stretch, d.isDigit := fun d member => by rw [same d member]; exact isDigit
      have long : parsed.length < stretch.length := by simp [stretch]
      by_contra every
      simp only [not_exists, not_not] at every
      have wrappedFound := (every (wrapped party digit stretch)).mpr
        (named_wrapped lowering digits isDigit)
      rw [partiesContain_iff lowering reads] at wrappedFound
      obtain ⟨left, right, left', right', split, split', cutFound⟩ :=
        exists_cut digits long isDigit wrappedFound
      rw [← partiesContain_iff lowering reads] at cutFound
      have named := (every _).mp cutFound
      refine not_named_cut lowering isDigit (fun d member => same d ?_) ?_ named
      · rcases List.mem_append.mp member with early | late
        · rw [split]
          exact List.mem_append_left _ early
        · rw [split']
          exact List.mem_append_right _ late
      · exact ⟨c, by rw [lowered]; exact List.mem_cons_self, apart⟩

end Misread

/-! Rows that the other filters select -/

section Filters
variable (lowering : Lowering) (filters : SearchFilters)

/-- A row that the filters compared for equality let through. -/
def selectedRow (id : Uuid) (updatedAt : ℤ) (parties : List Party) : SearchRow where
  agreement :=
    { id := id
      agreementType := filters.agreementType.getD ""
      status := filters.status.getD ""
      parties := parties
      updatedAt := updatedAt }
  sourceChecksum := filters.sourceVersion.getD ""

theorem selected_selectedRow {id : Uuid} (listed : ∀ ids ∈ filters.agreementIds, id ∈ ids)
    (updatedAt : ℤ) (parties : List Party) :
    Selected filters (selectedRow filters id updatedAt parties) where
  agreementType agreementType given := by simp [selectedRow, Option.mem_def.mp given]
  status status given := by simp [selectedRow, Option.mem_def.mp given]
  sourceVersion version given := by simp [selectedRow, Option.mem_def.mp given]
  agreementIds ids given := listed ids given

/-- What is left of the meaning once the filters compared for equality are met. -/
def BoundsAgree : Prop :=
  ∀ (updatedAt : ℤ) (parties : List Party),
    (Within (filters.updatedAfter.map (·.wall)) (filters.updatedBefore.map (·.wall)) updatedAt ∧
        ∀ party ∈ filters.party, partiesContain lowering party parties = true) ↔
      Within (filters.updatedAfter.map (·.instant)) (filters.updatedBefore.map (·.instant))
          updatedAt ∧
        ∀ party ∈ filters.party, Named lowering party parties

theorem meansWhatItSays_iff_boundsAgree :
    MeansWhatItSays lowering filters ↔
      filters.agreementIds = some [] ∨ BoundsAgree lowering filters := by
  constructor
  · intro means
    by_cases nothing : filters.agreementIds = some []
    · exact Or.inl nothing
    right
    obtain ⟨id, listed⟩ : ∃ id, ∀ ids ∈ filters.agreementIds, id ∈ ids := by
      cases given : filters.agreementIds with
      | none => exact ⟨Uuid.ofNat 0, by simp⟩
      | some ids =>
          cases ids with
          | nil => exact absurd given nothing
          | cons id rest => exact ⟨id, by simp⟩
    intro updatedAt parties
    have selected := selected_selectedRow filters listed updatedAt parties
    have row := means [selectedRow filters id updatedAt parties]
      (selectedRow filters id updatedAt parties)
    rw [mem_applyFilters] at row
    constructor
    · intro kept
      have meant := (row.mp ⟨List.mem_singleton_self _, selected, kept⟩).2
      exact ⟨meant.within, meant.named⟩
    · intro meant
      exact (row.mpr ⟨List.mem_singleton_self _, selected, meant.1, meant.2⟩).2.2
  · intro agrees rows row
    rw [mem_applyFilters]
    apply and_congr_right
    intro _
    constructor
    · intro kept
      obtain ⟨selected, bounds⟩ := kept
      rcases agrees with nothing | agrees
      · exact absurd (selected.agreementIds [] nothing) List.not_mem_nil
      · have meant := (agrees _ _).mp bounds
        exact ⟨selected, meant.1, meant.2⟩
    · intro meant
      rcases agrees with nothing | agrees
      · exact absurd (meant.selected.agreementIds [] nothing) List.not_mem_nil
      · exact ⟨meant.selected, (agrees _ _).mpr ⟨meant.within, meant.named⟩⟩

/-! The exact condition -/

def Void (after before : Option ℤ) : Prop :=
  ∀ instant, ¬ Within after before instant

theorem within_after {after before : Option ℤ} {instant bound : ℤ}
    (inside : Within after before instant) (given : bound ∈ after) :
    Within after before bound := by
  constructor
  · intro other also
    exact (Option.mem_unique also given).le
  · intro last stated
    exact (inside.1 bound given).trans (inside.2 last stated)

theorem within_before {after before : Option ℤ} {instant bound : ℤ}
    (inside : Within after before instant) (given : bound ∈ before) :
    Within after before bound := by
  constructor
  · intro first stated
    exact (inside.1 first stated).trans (inside.2 bound given)
  · intro other also
    exact (Option.mem_unique given also).le

/-- Spans that hold the same instants have the same bounds unless they hold none. -/
theorem bounds_eq_of_within_iff {after before after' before' : Option ℤ}
    (same : ∀ instant, Within after before instant ↔ Within after' before' instant)
    (held : ¬ Void after before) :
    (∀ bound ∈ after, ∀ bound' ∈ after', bound = bound') ∧
      ∀ bound ∈ before, ∀ bound' ∈ before', bound = bound' := by
  simp only [Void, not_forall, not_not] at held
  obtain ⟨instant, inside⟩ := held
  have inside' := (same instant).mp inside
  constructor
  · intro bound given bound' given'
    have first := (same bound).mp (within_after inside given)
    have first' := (same bound').mpr (within_after inside' given')
    exact le_antisymm (first'.1 bound given) (first.1 bound' given')
  · intro bound given bound' given'
    have last := (same bound).mp (within_before inside given)
    have last' := (same bound').mpr (within_before inside' given')
    exact le_antisymm (last.2 bound' given') (last'.2 bound given)

/-- No bound is written ahead of UTC or behind it. -/
def InUtc : Prop :=
  ∀ bound, bound ∈ filters.updatedAfter ∨ bound ∈ filters.updatedBefore →
    bound.offset.getD 0 = 0

/-- No text of a JSON column is met by the pattern of the party. -/
def Unmatchable (party : String) : Prop :=
  ∀ parties, partiesContain lowering party parties = false

theorem wall_eq_instant (value : DateTime) :
    value.wall = value.instant ↔ value.offset.getD 0 = 0 := by
  rw [DateTime.instant]
  omega

theorem inUtc_of_within_iff
    (same : ∀ updatedAt,
      Within (filters.updatedAfter.map (·.wall)) (filters.updatedBefore.map (·.wall)) updatedAt ↔
        Within (filters.updatedAfter.map (·.instant)) (filters.updatedBefore.map (·.instant))
          updatedAt)
    (held : ¬ Void (filters.updatedAfter.map (·.instant))
      (filters.updatedBefore.map (·.instant))) : InUtc filters := by
  have bounds := bounds_eq_of_within_iff (fun updatedAt => (same updatedAt).symm) held
  intro bound given
  rw [← wall_eq_instant]
  rcases given with after | before
  · exact (bounds.1 _ (Option.mem_map_of_mem _ after) _ (Option.mem_map_of_mem _ after)).symm
  · exact (bounds.2 _ (Option.mem_map_of_mem _ before) _ (Option.mem_map_of_mem _ before)).symm

theorem within_iff_of_inUtc (utc : InUtc filters) (updatedAt : ℤ) :
    Within (filters.updatedAfter.map (·.wall)) (filters.updatedBefore.map (·.wall)) updatedAt ↔
      Within (filters.updatedAfter.map (·.instant)) (filters.updatedBefore.map (·.instant))
        updatedAt := by
  have after : filters.updatedAfter.map (·.wall) = filters.updatedAfter.map (·.instant) :=
    Option.map_congr fun bound given => (wall_eq_instant bound).mpr (utc bound (Or.inl given))
  have before : filters.updatedBefore.map (·.wall) = filters.updatedBefore.map (·.instant) :=
    Option.map_congr fun bound given => (wall_eq_instant bound).mpr (utc bound (Or.inr given))
  rw [after, before]

theorem named_self (party : String) : Named lowering party [⟨party, party⟩] :=
  ⟨_, List.mem_singleton_self _, List.infix_refl _⟩

/-- Filters whose bounds leave an instant mean what they say when nothing is asked of the parties
and the bounds are in UTC. -/
theorem boundsAgree_iff_of_held
    (held : ¬ Void (filters.updatedAfter.map (·.instant))
      (filters.updatedBefore.map (·.instant))) :
    BoundsAgree lowering filters ↔ filters.party = none ∧ InUtc filters := by
  constructor
  · intro agrees
    cases asked : filters.party with
    | none =>
        simp only [BoundsAgree, asked, Option.mem_def, reduceCtorEq, false_imp_iff, implies_true,
          and_true] at agrees
        exact ⟨rfl, inUtc_of_within_iff filters (fun updatedAt => agrees updatedAt []) held⟩
    | some party =>
        simp only [BoundsAgree, asked, Option.mem_def, Option.some.injEq, forall_eq'] at agrees
        have inside := held
        simp only [Void, not_forall, not_not] at inside
        obtain ⟨updatedAt, inside⟩ := inside
        obtain ⟨parties, misread⟩ := exists_misread lowering party
        have shown := ((agrees updatedAt _).mpr ⟨inside, named_self lowering party⟩).1
        have here := agrees updatedAt parties
        simp only [inside, shown, true_and] at here
        exact absurd here misread
  · intro plain
    obtain ⟨asked, utc⟩ := plain
    intro updatedAt parties
    simp only [asked, Option.mem_def, reduceCtorEq, false_imp_iff, implies_true, and_true]
    exact within_iff_of_inUtc filters utc updatedAt

/-- Filters whose bounds leave no instant mean nothing, and nothing is what they have to keep. -/
theorem boundsAgree_iff_of_void
    (empty : Void (filters.updatedAfter.map (·.instant)) (filters.updatedBefore.map (·.instant))) :
    BoundsAgree lowering filters ↔
      Void (filters.updatedAfter.map (·.wall)) (filters.updatedBefore.map (·.wall)) ∨
        ∃ party ∈ filters.party, Unmatchable lowering party := by
  have nothing (updatedAt : ℤ) := empty updatedAt
  simp only [BoundsAgree, nothing, false_and, iff_false, not_and]
  constructor
  · intro agrees
    by_cases walls : Void (filters.updatedAfter.map (·.wall)) (filters.updatedBefore.map (·.wall))
    · exact Or.inl walls
    right
    simp only [Void, not_forall, not_not] at walls
    obtain ⟨updatedAt, inside⟩ := walls
    have never (parties : List Party) := agrees updatedAt parties inside
    cases asked : filters.party with
    | none => simp [asked] at never
    | some party =>
        simp only [asked, Option.mem_def, Option.some.injEq, forall_eq', Bool.not_eq_true] at never
        exact ⟨party, rfl, never⟩
  · intro either updatedAt parties inside every
    rcases either with walls | unmatched
    · exact walls updatedAt inside
    · obtain ⟨party, asked, never⟩ := unmatched
      have found := every party asked
      rw [never parties] at found
      exact absurd found (by decide)

/-- Filters mean what they say only when they ask for no party and write no bound at an offset, or
when nothing can meet them anyway. -/
theorem meansWhatItSays_iff :
    MeansWhatItSays lowering filters ↔
      filters.agreementIds = some [] ∨ (filters.party = none ∧ InUtc filters) ∨
        (Void (filters.updatedAfter.map (·.instant)) (filters.updatedBefore.map (·.instant)) ∧
          (Void (filters.updatedAfter.map (·.wall)) (filters.updatedBefore.map (·.wall)) ∨
            ∃ party ∈ filters.party, Unmatchable lowering party)) := by
  rw [meansWhatItSays_iff_boundsAgree]
  apply or_congr_right
  by_cases empty :
      Void (filters.updatedAfter.map (·.instant)) (filters.updatedBefore.map (·.instant))
  · rw [boundsAgree_iff_of_void lowering filters empty]
    simp only [empty, true_and]
    constructor
    · exact Or.inr
    · intro either
      rcases either with plain | never
      · left
        intro updatedAt inside
        exact empty updatedAt ((within_iff_of_inUtc filters plain.2 updatedAt).mp inside)
      · exact never
  · rw [boundsAgree_iff_of_held lowering filters empty]
    simp only [empty, false_and, or_false]

end Filters

/-! Two filters that miss -/

def noFilters : SearchFilters where
  agreementType := none
  party := none
  status := none
  updatedAfter := none
  updatedBefore := none
  sourceVersion := none
  agreementIds := none

/-- Noon at two hours ahead of UTC, counted from a midnight in UTC. -/
def sinceNoon : SearchFilters :=
  { noFilters with updatedAfter := some ⟨12 * 3600000000, some (2 * 3600000000)⟩ }

def customers : SearchFilters :=
  { noFilters with party := some "customer" }

/-- An agreement of the customer Acme, touched at eleven in UTC. -/
def acme : SearchRow :=
  selectedRow noFilters (Uuid.ofNat 1) (11 * 3600000000) [⟨"Acme", "customer"⟩]

/-- The first filter drops what came after its bound, the second one keeps what names no customer. -/
theorem not_meansWhatItSays :
    ¬ MeansWhatItSays .ascii sinceNoon ∧ ¬ MeansWhatItSays .ascii customers := by
  constructor
  · intro means
    have meant : Meant .ascii sinceNoon acme :=
      { selected := selected_selectedRow sinceNoon nofun (11 * 3600000000) [⟨"Acme", "customer"⟩]
        within := ⟨by decide, by decide⟩
        named := by simp [sinceNoon, noFilters] }
    have kept := (means [acme] acme).mpr ⟨List.mem_singleton_self _, meant⟩
    exact absurd kept (by decide +kernel)
  · intro means
    have kept : acme ∈ applyFilters .ascii customers [acme] := by decide +kernel
    have named := ((means [acme] acme).mp kept).2.named "customer" rfl
    have unnamed : ¬ ∃ listed ∈ acme.agreement.parties,
        Lowering.ascii.lower "customer".toList <:+: Lowering.ascii.lower listed.name.toList := by
      decide +kernel
    exact unnamed named

end AgreementIntelligence.Search
