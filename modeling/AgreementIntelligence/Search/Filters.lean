import AgreementIntelligence.Identity
import AgreementIntelligence.Lib.Casing
import AgreementIntelligence.Lib.JsonText
import AgreementIntelligence.Lib.Like

/-! The filters of a search. Rows are those the tables can hold: a list of parties is a JSON
column, so names and roles are texts of any length. Instants count microseconds, and the database
session reads a time without an offset as UTC. -/

namespace AgreementIntelligence.Search
open Identity Lib Lib.Casing Lib.Like

structure DateTime where
  /-- what the clock on the wall shows -/
  wall : ℤ
  /-- how far the wall is ahead of UTC -/
  offset : Option ℤ
  deriving DecidableEq, Repr

/-- A time without an offset is read as UTC. -/
def DateTime.instant (value : DateTime) : ℤ :=
  value.wall - value.offset.getD 0

structure SearchFilters where
  agreementType : Option String
  party : Option String
  status : Option String
  updatedAfter : Option DateTime
  updatedBefore : Option DateTime
  sourceVersion : Option String
  agreementIds : Option (List Uuid)
  deriving DecidableEq, Repr

structure Party where
  name : String
  role : String
  deriving DecidableEq, Repr

structure AgreementRecord where
  id : Uuid
  agreementType : String
  status : String
  parties : List Party
  updatedAt : ℤ
  deriving DecidableEq, Repr

/-- A chunk joined with its agreement. -/
structure SearchRow where
  agreement : AgreementRecord
  sourceChecksum : String
  deriving DecidableEq, Repr

/-! The text of the column `parties`, as `json.dumps` writes it by default -/

def fieldText (key value : String) : List Char :=
  (Json.quoteText key).toList ++ ": ".toList ++ (Json.quoteText value).toList

def partyText (party : Party) : List Char :=
  '\x7b' :: List.intercalate ", ".toList
    [fieldText "name" party.name, fieldText "role" party.role] ++ ['\x7d']

def partiesText (parties : List Party) : List Char :=
  '[' :: List.intercalate ", ".toList (parties.map partyText) ++ [']']

example : String.ofList (partiesText [⟨"Åsa", "buyer"⟩, ⟨"Bo", "seller"⟩]) =
    "[\x7b\"name\": \"\\u00c5sa\", \"role\": \"buyer\"\x7d, " ++
      "\x7b\"name\": \"Bo\", \"role\": \"seller\"\x7d]" := by decide +kernel

/-! Filtering -/

section Filtering
variable (lowering : Lowering)

/-- `_as_naive_utc` -/
def asNaiveUtc (value : DateTime) : DateTime :=
  if value.offset.isSome then { value with offset := none } else value

/-- `lower(cast(parties, String)).contains(party.lower())` -/
def partiesContain (party : String) (parties : List Party) : Bool :=
  like (containing (lowering.lower party.toList)) ((partiesText parties).map Char.toLower)

def whereClauses (filters : SearchFilters) : List (SearchRow → Bool) :=
  (filters.agreementType.map fun agreementType row =>
      decide (row.agreement.agreementType = agreementType)).toList ++
    (filters.status.map fun status row => decide (row.agreement.status = status)).toList ++
    (filters.sourceVersion.map fun version row => decide (row.sourceChecksum = version)).toList ++
    (filters.agreementIds.map fun ids row => decide (row.agreement.id ∈ ids)).toList ++
    (filters.updatedAfter.map fun after row =>
      decide ((asNaiveUtc after).instant ≤ row.agreement.updatedAt)).toList ++
    (filters.updatedBefore.map fun before row =>
      decide (row.agreement.updatedAt ≤ (asNaiveUtc before).instant)).toList ++
    (filters.party.map fun party row => partiesContain lowering party row.agreement.parties).toList

/-- `_apply_filters` -/
def applyFilters (filters : SearchFilters) (rows : List SearchRow) : List SearchRow :=
  rows.filter fun row => (whereClauses lowering filters).all fun clause => clause row

/-! What filters say -/

/-- From one bound to the other, where there are bounds. -/
def Within (after before : Option ℤ) (instant : ℤ) : Prop :=
  (∀ bound ∈ after, bound ≤ instant) ∧ ∀ bound ∈ before, instant ≤ bound

/-- Some party's name contains the text when the case of letters is passed over. -/
def Named (party : String) (parties : List Party) : Prop :=
  ∃ listed ∈ parties, lowering.lower party.toList <:+: lowering.lower listed.name.toList

/-- The filters that are compared for equality. -/
structure Selected (filters : SearchFilters) (row : SearchRow) : Prop where
  agreementType : ∀ agreementType ∈ filters.agreementType,
    row.agreement.agreementType = agreementType
  status : ∀ status ∈ filters.status, row.agreement.status = status
  sourceVersion : ∀ version ∈ filters.sourceVersion, row.sourceChecksum = version
  agreementIds : ∀ ids ∈ filters.agreementIds, row.agreement.id ∈ ids

structure Meant (filters : SearchFilters) (row : SearchRow) : Prop where
  selected : Selected filters row
  within : Within (filters.updatedAfter.map (·.instant)) (filters.updatedBefore.map (·.instant))
    row.agreement.updatedAt
  named : ∀ party ∈ filters.party, Named lowering party row.agreement.parties

/-- Of all rows, exactly those are kept that the filters say. -/
def MeansWhatItSays (filters : SearchFilters) : Prop :=
  ∀ rows row, row ∈ applyFilters lowering filters rows ↔ row ∈ rows ∧ Meant lowering filters row

theorem instant_asNaiveUtc (value : DateTime) : (asNaiveUtc value).instant = value.wall := by
  rw [asNaiveUtc]
  split
  · simp [DateTime.instant]
  · simp_all [DateTime.instant]

theorem all_clause {α : Type} (value : Option α) (clause : α → SearchRow → Bool) (row : SearchRow) :
    ((value.map clause).toList.all fun held => held row) = true ↔
      ∀ given ∈ value, clause given row = true := by
  cases value <;> simp

/-- A row is kept by the walls that its bounds show and by the text of its parties. -/
theorem mem_applyFilters {filters : SearchFilters} {rows : List SearchRow} {row : SearchRow} :
    row ∈ applyFilters lowering filters rows ↔ row ∈ rows ∧ Selected filters row ∧
      Within (filters.updatedAfter.map (·.wall)) (filters.updatedBefore.map (·.wall))
        row.agreement.updatedAt ∧
      ∀ party ∈ filters.party, partiesContain lowering party row.agreement.parties = true := by
  rw [applyFilters, List.mem_filter]
  apply and_congr_right
  intro _
  simp only [whereClauses, List.all_append, Bool.and_eq_true, all_clause, decide_eq_true_eq,
    instant_asNaiveUtc, Within, Option.mem_def, Option.map_eq_some_iff, forall_exists_index,
    and_imp, forall_apply_eq_imp_iff₂]
  constructor
  · intro clauses
    obtain ⟨⟨⟨⟨⟨⟨agreementType, status⟩, version⟩, ids⟩, after⟩, before⟩, party⟩ := clauses
    exact ⟨⟨agreementType, status, version, ids⟩, ⟨after, before⟩, party⟩
  · intro kept
    obtain ⟨⟨agreementType, status, version, ids⟩, ⟨after, before⟩, party⟩ := kept
    exact ⟨⟨⟨⟨⟨⟨agreementType, status⟩, version⟩, ids⟩, after⟩, before⟩, party⟩

end Filtering
end AgreementIntelligence.Search
