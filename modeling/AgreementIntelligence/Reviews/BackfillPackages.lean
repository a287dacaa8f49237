import AgreementIntelligence.Reviews.BackfillEvents
import AgreementIntelligence.Reviews.PackagesOnce

/-! What a delivery of a backfilled event comes to: the two objects of the package, and its row,
which is new where the review had none and else is the old one with the frozen keys and
checksums. -/

namespace AgreementIntelligence.Reviews.Backfill
open Identity Lib Lib.Json Lib.Results Lib.Table

variable {φ : Type} {codec : BackfillCodec φ} {candidate : Candidate} {event : OutboxRow φ}
  {prepared : PreparedFinalPackage φ}

/-! Object keys -/

/-- The part of an object key that ends with the review. -/
def keyLead (candidate : Candidate) : String :=
  "reviews/" ++ candidate.workflow.organizationId.str ++ "/" ++
    candidate.workflow.workspaceId.str ++ "/" ++ candidate.workflow.reviewId.str

theorem backfillBase_eq (candidate : Candidate) :
    ∃ rest, backfillBase candidate = keyLead candidate ++ rest := by
  rw [backfillBase, keyLead]
  cases candidate.package.isSome with
  | true => exact ⟨"/final-package/recovery-0035", by simp [String.append_assoc]⟩
  | false => exact ⟨"/final-package", by simp⟩

theorem length_keyLead (candidate : Candidate) : (keyLead candidate).length = 118 := by
  simp only [keyLead, String.length_append, UuidText.length_str]
  decide

theorem reviewId_of_lead {one other : Candidate} {rest rest' : String}
    (same : keyLead one ++ rest = keyLead other ++ rest') :
    one.workflow.reviewId = other.workflow.reviewId := by
  have texts := congrArg String.toList same
  rw [String.toList_append, String.toList_append] at texts
  have leads := List.append_inj_left texts (by
    rw [String.length_toList, String.length_toList, length_keyLead, length_keyLead])
  simp only [keyLead, String.toList_append] at leads
  have reviews := List.append_inj_right' leads (by
    rw [String.length_toList, String.length_toList, UuidText.length_str, UuidText.length_str])
  exact UuidText.str_inj (String.toList_injective reviews)

/-- The two objects of a package. -/
def Candidate.Owns (candidate : Candidate) (key : String) : Prop :=
  key = candidate.manifestKey ∨ key = candidate.pdfKey

/-- Packages of different reviews have no object in common. -/
theorem Candidate.Owns.reviewId {one other : Candidate} {key : String} (first : one.Owns key)
    (second : other.Owns key) : one.workflow.reviewId = other.workflow.reviewId := by
  have lead : ∀ {candidate : Candidate}, candidate.Owns key →
      ∃ rest, key = keyLead candidate ++ rest := by
    intro candidate owns
    obtain ⟨rest, base⟩ := backfillBase_eq candidate
    cases owns with
    | inl manifest =>
        exact ⟨rest ++ "/manifest.json", by
          rw [manifest, Candidate.manifestKey, base, String.append_assoc]⟩
    | inr pdf => exact ⟨rest ++ "/report.pdf", by
        rw [pdf, Candidate.pdfKey, base, String.append_assoc]⟩
  obtain ⟨rest, same⟩ := lead first
  obtain ⟨rest', same'⟩ := lead second
  exact reviewId_of_lead (same.symm.trans same')

theorem manifestKey_ne_pdfKey (candidate : Candidate) :
    candidate.manifestKey ≠ candidate.pdfKey := by
  intro same
  have texts := congrArg String.toList same
  rw [Candidate.manifestKey, Candidate.pdfKey, String.toList_append, String.toList_append] at texts
  exact absurd (List.append_cancel_left texts) (by decide)

/-! The objects -/

abbrev Objects := Keyed fun object : PackageObject => object.key

theorem ensureObject_new (objects : Objects) (object : PackageObject)
    (absent : ∀ old ∈ objects.rows, old.key ≠ object.key) :
    ∃ grown, ensureObject objects object = .ok grown ∧ grown.rows = objects.rows ++ [object] := by
  obtain ⟨grown, inserts, rows⟩ := Keyed.insert_of_fresh absent
  have missing : (objects.rows.find? fun stored => stored.key = object.key) = none :=
    List.find?_eq_none.mpr fun old member => by simpa using absent old member
  exact ⟨grown, by rw [ensureObject, missing, inserts], rows⟩

theorem ensureObjects_new {objects : Objects} (ready : PreparedFor codec candidate event prepared)
    (absent : ∀ old ∈ objects.rows, ¬ candidate.Owns old.key) :
    ∃ grown, ensureObjects objects prepared.objects = .ok grown ∧
      grown.rows = objects.rows ++ prepared.objects := by
  obtain ⟨first, ensured, rows⟩ := ensureObject_new objects
    ⟨prepared.manifestKey, prepared.manifestContent, "application/json"⟩
    fun old member same => absent old member (.inl (same.trans ready.manifestKey))
  have absent' : ∀ old ∈ first.rows, old.key ≠ prepared.pdfKey := by
    intro old member same
    rw [rows, List.mem_append, List.mem_singleton] at member
    cases member with
    | inl earlier => exact absent old earlier (.inr (same.trans ready.pdfKey))
    | inr now =>
        rw [now, ready.manifestKey, ready.pdfKey] at same
        exact manifestKey_ne_pdfKey candidate same
  obtain ⟨second, ensured', rows'⟩ := ensureObject_new first
    ⟨prepared.pdfKey, prepared.pdfContent, "application/pdf"⟩ absent'
  refine ⟨second, ?_, ?_⟩
  · rw [PreparedFinalPackage.objects, ensureObjects, ensured]
    simp only [bind, Except.bind, ensureObjects, ensured']
  · rw [rows', rows, List.append_assoc]
    rfl

end AgreementIntelligence.Reviews.Backfill
