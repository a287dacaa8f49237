import Mathlib.Algebra.GroupWithZero.Nat
import Mathlib.Data.List.Forall2
import Mathlib.Tactic.Common

/-! Searching a text for a pattern, in the manner of Python's `re`. A pattern reads on from a place
of a text, which is what stands before the place, nearest first, and what stands after it. Whether
a pattern is found depends only on the places where it can end, so those are listed. -/

namespace AgreementIntelligence.Lib.Patterns

/-- What the Unicode standard says of characters: `\w`, `\d`, and which characters a letter of a
pattern matches under `re.IGNORECASE`. -/
structure PatternTable where
  wordChar : Char → Bool
  digit : Char → Bool
  fits : Char → Char → Bool

/-- The tables of a text world that knows no letters and digits outside ASCII. -/
def PatternTable.ascii : PatternTable where
  wordChar c := c.isAlphanum || c == '_'
  digit c := c.isDigit
  fits c d := c.toLower == d.toLower

abbrev Place := List Char × List Char

inductive Pattern
  | nothing
  | one (fits : Char → Bool)
  | many (fits : Char → Bool)
  | boundary
  | assertion (holds : Place → Bool)
  | both (first second : Pattern)
  | either (first second : Pattern)

/-- The ends of `[…]*` from a place. -/
def stretch (fits : Char → Bool) : List Char → List Char → List Place
  | before, [] => [(before, [])]
  | before, c :: after =>
    (before, c :: after) :: if fits c then stretch fits (c :: before) after else []

/-- `\b` -/
def atBoundary (table : PatternTable) (place : Place) : Bool :=
  place.1.head?.any table.wordChar != place.2.head?.any table.wordChar

def Pattern.ends (table : PatternTable) : Pattern → Place → List Place
  | .nothing, place => [place]
  | .one _, (_, []) => []
  | .one fits, (before, c :: after) => if fits c then [(c :: before, after)] else []
  | .many fits, (before, after) => stretch fits before after
  | .boundary, place => if atBoundary table place then [place] else []
  | .assertion holds, place => if holds place then [place] else []
  | .both first second, place => (first.ends table place).flatMap (second.ends table)
  | .either first second, place => first.ends table place ++ second.ends table place

def searchFrom (table : PatternTable) (pattern : Pattern) : List Char → List Char → Bool
  | before, [] => pattern.ends table (before, []) ≠ []
  | before, c :: after =>
    pattern.ends table (before, c :: after) ≠ [] || searchFrom table pattern (c :: before) after

/-- `pattern.search(text)` finds something. -/
def Pattern.search (table : PatternTable) (pattern : Pattern) (text : String) : Bool :=
  searchFrom table pattern [] text.toList

/-- The characters of a text one after another, each as `fits` has it. -/
def literal (fits : Char → Char → Bool) (text : String) : Pattern :=
  text.toList.foldr (fun c rest => .both (.one (fits c)) rest) .nothing

def sequence (parts : List Pattern) : Pattern :=
  parts.foldr .both .nothing

def alternatives (first : Pattern) (rest : List Pattern) : Pattern :=
  rest.foldl .either first

/-- `(?:…)?` -/
def maybe (pattern : Pattern) : Pattern :=
  .either pattern .nothing

/-- `[…]+` -/
def some_ (fits : Char → Bool) : Pattern :=
  .both (.one fits) (.many fits)

/-- `(?:…){least,most}`, the ends of more rounds before the ends of fewer. -/
def repeated (pattern : Pattern) : Nat → Nat → Pattern
  | _, 0 => .nothing
  | 0, most + 1 => .either (.both pattern (repeated pattern 0 most)) .nothing
  | least + 1, most + 1 => .both pattern (repeated pattern least most)

/-- `^` under `re.MULTILINE` -/
def lineStart : Pattern :=
  .assertion fun place => place.1.head?.all (· == '\n')

/-- `(?<=[…])` -/
def behind (fits : Char → Bool) : Pattern :=
  .assertion fun place => place.1.head?.any fits

/-- `(?<![…])` -/
def notBehind (fits : Char → Bool) : Pattern :=
  .assertion fun place => !place.1.head?.any fits

/-- `(?!…)` -/
def notAhead (table : PatternTable) (pattern : Pattern) : Pattern :=
  .assertion fun place => (pattern.ends table place).isEmpty

/-- `pattern.fullmatch(text)` finds something. -/
def Pattern.fullMatch (table : PatternTable) (pattern : Pattern) (text : String) : Bool :=
  (pattern.ends table ([], text.toList)).any fun stop => stop.2.isEmpty

/-- The matches from a place on, of which `skip` characters belong to the match before. -/
def findFrom (table : PatternTable) (pattern : Pattern) :
    Nat → List Char → List Char → List (List Char)
  | _, _, [] => []
  | skip + 1, before, c :: after => findFrom table pattern skip (c :: before) after
  | 0, before, c :: after =>
    match (pattern.ends table (before, c :: after)).head? with
    | none => findFrom table pattern 0 (c :: before) after
    | some stop =>
      let length := stop.1.length - before.length
      (c :: after).take length :: findFrom table pattern (length - 1) (c :: before) after

/-- `pattern.findall(text)`, for a pattern without groups that matches no empty text. Of the ends
from a place the first counts. -/
def Pattern.findAll (table : PatternTable) (pattern : Pattern) (text : String) : List String :=
  (findFrom table pattern 0 [] text.toList).map String.ofList

/-- The characters that the letter `c` of a pattern in lower case matches under `re.IGNORECASE`. -/
def ignoreCase (c d : Char) : Bool :=
  d == c || d == c.toUpper || (c == 'i' && (d.toNat == 0x130 || d.toNat == 0x131)) ||
    (c == 's' && d.toNat == 0x17F) || (c == 'k' && d.toNat == 0x212A)

def word (text : String) : Pattern :=
  literal ignoreCase text

def words (first : String) (rest : List String) : Pattern :=
  alternatives (word first) (rest.map word)

/-- `.{0,most}` under `re.DOTALL` -/
def anyUpTo (most : Nat) : Pattern :=
  repeated (.one fun _ => true) 0 most

/-! What a match has read -/

/-- The text that a place stands in. -/
def Place.whole (place : Place) : List Char :=
  place.1.reverse ++ place.2

/-- The characters that a pattern may read. -/
def Pattern.reads : Pattern → Char → Bool
  | .nothing, _ => false
  | .one fits, c => fits c
  | .many fits, c => fits c
  | .boundary, _ => false
  | .assertion _, _ => false
  | .both first second, c => first.reads c || second.reads c
  | .either first second, c => first.reads c || second.reads c

/-- The least number of characters that a pattern reads. -/
def Pattern.least : Pattern → Nat
  | .nothing => 0
  | .one _ => 1
  | .many _ => 0
  | .boundary => 0
  | .assertion _ => 0
  | .both first second => first.least + second.least
  | .either first second => min first.least second.least

variable {table : PatternTable} {pattern : Pattern}

/-- How a match moves on from a place: it reads characters that the pattern may read, and at least
so many as it must. -/
structure Advances (pattern : Pattern) (place stop : Place) (read : List Char) : Prop where
  before : stop.1 = read.reverse ++ place.1
  after : place.2 = read ++ stop.2
  fits : ∀ c ∈ read, pattern.reads c = true
  least : pattern.least ≤ read.length

theorem exists_of_stretch {fits : Char → Bool} {before after : List Char} {stop : Place}
    (ends : stop ∈ stretch fits before after) :
    ∃ read, Advances (.many fits) (before, after) stop read := by
  induction after generalizing before with
  | nil =>
      rw [stretch, List.mem_singleton] at ends
      subst ends
      exact ⟨[], by constructor <;> simp [Pattern.least]⟩
  | cons c after ih =>
      rw [stretch, List.mem_cons] at ends
      rcases ends with rfl | later
      · exact ⟨[], by constructor <;> simp [Pattern.least]⟩
      · split_ifs at later with fit
        · obtain ⟨read, advances⟩ := ih later
          refine ⟨c :: read, ?_⟩
          constructor
          · simp [advances.before]
          · simpa using advances.after
          · simpa [Pattern.reads, fit] using advances.fits
          · simp [Pattern.least]
        · cases later

theorem exists_advance {place stop : Place} (ends : stop ∈ pattern.ends table place) :
    ∃ read, Advances pattern place stop read := by
  induction pattern generalizing place stop with
  | nothing =>
      rw [Pattern.ends, List.mem_singleton] at ends
      subst ends
      exact ⟨[], by constructor <;> simp [Pattern.least]⟩
  | one fits =>
      obtain ⟨before, after⟩ := place
      cases after with
      | nil => cases ends
      | cons c after =>
          rw [Pattern.ends] at ends
          split_ifs at ends with fit
          · rw [List.mem_singleton] at ends
            subst ends
            exact ⟨[c], by constructor <;> simp [Pattern.least, Pattern.reads, fit]⟩
          · cases ends
  | many fits => exact exists_of_stretch ends
  | boundary =>
      rw [Pattern.ends] at ends
      split_ifs at ends
      · rw [List.mem_singleton] at ends
        subst ends
        exact ⟨[], by constructor <;> simp [Pattern.least]⟩
      · cases ends
  | assertion holds =>
      rw [Pattern.ends] at ends
      split_ifs at ends
      · rw [List.mem_singleton] at ends
        subst ends
        exact ⟨[], by constructor <;> simp [Pattern.least]⟩
      · cases ends
  | both first second ih₁ ih₂ =>
      rw [Pattern.ends, List.mem_flatMap] at ends
      obtain ⟨middle, leads, ends⟩ := ends
      obtain ⟨read, one⟩ := ih₁ leads
      obtain ⟨more, two⟩ := ih₂ ends
      refine ⟨read ++ more, ?_⟩
      constructor
      · simp [two.before, one.before]
      · simp [one.after, two.after]
      · intro c member
        rw [Pattern.reads, Bool.or_eq_true]
        exact (List.mem_append.mp member).imp (one.fits c) (two.fits c)
      · rw [Pattern.least, List.length_append]
        exact Nat.add_le_add one.least two.least
  | either first second ih₁ ih₂ =>
      rw [Pattern.ends, List.mem_append] at ends
      rcases ends with left | right
      · obtain ⟨read, advances⟩ := ih₁ left
        refine ⟨read, advances.before, advances.after, fun c member => ?_, ?_⟩
        · rw [Pattern.reads, advances.fits c member, Bool.true_or]
        · exact Nat.le_trans (Nat.min_le_left _ _) advances.least
      · obtain ⟨read, advances⟩ := ih₂ right
        refine ⟨read, advances.before, advances.after, fun c member => ?_, ?_⟩
        · rw [Pattern.reads, advances.fits c member, Bool.or_true]
        · exact Nat.le_trans (Nat.min_le_right _ _) advances.least

theorem whole_of_ends {place stop : Place} (ends : stop ∈ pattern.ends table place) :
    stop.whole = place.whole := by
  obtain ⟨read, advances⟩ := exists_advance ends
  rw [Place.whole, Place.whole, advances.before, advances.after]
  simp

/-! Tables that agree on the characters of a text -/

theorem any_head?_congr {f g : Char → Bool} {chars : List Char} (agree : ∀ c ∈ chars, f c = g c) :
    chars.head?.any f = chars.head?.any g := by
  cases chars with
  | nil => rfl
  | cons c rest => exact agree c List.mem_cons_self

theorem ends_congr {other : PatternTable} (pattern : Pattern) {place : Place}
    (agree : ∀ c ∈ place.whole, table.wordChar c = other.wordChar c) :
    pattern.ends table place = pattern.ends other place := by
  induction pattern generalizing place with
  | nothing | many | assertion => rfl
  | one fits =>
      obtain ⟨before, after⟩ := place
      cases after <;> rfl
  | boundary =>
      have sides : ∀ c, c ∈ place.1 ∨ c ∈ place.2 → table.wordChar c = other.wordChar c := by
        intro c side
        exact agree c (by simpa [Place.whole] using side)
      have same : atBoundary table place = atBoundary other place := by
        rw [atBoundary, atBoundary, any_head?_congr fun c left => sides c (.inl left),
          any_head?_congr fun c right => sides c (.inr right)]
      rw [Pattern.ends, Pattern.ends, same]
  | both first second ihFirst ihSecond =>
      rw [Pattern.ends, Pattern.ends, ihFirst agree]
      apply List.flatMap_congr
      intro stop member
      exact ihSecond (whole_of_ends member ▸ agree)
  | either first second ihFirst ihSecond =>
      rw [Pattern.ends, Pattern.ends, ihFirst agree, ihSecond agree]

theorem searchFrom_congr {other : PatternTable} (pattern : Pattern) {before after : List Char}
    (agree : ∀ c ∈ before.reverse ++ after, table.wordChar c = other.wordChar c) :
    searchFrom table pattern before after = searchFrom other pattern before after := by
  have here : pattern.ends table (before, after) = pattern.ends other (before, after) :=
    ends_congr pattern agree
  induction after generalizing before with
  | nil => rw [searchFrom, searchFrom, here]
  | cons c after ih =>
      have agree' : ∀ d ∈ (c :: before).reverse ++ after, table.wordChar d = other.wordChar d := by
        simpa using agree
      rw [searchFrom, searchFrom, here, ih agree' (ends_congr pattern agree')]

theorem search_congr {other : PatternTable} (pattern : Pattern) {text : String}
    (agree : ∀ c ∈ text.toList, table.wordChar c = other.wordChar c) :
    pattern.search table text = pattern.search other text :=
  searchFrom_congr pattern agree

/-! Finding a pattern somewhere in a text -/

def Found (table : PatternTable) (pattern : Pattern) (text : List Char) : Prop :=
  ∃ place stop, place.whole = text ∧ stop ∈ pattern.ends table place

theorem found_of_searchFrom {before after : List Char}
    (searched : searchFrom table pattern before after = true) :
    Found table pattern (before.reverse ++ after) := by
  have ends {place : Place} (some_ : pattern.ends table place ≠ []) :
      Found table pattern place.whole := by
    obtain ⟨stop, member⟩ := List.exists_mem_of_ne_nil _ some_
    exact ⟨place, stop, rfl, member⟩
  induction after generalizing before with
  | nil => exact ends (of_decide_eq_true searched)
  | cons c after ih =>
      rw [searchFrom, Bool.or_eq_true] at searched
      rcases searched with here | later
      · exact ends (of_decide_eq_true here)
      · simpa using ih later

theorem found_of_search {text : String} (searched : pattern.search table text = true) :
    Found table pattern text.toList :=
  found_of_searchFrom searched

theorem Found.sequence {parts : List Pattern} {text : List Char}
    (found : Found table (sequence parts) text) {part : Pattern} (member : part ∈ parts) :
    Found table part text := by
  obtain ⟨place, stop, rfl, ends⟩ := found
  induction parts generalizing place with
  | nil => cases member
  | cons first rest ih =>
      rw [Patterns.sequence, List.foldr_cons, Pattern.ends, List.mem_flatMap] at ends
      obtain ⟨middle, leads, ends⟩ := ends
      rcases List.mem_cons.mp member with rfl | later
      · exact ⟨place, middle, rfl, leads⟩
      · exact whole_of_ends leads ▸ ih later middle ends

theorem Found.alternatives {first : Pattern} {rest : List Pattern} {text : List Char}
    (found : Found table (alternatives first rest) text) :
    ∃ part ∈ first :: rest, Found table part text := by
  induction rest generalizing first with
  | nil => exact ⟨first, List.mem_cons_self, found⟩
  | cons second rest ih =>
      obtain ⟨part, member, there⟩ := ih found
      rcases List.mem_cons.mp member with rfl | later
      · obtain ⟨place, stop, whole, ends⟩ := there
        rw [Pattern.ends, List.mem_append] at ends
        rcases ends with left | right
        · exact ⟨first, List.mem_cons_self, place, stop, whole, left⟩
        · exact ⟨second, by simp, place, stop, whole, right⟩
      · exact ⟨part, by simp [later], there⟩

/-- The text contains these characters one after another, each as `fits` has it. -/
def Contains (fits : Char → Char → Bool) (letters text : List Char) : Prop :=
  ∃ before spelt after, text = before ++ spelt ++ after ∧
    List.Forall₂ (fun c d => fits c d = true) letters spelt

theorem Found.literal {fits : Char → Char → Bool} {letters : String} {text : List Char}
    (found : Found table (literal fits letters) text) : Contains fits letters.toList text := by
  obtain ⟨⟨before, after⟩, stop, rfl, ends⟩ := found
  rw [Patterns.literal] at ends
  have spelt {letters before after} (ends : stop ∈ (letters.foldr
      (fun c rest => .both (.one (fits c)) rest) Pattern.nothing).ends table (before, after)) :
      ∃ spelt, after = spelt ++ stop.2 ∧ List.Forall₂ (fun c d => fits c d = true) letters spelt := by
    induction letters generalizing before after with
    | nil =>
        rw [List.foldr_nil, Pattern.ends, List.mem_singleton] at ends
        exact ⟨[], by simp [ends], .nil⟩
    | cons c letters ih =>
        rw [List.foldr_cons, Pattern.ends, List.mem_flatMap] at ends
        obtain ⟨middle, leads, ends⟩ := ends
        cases after with
        | nil => cases leads
        | cons d after =>
            rw [Pattern.ends] at leads
            split_ifs at leads with fit
            · rw [List.mem_singleton] at leads
              subst leads
              obtain ⟨spelt, rfl, all⟩ := ih ends
              exact ⟨d :: spelt, rfl, .cons fit all⟩
            · cases leads
  obtain ⟨spelt, same, all⟩ := spelt ends
  exact ⟨before.reverse, spelt, stop.2, by simp [Place.whole, same], all⟩

theorem Contains.part {fits : Char → Char → Bool} {letters part text : List Char}
    (contains : Contains fits letters text) (inside : part <:+: letters) :
    Contains fits part text := by
  obtain ⟨before, spelt, after, rfl, all⟩ := contains
  obtain ⟨left, right, rfl⟩ := inside
  have later := List.forall₂_take part.length (List.forall₂_drop left.length all)
  rw [List.append_assoc, List.drop_left, List.take_left] at later
  refine ⟨before ++ spelt.take left.length, _,
    (spelt.drop left.length).drop part.length ++ after, ?_, later⟩
  have parts : spelt = spelt.take left.length ++ ((spelt.drop left.length).take part.length ++
      (spelt.drop left.length).drop part.length) := by
    rw [List.take_append_drop, List.take_append_drop]
  rw [List.append_assoc]
  conv_lhs => rw [parts]
  simp only [List.append_assoc]

theorem least_le_of_found {text : List Char} (found : Found table pattern text) :
    pattern.least ≤ text.length := by
  obtain ⟨place, stop, rfl, ends⟩ := found
  obtain ⟨read, advances⟩ := exists_advance ends
  have few := advances.least
  rw [Place.whole, advances.after, List.length_append, List.length_append]
  omega

/-! The first match from a place -/

theorem head?_flatMap {α β : Type} {xs : List α} {f : α → List β} {x : α} {y : β}
    (first : xs.head? = some x) (second : (f x).head? = some y) :
    (xs.flatMap f).head? = some y := by
  cases xs with
  | nil => cases first
  | cons x' xs =>
      cases first
      rw [List.flatMap_cons, List.head?_append, second, Option.some_or]

/-- The longest repetition comes first: all the chunks are read, and the pattern reads no other
after them. -/
theorem head?_repeated {chunks : List (List Char)} {least most : Nat} {rest : List Char}
    (reads : ∀ chunk ∈ chunks, ∀ before after,
      (pattern.ends table (before, chunk ++ after)).head? = some (chunk.reverse ++ before, after))
    (stops : ∀ before, pattern.ends table (before, rest) = []) (enough : least ≤ chunks.length)
    (bounded : chunks.length ≤ most) (before : List Char) :
    ((repeated pattern least most).ends table (before, chunks.flatten ++ rest)).head? =
      some (chunks.flatten.reverse ++ before, rest) := by
  induction chunks generalizing least most before with
  | nil =>
      have none : least = 0 := Nat.le_zero.mp enough
      subst none
      cases most with
      | zero => rfl
      | succ most => simp [repeated, Pattern.ends, stops]
  | cons chunk chunks ih =>
      rw [List.forall_mem_cons] at reads
      rw [List.length_cons] at enough bounded
      obtain ⟨most, rfl⟩ : ∃ more, most = more + 1 := ⟨most - 1, by omega⟩
      have first := reads.1 before (chunks.flatten ++ rest)
      have later := ih reads.2 (by omega : least - 1 ≤ chunks.length)
        (by omega : chunks.length ≤ most) (chunk.reverse ++ before)
      have both : ((Pattern.both pattern (repeated pattern (least - 1) most)).ends table
          (before, (chunk :: chunks).flatten ++ rest)).head? =
          some ((chunk :: chunks).flatten.reverse ++ before, rest) := by
        rw [Pattern.ends, List.flatten_cons, List.append_assoc]
        simpa using head?_flatMap first later
      cases least with
      | zero => rw [repeated, Pattern.ends, List.head?_append, both, Option.some_or]
      | succ least => exact both

/-- A match never reads over a character that the pattern does not read, so the search starts
again behind it. -/
theorem findFrom_append_cons {gap : Char} (unread : pattern.reads gap = false)
    (before : List Char) {skip : Nat} {lead : List Char} (short : skip ≤ lead.length)
    (after : List Char) : ∃ earlier, findFrom table pattern skip before (lead ++ gap :: after) =
      earlier ++ findFrom table pattern 0 (gap :: (lead.reverse ++ before)) after := by
  induction lead generalizing skip before with
  | nil =>
      have none : skip = 0 := Nat.le_zero.mp short
      subst none
      rw [List.nil_append, findFrom]
      split
      · exact ⟨[], rfl⟩
      · next stop found =>
          obtain ⟨read, advances⟩ := exists_advance (List.mem_of_mem_head? found)
          have empty : read = [] := by
            cases read with
            | nil => rfl
            | cons c read =>
                have same := advances.after
                have fit := advances.fits c List.mem_cons_self
                simp only [List.cons_append, List.cons.injEq] at same
                rw [← same.1, unread] at fit
                cases fit
          rw [advances.before, empty]
          exact ⟨[[]], by simp⟩
  | cons c lead ih =>
      cases skip with
      | succ skip =>
          obtain ⟨earlier, same⟩ := ih (c :: before) (by simpa using short)
          exact ⟨earlier, by rw [List.cons_append, findFrom, same]; simp⟩
      | zero =>
          rw [List.cons_append, findFrom]
          split
          · obtain ⟨earlier, same⟩ := ih (c :: before) (Nat.zero_le _)
            exact ⟨earlier, by rw [same]; simp⟩
          · next stop found =>
              obtain ⟨read, advances⟩ := exists_advance (List.mem_of_mem_head? found)
              have short : read.length ≤ lead.length + 1 := by
                by_contra long
                have inside : gap ∈ read := by
                  have same := advances.after
                  have place : (read ++ stop.2)[lead.length + 1]? = read[lead.length + 1]? :=
                    List.getElem?_append_left (by omega)
                  rw [← same] at place
                  exact List.mem_of_getElem? (by simpa using place.symm)
                have fit := advances.fits gap inside
                rw [unread] at fit
                cases fit
              have moved : stop.1.length - before.length = read.length := by
                simp [advances.before]
              obtain ⟨earlier, same⟩ := ih (c :: before)
                (by omega : read.length - 1 ≤ lead.length)
              exact ⟨(c :: (lead ++ gap :: after)).take read.length :: earlier,
                by simp [moved, same]⟩

theorem head?_repeated_one {fits : Char → Bool} {run rest : List Char} {least most : Nat}
    (all : ∀ c ∈ run, fits c = true) (stops : rest.head?.any fits = false)
    (enough : least ≤ run.length) (bounded : run.length ≤ most) (before : List Char) :
    ((repeated (.one fits) least most).ends table (before, run ++ rest)).head? =
      some (run.reverse ++ before, rest) := by
  have chunks : (run.map fun c => [c]).flatten = run := by
    rw [← List.flatMap_def]
    exact List.flatMap_singleton' run
  have reads : ∀ chunk ∈ run.map fun c => [c], ∀ before after,
      ((Pattern.one fits).ends table (before, chunk ++ after)).head? =
        some (chunk.reverse ++ before, after) := by
    intro chunk member before after
    obtain ⟨c, listed, rfl⟩ := List.mem_map.mp member
    simp [Pattern.ends, all c listed]
  have done (before : List Char) : (Pattern.one fits).ends table (before, rest) = [] := by
    cases rest with
    | nil => rfl
    | cons c rest =>
        rw [Pattern.ends, if_neg]
        simpa using stops
  have first := head?_repeated reads done (by simpa using enough) (by simpa using bounded) before
  rwa [chunks] at first

theorem reads_repeated {least most : Nat} {c : Char}
    (reads : (repeated pattern least most).reads c = true) : pattern.reads c = true := by
  induction most generalizing least with
  | zero => cases least <;> cases reads
  | succ most ih =>
      cases least with
      | zero =>
          simp only [repeated, Pattern.reads, Bool.or_false, Bool.or_eq_true] at reads
          exact reads.elim id ih
      | succ least =>
          simp only [repeated, Pattern.reads, Bool.or_eq_true] at reads
          exact reads.elim id ih

theorem least_repeated {least most : Nat} (enough : least ≤ most) :
    (repeated pattern least most).least = least * pattern.least := by
  induction least generalizing most with
  | zero => cases most <;> simp [repeated, Pattern.least]
  | succ least ih =>
      cases most with
      | zero => cases enough
      | succ most =>
          rw [repeated, Pattern.least, ih (Nat.le_of_succ_le_succ enough), Nat.succ_mul, Nat.add_comm]

theorem least_anyUpTo (most : Nat) : (anyUpTo most).least = 0 := by
  rw [anyUpTo, least_repeated (Nat.zero_le most), Nat.zero_mul]

theorem least_literal (fits : Char → Char → Bool) (text : String) :
    (literal fits text).least = text.length := by
  rw [literal, ← String.length_toList]
  induction text.toList with
  | nil => rfl
  | cons c rest ih =>
      rw [List.foldr_cons, Pattern.least, ih, Pattern.least, List.length_cons, Nat.add_comm]

theorem least_word (text : String) : (word text).least = text.length :=
  least_literal ignoreCase text

theorem least_alternatives (first : Pattern) (rest : List Pattern) :
    (alternatives first rest).least = (rest.map Pattern.least).foldl min first.least := by
  rw [alternatives]
  induction rest generalizing first with
  | nil => rfl
  | cons next rest ih => rw [List.foldl_cons, ih, List.map_cons, List.foldl_cons, Pattern.least]

theorem least_sequence (parts : List Pattern) :
    (sequence parts).least = (parts.map Pattern.least).sum := by
  rw [sequence]
  induction parts with
  | nil => rfl
  | cons first rest ih => rw [List.foldr_cons, Pattern.least, ih, List.map_cons, List.sum_cons]

theorem least_le_sequence {parts : List Pattern} (member : pattern ∈ parts) :
    pattern.least ≤ (sequence parts).least := by
  induction parts with
  | nil => cases member
  | cons first rest ih =>
      rw [sequence, List.foldr_cons, Pattern.least]
      rcases List.mem_cons.mp member with rfl | later
      · exact Nat.le_add_right _ _
      · exact Nat.le_trans (ih later) (Nat.le_add_left _ _)

/-- What is matched first from a place that the search reaches is found. -/
theorem mem_findAll {before token after : List Char} (some_ : token ≠ [])
    (reached : ∀ gap ∈ before.getLast?, pattern.reads gap = false)
    (first : (pattern.ends table (before.reverse, token ++ after)).head? =
      some (token.reverse ++ before.reverse, after)) :
    String.ofList token ∈ pattern.findAll table (String.ofList (before ++ token ++ after)) := by
  have here : token ∈ findFrom table pattern 0 before.reverse (token ++ after) := by
    cases token with
    | nil => exact absurd rfl some_
    | cons c token =>
        rw [List.cons_append] at first ⊢
        have long : token.length + (before.length + 1) - before.length = token.length + 1 := by omega
        rw [findFrom, first]
        simp [long]
  rw [Pattern.findAll, String.toList_ofList, List.append_assoc]
  refine List.mem_map.mpr ⟨token, ?_, rfl⟩
  rcases List.eq_nil_or_concat' before with rfl | ⟨lead, gap, rfl⟩
  · exact here
  · have unread : pattern.reads gap = false := reached gap (by simp)
    obtain ⟨earlier, same⟩ : ∃ earlier, findFrom table pattern 0 [] (lead ++ gap ::
        (token ++ after)) = earlier ++ findFrom table pattern 0 (gap :: (lead.reverse ++ []))
          (token ++ after) :=
      findFrom_append_cons unread [] (Nat.zero_le lead.length) (token ++ after)
    rw [List.append_assoc, List.singleton_append, same]
    refine List.mem_append_right _ ?_
    simpa using here

/-- A search finds nothing in a text of which the pattern reads no character. -/
theorem findAll_unread {text : String} (some_ : 0 < pattern.least)
    (unread : ∀ c ∈ text.toList, pattern.reads c = false) : pattern.findAll table text = [] := by
  have none (before after : List Char) (unread : ∀ c ∈ after, pattern.reads c = false) :
      findFrom table pattern 0 before after = [] := by
    induction after generalizing before with
    | nil => rfl
    | cons c after ih =>
        have ends : pattern.ends table (before, c :: after) = [] := by
          refine List.eq_nil_iff_forall_not_mem.mpr fun stop member => ?_
          obtain ⟨read, advances⟩ := exists_advance member
          cases read with
          | nil => exact Nat.not_le_of_lt some_ advances.least
          | cons d read =>
              have fit := advances.fits d List.mem_cons_self
              have same := (List.cons.inj advances.after).1
              rw [← same, unread c List.mem_cons_self] at fit
              cases fit
        rw [List.forall_mem_cons] at unread
        rw [findFrom, ends]
        exact ih (c :: before) unread.2
  rw [Pattern.findAll, none [] text.toList unread, List.map_nil]

end AgreementIntelligence.Lib.Patterns
