import AgreementIntelligence.Lib.Pdf
import AgreementIntelligence.Reviews.FinalPackage
import Mathlib.Data.List.Induction

/-! The report of a package as a reader of the format finds it: the objects where the table says,
the content stream of its length, and in it the lines of the report. -/

namespace AgreementIntelligence.Reviews
open Lib Sha256 Pdf

/-! The objects -/

def pdfObject (number : ℕ) (item : List UInt8) : List UInt8 :=
  decimal number ++ utf8 " 0 obj\n" ++ item ++ utf8 "\nendobj\n"

theorem pdfBody_concat (objects : List (List UInt8)) (item : List UInt8) :
    pdfBody (objects ++ [item]) =
      ((pdfBody objects).1 ++ pdfObject (objects.length + 1) item,
        (pdfBody objects).2 ++ [(pdfBody objects).1.length]) := by
  simp [pdfBody, pdfObject, decimal, List.zipIdx_append, utf8_append, Nat.add_comm]

/-- Every object stands at its offset. -/
structure Located (objects : List (List UInt8)) : Prop where
  count : (pdfBody objects).2.length = objects.length
  inside : ∀ offset ∈ (pdfBody objects).2, offset ≤ (pdfBody objects).1.length
  leads : ∀ k item, objects[k]? = some item → ∃ offset rest,
    (pdfBody objects).2[k]? = some offset ∧
      (pdfBody objects).1.drop offset = pdfObject (k + 1) item ++ rest

theorem located (objects : List (List UInt8)) : Located objects := by
  induction objects using List.reverseRecOn with
  | nil => exact ⟨rfl, nofun, nofun⟩
  | append_singleton objects last ih =>
      constructor
      · simp [pdfBody_concat, ih.count]
      · intro offset member
        rw [pdfBody_concat, List.mem_append, List.mem_singleton] at member
        rw [pdfBody_concat, List.length_append]
        rcases member with earlier | rfl
        · exact Nat.le_add_right_of_le (ih.inside offset earlier)
        · exact Nat.le_add_right _ _
      · intro k item known
        rw [pdfBody_concat]
        by_cases earlier : k < objects.length
        · rw [List.getElem?_append_left earlier] at known
          obtain ⟨offset, rest, at_, leads⟩ := ih.leads k item known
          refine ⟨offset, rest ++ pdfObject (objects.length + 1) last, ?_, ?_⟩
          · rw [List.getElem?_append_left (by rwa [ih.count]), at_]
          · rw [List.drop_append_of_le_length (ih.inside offset (List.mem_of_getElem? at_)), leads,
              List.append_assoc]
        · rw [List.getElem?_append_right (by omega), List.getElem?_singleton] at known
          split_ifs at known with here
          cases known
          have same : k = objects.length := by omega
          subst same
          refine ⟨(pdfBody objects).1.length, [], ?_, ?_⟩
          · rw [List.getElem?_append_right (by rw [ih.count]), ih.count]
            simp
          · rw [List.drop_left, List.append_nil]

/-- The last object has no part in where the objects stand. -/
theorem offset_le (objects : List (List UInt8)) (last : List UInt8) :
    ∀ offset ∈ (pdfBody (objects ++ [last])).2, offset ≤ (pdfBody objects).1.length := by
  intro offset member
  rw [pdfBody_concat, List.mem_append, List.mem_singleton] at member
  rcases member with earlier | rfl
  · exact (located objects).inside offset earlier
  · exact Nat.le_refl _

/-! The table -/

theorem tenDigits_digits (offset : ℕ) :
    ∀ c ∈ (tenDigits offset).toList, c.isDigit = true := by
  intro c member
  simp only [tenDigits, String.toList_ofList, List.mem_append] at member
  rcases member with zero | digit
  · rw [List.eq_of_mem_replicate zero]
    decide
  · exact isDigit_toDigits c (by simpa using digit)

theorem length_tenDigits {offset : ℕ} (small : offset < 10 ^ 10) :
    (tenDigits offset).toList.length = 10 := by
  have few : (toString offset).toList.length ≤ 10 := by
    rw [Nat.toString_eq_repr, Nat.toList_repr]
    exact (Nat.length_toDigits_le_iff (by decide) (by decide)).mpr small
  rw [tenDigits, String.toList_ofList, List.length_append, List.length_replicate]
  omega

theorem value_tenDigits (offset : ℕ) : Nat.ofDigitChars 10 (tenDigits offset).toList 0 = offset := by
  rw [tenDigits, String.toList_ofList, Nat.ofDigitChars_append, Nat.ofDigitChars_replicate_zero,
    Nat.mul_zero, Nat.toString_eq_repr, Nat.toList_repr, Nat.ofDigitChars_ten_toDigits]

theorem utf8_entry (offset : ℕ) : utf8 (tenDigits offset ++ " 00000 n \n") =
    digitBytes (tenDigits offset).toList ++ utf8 " 00000 n " ++ [10] := by
  have digits := utf8_digits (tenDigits_digits offset)
  rw [String.ofList_toList] at digits
  rw [utf8_append, digits, List.append_assoc]
  rfl

theorem readEntry_tenDigits {offset : ℕ} (small : offset < 10 ^ 10) :
    readEntry (digitBytes (tenDigits offset).toList ++ utf8 " 00000 n ") =
      some ⟨offset, 0, true⟩ := by
  rw [readEntry_used (tenDigits_digits offset) (length_tenDigits small), value_tenDigits]

theorem readEntries_offsets {offsets : List ℕ} (small : ∀ offset ∈ offsets, offset < 10 ^ 10)
    (rest : List UInt8) :
    readEntries offsets.length
        ((offsets.flatMap fun offset => utf8 (tenDigits offset ++ " 00000 n \n")) ++ rest) =
      some (offsets.map fun offset => ⟨offset, 0, true⟩, rest) := by
  induction offsets with
  | nil => rfl
  | cons offset later ih =>
      rw [List.forall_mem_cons] at small
      have plain : 10 ∉ digitBytes (tenDigits offset).toList ++ utf8 " 00000 n " := by
        rw [List.mem_append, not_or]
        exact ⟨digitBytes_plain (tenDigits_digits offset) (by decide), by decide⟩
      rw [List.flatMap_cons, utf8_entry, List.append_assoc, List.append_assoc,
        List.singleton_append, List.length_cons, List.map_cons]
      exact readEntries_cons plain (readEntry_tenDigits small.1) (ih small.2)

/-! The content stream -/

/-- The characters of a text are bytes and do not end a line. -/
def OneLatinLine (text : String) : Prop :=
  ∀ c ∈ text.toList, c.toNat < 256 ∧ c ≠ '\r' ∧ c ≠ '\n'

def latinBytes (text : String) : List UInt8 :=
  text.toList.map fun c => UInt8.ofNat c.toNat

/-- `content.decode("latin-1")` -/
def latinText (content : List UInt8) : String :=
  String.ofList (content.map fun b => Char.ofNat b.toNat)

theorem toNat_latinByte {c : Char} (small : c.toNat < 256) :
    (UInt8.ofNat c.toNat).toNat = c.toNat := by
  rw [UInt8.toNat_ofNat', Nat.mod_eq_of_lt small]

theorem latinByte_inj {c d : Char} (small : c.toNat < 256) (few : d.toNat < 256) :
    UInt8.ofNat c.toNat = UInt8.ofNat d.toNat ↔ c = d := by
  refine ⟨fun same => ?_, fun same => same ▸ rfl⟩
  have numbers := congrArg UInt8.toNat same
  rw [toNat_latinByte small, toNat_latinByte few] at numbers
  rw [← Char.ofNat_toNat c, numbers, Char.ofNat_toNat]

theorem latinBytes_append (first second : String) :
    latinBytes (first ++ second) = latinBytes first ++ latinBytes second := by
  rw [latinBytes, String.toList_append, List.map_append, ← latinBytes, ← latinBytes]

theorem latin1_eq {text : String} (latin : ∀ c ∈ text.toList, c.toNat < 256) :
    latin1 text = some (latinBytes text) := by
  rw [latin1, latinBytes]
  generalize text.toList = chars at latin
  induction chars with
  | nil => rfl
  | cons c rest ih =>
      rw [List.forall_mem_cons] at latin
      rw [List.mapM_cons, if_pos latin.1, ih latin.2]
      rfl

theorem latinText_latinBytes {text : String} (latin : OneLatinLine text) :
    latinText (latinBytes text) = text := by
  rw [latinText, latinBytes, List.map_map]
  have same : text.toList.map ((fun b => Char.ofNat b.toNat) ∘ fun c => UInt8.ofNat c.toNat) =
      text.toList := by
    refine (List.map_congr_left fun c member => ?_).trans (List.map_id text.toList)
    rw [Function.comp_apply, toNat_latinByte (latin c member).1, Char.ofNat_toNat, id]
  rw [same, String.ofList_toList]

theorem latinBytes_pdfLiteral {text : String} (latin : OneLatinLine text) :
    latinBytes (pdfLiteral text) = escape (latinBytes text) := by
  rw [latinBytes, pdfLiteral, String.toList_ofList, latinBytes, escape, List.map_flatMap,
    List.flatMap_map]
  apply List.flatMap_congr
  intro c member
  have small := (latin c member).1
  have back : UInt8.ofNat c.toNat = 92 ↔ c = '\\' := latinByte_inj small (by decide : '\\'.toNat < 256)
  have opens : UInt8.ofNat c.toNat = 40 ↔ c = '(' := latinByte_inj small (by decide : '('.toNat < 256)
  have closes : UInt8.ofNat c.toNat = 41 ↔ c = ')' :=
    latinByte_inj small (by decide : ')'.toNat < 256)
  simp only [back, opens, closes]
  split_ifs with special
  · rfl
  · rfl

theorem noReturn_latinBytes {text : String} (latin : OneLatinLine text) :
    13 ∉ latinBytes text := by
  intro member
  obtain ⟨c, listed, same⟩ := List.mem_map.mp member
  obtain ⟨small, noReturn, -⟩ := latin c listed
  exact noReturn ((latinByte_inj small (by decide : '\r'.toNat < 256)).mp same)

/-- The bytes of a command and of the end of its line. -/
def ended (command : String) : List UInt8 :=
  latinBytes command ++ [10]

theorem latinBytes_lines {commands : List String} (some_ : commands ≠ []) :
    latinBytes ("\n".intercalate commands ++ "\n") = commands.flatMap ended := by
  induction commands with
  | nil => exact absurd rfl some_
  | cons command rest ih =>
      by_cases last : rest = []
      · subst last
        rw [String.intercalate_singleton, latinBytes_append, List.flatMap_cons, List.flatMap_nil,
          List.append_nil]
        rfl
      · rw [String.intercalate_cons_of_ne_nil last, List.flatMap_cons, ← ih last]
        simp only [latinBytes_append, ended, List.append_assoc]
        rfl

/-- Text commands that show no string. -/
def Plain (command : String) : Prop :=
  ∀ b ∈ ended command, b ∉ utf8 "()<>%"

theorem scan_plain {commands : List String} (plain : ∀ command ∈ commands, Plain command)
    (found : List (List UInt8)) :
    (commands.flatMap ended).foldlM scanByte ⟨.outside, [], found⟩ =
      some ⟨.outside, [], found⟩ := by
  apply scan_outside
  intro b member
  obtain ⟨command, listed, here⟩ := List.mem_flatMap.mp member
  exact plain command listed b here

theorem ended_show {line : String} (latin : OneLatinLine line) :
    ended ("(" ++ pdfLiteral line ++ ") Tj") =
      40 :: escape (latinBytes line) ++ 41 :: utf8 " Tj\n" := by
  rw [ended, latinBytes_append, latinBytes_append, latinBytes_pdfLiteral latin]
  simp only [List.append_assoc]
  rfl

set_option maxRecDepth 4000 in
theorem scan_lines {lines : List String} (latin : ∀ line ∈ lines, OneLatinLine line)
    {move : ℕ → List String} (plain : ∀ index, ∀ command ∈ move index, Plain command)
    (found : List (List UInt8)) (rest : List UInt8) :
    (((lines.mapIdx fun index line =>
        move index ++ ["(" ++ pdfLiteral line ++ ") Tj"]).flatten.flatMap ended) ++ rest).foldlM
      scanByte ⟨.outside, [], found⟩ =
        rest.foldlM scanByte ⟨.outside, [], found ++ lines.map latinBytes⟩ := by
  induction lines generalizing move found with
  | nil => rw [List.mapIdx_nil, List.map_nil, List.append_nil]; rfl
  | cons line later ih =>
      rw [List.forall_mem_cons] at latin
      have gap (found : List (List UInt8)) :
          (utf8 " Tj\n").foldlM scanByte ⟨.outside, [], found⟩ =
            some ⟨.outside, [], found⟩ := scan_outside (by decide) found
      rw [List.mapIdx_cons, List.flatten_cons, List.flatMap_append, List.flatMap_append,
        List.flatMap_singleton, ended_show latin.1, List.append_assoc, List.append_assoc,
        List.foldlM_append, scan_plain (plain 0)]
      generalize behind : ((later.mapIdx fun index line => move (index + 1) ++
        ["(" ++ pdfLiteral line ++ ") Tj"]).flatten.flatMap ended ++ rest) = tail
      have text : 40 :: escape (latinBytes line) ++ 41 :: utf8 " Tj\n" ++ tail =
          40 :: escape (latinBytes line) ++ 41 :: (utf8 " Tj\n" ++ tail) := by simp
      rw [Option.bind_eq_bind, Option.bind_some, text,
        scan_literal (noReturn_latinBytes latin.1) found (utf8 " Tj\n" ++ tail),
        List.foldlM_append, gap, Option.bind_eq_bind, Option.bind_some, ← behind,
        ih latin.2 (fun index => plain (index + 1)), List.map_cons, List.append_assoc,
        List.singleton_append]

set_option maxRecDepth 4000 in
theorem literals_commands {lines : List String} (latin : ∀ line ∈ lines, OneLatinLine line) :
    literals (latinBytes ("\n".intercalate (pdfCommands lines) ++ "\n")) =
      some (lines.map latinBytes) := by
  have start : ∀ command ∈ ["BT", "/F1 10 Tf", "72 720 Td"], Plain command := by
    unfold Plain
    decide
  have stop : ∀ command ∈ ["ET"], Plain command := by
    unfold Plain
    decide
  have moves : ∀ index, ∀ command ∈ if index = 0 then [] else ["0 -14 Td"], Plain command := by
    intro index command member
    split_ifs at member
    · cases member
    · rw [List.mem_singleton.mp member]
      unfold Plain
      decide
  rw [latinBytes_lines (by simp [pdfCommands]), pdfCommands, List.flatMap_append,
    List.flatMap_append, literals, List.append_assoc, List.foldlM_append, scan_plain start,
    Option.bind_eq_bind, Option.bind_some, scan_lines latin moves, scan_plain stop]
  rfl

theorem all_intercalate {P : Char → Prop} (newline : P '\n') {lines : List String}
    (all : ∀ line ∈ lines, ∀ c ∈ line.toList, P c) :
    ∀ c ∈ ("\n".intercalate lines).toList, P c := by
  induction lines with
  | nil => simp
  | cons line rest ih =>
      rw [List.forall_mem_cons] at all
      by_cases last : rest = []
      · subst last
        rw [String.intercalate_singleton]
        exact all.1
      · intro c member
        rw [String.intercalate_cons_of_ne_nil last, String.toList_append, String.toList_append,
          List.mem_append, List.mem_append] at member
        rcases member with (here | mark) | later
        · exact all.1 c here
        · rw [List.mem_singleton.mp mark]
          exact newline
        · exact ih all.2 c later

theorem latin_pdfLiteral {line : String} (latin : OneLatinLine line) :
    ∀ c ∈ (pdfLiteral line).toList, c.toNat < 256 := by
  intro c member
  rw [pdfLiteral, String.toList_ofList, List.mem_flatMap] at member
  obtain ⟨d, there, here⟩ := member
  have known : c = '\\' ∨ c = d := by
    split_ifs at here
    · simpa using here
    · exact .inr (by simpa using here)
  rcases known with rfl | rfl
  · decide
  · exact (latin c there).1

theorem latin_pdfCommands {lines : List String} (latin : ∀ line ∈ lines, OneLatinLine line) :
    ∀ command ∈ pdfCommands lines, ∀ c ∈ command.toList, c.toNat < 256 := by
  have fixed : ∀ command ∈ ["BT", "/F1 10 Tf", "72 720 Td", "0 -14 Td", "ET", "(", ") Tj"],
      ∀ c ∈ command.toList, c.toNat < 256 := by simp
  intro command member
  rw [pdfCommands, List.mem_append, List.mem_append, List.mem_flatten] at member
  rcases member with (first | ⟨commands, drawn, here⟩) | last
  · exact fixed command (List.mem_append_left ["0 -14 Td", "ET", "(", ") Tj"] first)
  · obtain ⟨index, bound, rfl⟩ := List.mem_mapIdx.mp drawn
    rw [List.mem_append] at here
    rcases here with move | shown
    · split_ifs at move
      · cases move
      · rw [List.mem_singleton.mp move]
        exact fixed "0 -14 Td" (by simp)
    · rw [List.mem_singleton.mp shown]
      intro c inside
      rw [String.toList_append, String.toList_append, List.mem_append, List.mem_append] at inside
      rcases inside with (opens | literal) | closes
      · exact fixed "(" (by simp) c opens
      · exact latin_pdfLiteral (latin _ (List.getElem_mem bound)) c literal
      · exact fixed ") Tj" (by simp) c closes
  · rw [List.mem_singleton.mp last]
    exact fixed "ET" (by simp)

theorem latin1_commands {lines : List String} (latin : ∀ line ∈ lines, OneLatinLine line) :
    latin1 ("\n".intercalate (pdfCommands lines) ++ "\n") =
      some (latinBytes ("\n".intercalate (pdfCommands lines) ++ "\n")) := by
  apply latin1_eq
  intro c member
  rw [String.toList_append, List.mem_append] at member
  rcases member with command | newline
  · exact all_intercalate (P := fun c => c.toNat < 256) (by decide) (latin_pdfCommands latin) c command
  · rw [List.mem_singleton.mp newline]
    decide

/-! The file -/

/-- The objects in front of the content stream. -/
def pageObjects : List (List UInt8) :=
  [utf8 "<< /Type /Catalog /Pages 2 0 R >>",
    utf8 "<< /Type /Pages /Kids [3 0 R] /Count 1 >>",
    utf8 ("<< /Type /Page /Parent 2 0 R /MediaBox [0 0 612 792] " ++
      "/Resources << /Font << /F1 4 0 R >> >> /Contents 5 0 R >>"),
    utf8 "<< /Type /Font /Subtype /Type1 /BaseFont /Helvetica >>"]

def contentDictionary (stream : List UInt8) : List UInt8 :=
  utf8 "<< /Length " ++ decimal stream.length ++ utf8 " >>"

def contentObject (stream : List UInt8) : List UInt8 :=
  contentDictionary stream ++ utf8 "\nstream\n" ++ stream ++ utf8 "endstream"

def trailerDictionary (size : ℕ) : List UInt8 :=
  utf8 "<< /Size " ++ decimal size ++ utf8 " /Root 1 0 R >>"

def trailerText (size start : ℕ) : List UInt8 :=
  utf8 "trailer\n" ++ trailerDictionary size ++ utf8 "\nstartxref\n" ++ decimal start ++
    utf8 "\n%%EOF\n"

theorem readTrailer_trailerText (size start : ℕ) :
    readTrailer (trailerText size start) = some ⟨size, start⟩ := by
  have plain : 10 ∉ trailerDictionary size := by
    simp only [trailerDictionary, List.mem_append, not_or]
    exact ⟨⟨by decide, decimal_plain size (by decide)⟩, by decide⟩
  have line : trailerDictionary size = utf8 "<< " ++ utf8 "/Size" ++
      32 :: (decimal size ++ 32 :: utf8 "/Root 1 0 R >>") := by
    simp only [trailerDictionary, List.append_assoc]
    rfl
  have number : numberAt "/Size" (trailerDictionary size) = some size :=
    line ▸ numberAt_number size _ (by decide) (by decide)
  have delimited : isDictionary (trailerDictionary size) = true :=
    line ▸ isDictionary_number size _ (by decide) (by decide)
  have text : trailerText size start = utf8 "trailer" ++ 10 :: (trailerDictionary size ++ 10 ::
      (utf8 "startxref" ++ 10 :: (decimal start ++ 10 :: (utf8 "%%EOF" ++ 10 :: [])))) := by
    simp only [trailerText, List.append_assoc]
    rfl
  rw [readTrailer, text, expectLine_append (by decide), Option.bind_some, readLine_append plain,
    Option.bind_some, expectLine_append (by decide), Option.bind_some,
    readLine_append (decimal_plain start (by decide)), Option.bind_some,
    expectLine_append (by decide), Option.bind_some, if_pos ⟨delimited, rfl⟩, number,
    readNat_decimal]
  rfl

/-- The bytes of a file with these objects. -/
def pdfFile (objects : List (List UInt8)) : List UInt8 :=
  (pdfBody objects).1 ++ (utf8 "xref\n0 " ++ decimal (objects.length + 1) ++
    10 :: (utf8 "0000000000 65535 f \n" ++ ((pdfBody objects).2.flatMap fun offset =>
      utf8 (tenDigits offset ++ " 00000 n \n")) ++
        trailerText (objects.length + 1) (pdfBody objects).1.length))

theorem contentObject_eq (stream : List UInt8) : contentObject stream =
    utf8 ("<< /Length " ++ toString stream.length ++ " >>\nstream\n") ++ stream ++
      utf8 "endstream" := by
  simp only [contentObject, contentDictionary, utf8_append, List.append_assoc]
  rfl

theorem trailerText_eq (size start : ℕ) : trailerText size start =
    utf8 ("trailer\n<< /Size " ++ toString size ++ " /Root 1 0 R >>\n" ++ "startxref\n" ++
      toString start ++ "\n%%EOF\n") := by
  simp only [trailerText, trailerDictionary, utf8_append, List.append_assoc]
  rfl

set_option maxRecDepth 4000 in
theorem deterministicPdf_eq {lines : List String} {stream : List UInt8}
    (encoded : latin1 ("\n".intercalate (pdfCommands lines) ++ "\n") = some stream) :
    deterministicPdf lines = some (pdfFile (pageObjects ++ [contentObject stream])) := by
  rw [deterministicPdf, encoded, contentObject_eq]
  simp only [pdfFile, trailerText_eq, utf8_append, List.append_assoc]
  rfl

/-- What the table of a file lists. -/
def tableOf (objects : List (List UInt8)) : List Entry :=
  ⟨0, 65535, false⟩ :: (pdfBody objects).2.map fun offset => ⟨offset, 0, true⟩

theorem readTable_pdfFile {objects : List (List UInt8)}
    (small : ∀ offset ∈ (pdfBody objects).2, offset < 10 ^ 10) :
    readTable ((pdfFile objects).drop (pdfBody objects).1.length) =
      some (tableOf objects, trailerText (objects.length + 1) (pdfBody objects).1.length) := by
  have free : readEntry (utf8 "0000000000 65535 f ") = some ⟨0, 65535, false⟩ := by decide
  have listed := readEntries_offsets small
    (trailerText (objects.length + 1) (pdfBody objects).1.length)
  rw [(located objects).count] at listed
  have line : utf8 "0000000000 65535 f \n" = utf8 "0000000000 65535 f " ++ [10] := rfl
  rw [pdfFile, List.drop_left, readTable_append, line, List.append_assoc, List.append_assoc,
    List.singleton_append]
  exact readEntries_cons (by decide) free listed

theorem leads_pdfFile {objects : List (List UInt8)} {k : ℕ} {item : List UInt8}
    (known : objects[k]? = some item) : ∃ offset rest,
      (tableOf objects)[k + 1]? = some ⟨offset, 0, true⟩ ∧
        (pdfFile objects).drop offset = pdfObject (k + 1) item ++ rest := by
  obtain ⟨offset, rest, at_, leads⟩ := (located objects).leads k item known
  have inside := (located objects).inside offset (List.mem_of_getElem? at_)
  refine ⟨offset, rest ++ (pdfFile objects).drop (pdfBody objects).1.length, ?_, ?_⟩
  · simp [tableOf, at_]
  · rw [pdfFile, List.drop_append_of_le_length inside, leads, List.drop_left, List.append_assoc]

set_option maxRecDepth 8000 in
theorem pageObjects_lines : ∀ item ∈ pageObjects, 10 ∉ item ∧ isDictionary item = true := by
  decide

theorem readObject_page {k : ℕ} {item : List UInt8} (known : pageObjects[k]? = some item)
    (rest : List UInt8) :
    readObject (k + 1) (pdfObject (k + 1) item ++ rest) = some ⟨item, none⟩ := by
  obtain ⟨plain, delimited⟩ := pageObjects_lines item (List.mem_of_getElem? known)
  have text : pdfObject (k + 1) item ++ rest =
      decimal (k + 1) ++ utf8 " 0 obj\n" ++ item ++ 10 :: (utf8 "endobj\n" ++ rest) := by
    simp only [pdfObject, List.append_assoc]
    rfl
  rw [text, readObject_append plain delimited, readBody_plain]

theorem readObject_content (number : ℕ) (stream rest : List UInt8) :
    readObject number (pdfObject number (contentObject stream) ++ rest) =
      some ⟨contentDictionary stream, some stream⟩ := by
  have plain : 10 ∉ contentDictionary stream := by
    simp only [contentDictionary, List.mem_append, not_or]
    exact ⟨⟨by decide, decimal_plain _ (by decide)⟩, by decide⟩
  have line : contentDictionary stream =
      utf8 "<< " ++ utf8 "/Length" ++ 32 :: (decimal stream.length ++ 32 :: utf8 ">>") := by
    simp only [contentDictionary, List.append_assoc]
    rfl
  have delimited : isDictionary (contentDictionary stream) = true :=
    line ▸ isDictionary_number stream.length _ (by decide) (by decide)
  have length : numberAt "/Length" (contentDictionary stream) = some stream.length :=
    line ▸ numberAt_number stream.length _ (by decide) (by decide)
  have text : pdfObject number (contentObject stream) ++ rest =
      decimal number ++ utf8 " 0 obj\n" ++ contentDictionary stream ++
        10 :: (utf8 "stream\n" ++ stream ++ utf8 "endstream\nendobj\n" ++ rest) := by
    simp only [pdfObject, contentObject, List.append_assoc]
    rfl
  rw [text, readObject_append plain delimited, readBody_stream length]

/-- The objects of a report. -/
def reportObjects (stream : List UInt8) : List Object :=
  pageObjects.map (fun item => ⟨item, none⟩) ++ [⟨contentDictionary stream, some stream⟩]

theorem pdfFile_wellFormed (stream : List UInt8) :
    WellFormed (pdfFile (pageObjects ++ [contentObject stream]))
      (tableOf (pageObjects ++ [contentObject stream]))
      ⟨6, (pdfBody (pageObjects ++ [contentObject stream])).1.length⟩ (reportObjects stream) where
  header := by
    have begins (objects : List (List UInt8)) : utf8 "%PDF-1." <+: (pdfBody objects).1 := by
      induction objects using List.reverseRecOn with
      | nil => decide
      | append_singleton objects item ih =>
          rw [pdfBody_concat]
          exact ih.trans (List.prefix_append _ _)
    exact (begins _).trans (List.prefix_append _ _)
  table := by
    have small : ∀ offset ∈ (pdfBody (pageObjects ++ [contentObject stream])).2,
        offset < 10 ^ 10 := by
      intro offset member
      have bound := offset_le pageObjects (contentObject stream) offset member
      have size : (pdfBody pageObjects).1.length < 10 ^ 10 := by decide +kernel
      omega
    exact ⟨_, readTable_pdfFile small, readTrailer_trailerText _ _⟩
  size := rfl
  free := rfl
  count := by
    rw [tableOf, List.length_cons, List.length_map, (located _).count]
    rfl
  leads := by
    intro k object known
    by_cases page : k < pageObjects.length
    · rw [reportObjects, List.getElem?_append_left (by rwa [List.length_map]),
        List.getElem?_map, Option.map_eq_some_iff] at known
      obtain ⟨item, listed, rfl⟩ := known
      obtain ⟨offset, rest, entry, leads⟩ := @leads_pdfFile (pageObjects ++ [contentObject stream])
        k item (by rw [List.getElem?_append_left page, listed])
      exact ⟨offset, entry, by rw [leads, readObject_page listed]⟩
    · have last : k = 4 := by
        have bound := (List.getElem?_eq_some_iff.mp known).1
        have length : (reportObjects stream).length = 5 := rfl
        have pages : pageObjects.length = 4 := rfl
        omega
      subst last
      cases known
      obtain ⟨offset, rest, entry, leads⟩ := @leads_pdfFile (pageObjects ++ [contentObject stream])
        4 (contentObject stream) rfl
      exact ⟨offset, entry, by rw [leads, readObject_content]⟩

/-- The report of any lines is a well-formed file with one stream, which shows these lines. -/
theorem deterministicPdf_wellFormed {lines : List String}
    (latin : ∀ line ∈ lines, ∀ c ∈ line.toList, c.toNat < 256 ∧ c ≠ '\r' ∧ c ≠ '\n') :
    ∃ bytes entries trailer objects stream shown, deterministicPdf lines = some bytes ∧
      WellFormed bytes entries trailer objects ∧ objects.filterMap Object.stream = [stream] ∧
      literals stream = some shown ∧ shown.map latinText = lines := by
  refine ⟨_, _, _, _, _, _, deterministicPdf_eq (latin1_commands latin), pdfFile_wellFormed _, rfl,
    literals_commands latin, ?_⟩
  rw [List.map_map]
  refine (List.map_congr_left fun line member => ?_).trans (List.map_id lines)
  rw [Function.comp_apply, latinText_latinBytes (latin line member), id]

theorem deterministicPdf_wellFormed_parentheses :
    ∃ bytes entries trailer objects stream shown,
      deterministicPdf ["Outcome: (a \\ b)", ""] = some bytes ∧
      WellFormed bytes entries trailer objects ∧ objects.filterMap Object.stream = [stream] ∧
      literals stream = some shown ∧ shown.map latinText = ["Outcome: (a \\ b)", ""] :=
  deterministicPdf_wellFormed (by simp)

end AgreementIntelligence.Reviews
