import AgreementIntelligence.Lib.Sha256
import Mathlib.Data.List.Basic

/-! Reading files of the Portable Document Format whose structure stands on lines of its own: the
table of cross references at its offset, the trailer behind it, each object at the offset that the
table gives, streams by their length, and the literal strings of a content stream. The reader
accepts less than the format allows and nothing that it forbids. -/

namespace AgreementIntelligence.Lib.Pdf
open Sha256

/-! Lines, words and numbers -/

/-- The bytes before the next line feed and those behind it. -/
def readLine : List UInt8 → Option (List UInt8 × List UInt8)
  | [] => none
  | b :: rest =>
    if b = 10 then some ([], rest)
    else (readLine rest).map fun read => (b :: read.1, read.2)

/-- What follows a line that is expected. -/
def expectLine (line bytes : List UInt8) : Option (List UInt8) :=
  (readLine bytes).bind fun read => if read.1 = line then some read.2 else none

/-- The words of a line, between single blanks. -/
def words : List UInt8 → List (List UInt8)
  | [] => [[]]
  | b :: rest =>
    if b = 32 then [] :: words rest
    else match words rest with
      | [] => [[b]]
      | word :: others => (b :: word) :: others

def isDigit (b : UInt8) : Bool :=
  48 ≤ b && b ≤ 57

def readNat (digits : List UInt8) : Option Nat :=
  if digits ≠ [] ∧ digits.all isDigit then
    some (digits.foldl (fun n b => 10 * n + (b.toNat - 48)) 0)
  else none

theorem readLine_append {line : List UInt8} (plain : 10 ∉ line) (rest : List UInt8) :
    readLine (line ++ 10 :: rest) = some (line, rest) := by
  induction line with
  | nil => rfl
  | cons b line ih =>
      rw [List.mem_cons, not_or] at plain
      rw [List.cons_append, readLine, if_neg (Ne.symm plain.1), ih plain.2]
      rfl

theorem expectLine_append {line : List UInt8} (plain : 10 ∉ line) (rest : List UInt8) :
    expectLine line (line ++ 10 :: rest) = some rest := by
  rw [expectLine, readLine_append plain, Option.bind_some, if_pos rfl]

theorem words_append {word : List UInt8} (plain : 32 ∉ word) (rest : List UInt8) :
    words (word ++ 32 :: rest) = word :: words rest := by
  induction word with
  | nil => rfl
  | cons b word ih =>
      rw [List.mem_cons, not_or] at plain
      rw [List.cons_append, words, if_neg (Ne.symm plain.1), ih plain.2]

theorem words_word {word : List UInt8} (plain : 32 ∉ word) : words word = [word] := by
  induction word with
  | nil => rfl
  | cons b word ih =>
      rw [List.mem_cons, not_or] at plain
      rw [words, if_neg (Ne.symm plain.1), ih plain.2]

theorem utf8_append (first second : String) : utf8 (first ++ second) = utf8 first ++ utf8 second := by
  rw [utf8, String.toList_append, List.flatMap_append, ← utf8, ← utf8]

/-- The bytes of decimal digits. -/
def digitBytes (digits : List Char) : List UInt8 :=
  digits.map fun c => UInt8.ofNat c.toNat

theorem utf8EncodeChar_digit {c : Char} (digit : c.isDigit = true) :
    String.utf8EncodeChar c = [UInt8.ofNat c.toNat] := by
  rw [Char.isDigit, Bool.and_eq_true, decide_eq_true_eq, decide_eq_true_eq] at digit
  have small : c.val.toNat ≤ 57 := digit.2
  simp only [String.utf8EncodeChar]
  rw [if_pos (by omega)]
  rfl

theorem utf8_digits {digits : List Char} (all : ∀ c ∈ digits, c.isDigit = true) :
    utf8 (String.ofList digits) = digitBytes digits := by
  rw [utf8, String.toList_ofList, digitBytes]
  induction digits with
  | nil => rfl
  | cons c rest ih =>
      rw [List.forall_mem_cons] at all
      rw [List.flatMap_cons, utf8EncodeChar_digit all.1, ih all.2]
      rfl

theorem toNat_digitByte {c : Char} (digit : c.isDigit = true) :
    (UInt8.ofNat c.toNat).toNat = c.toNat := by
  rw [Char.isDigit, Bool.and_eq_true, decide_eq_true_eq, decide_eq_true_eq] at digit
  have small : c.val.toNat ≤ 57 := digit.2
  have same : c.toNat = c.val.toNat := rfl
  rw [UInt8.toNat_ofNat']
  exact Nat.mod_eq_of_lt (by omega)

theorem isDigit_digitByte {c : Char} (digit : c.isDigit = true) :
    isDigit (UInt8.ofNat c.toNat) = true := by
  have same := toNat_digitByte digit
  rw [Char.isDigit, Bool.and_eq_true, decide_eq_true_eq, decide_eq_true_eq] at digit
  have low : 48 ≤ c.toNat := digit.1
  have high : c.toNat ≤ 57 := digit.2
  rw [isDigit, Bool.and_eq_true, decide_eq_true_eq, decide_eq_true_eq, UInt8.le_iff_toNat_le,
    UInt8.le_iff_toNat_le, same]
  exact ⟨low, high⟩

theorem readNat_digitBytes {digits : List Char} (all : ∀ c ∈ digits, c.isDigit = true)
    (some_ : digits ≠ []) : readNat (digitBytes digits) = some (Nat.ofDigitChars 10 digits 0) := by
  have digits_ : (digitBytes digits).all isDigit = true := by
    rw [digitBytes, List.all_map, List.all_eq_true]
    exact fun c member => isDigit_digitByte (all c member)
  rw [readNat, if_pos ⟨by simpa [digitBytes] using some_, digits_⟩, Nat.ofDigitChars_eq_foldl,
    digitBytes, List.foldl_map]
  congr 1
  apply List.foldl_ext
  intro n c member
  rw [toNat_digitByte (all c member)]
  rfl

/-- The bytes of a number in decimal digits. -/
def decimal (n : ℕ) : List UInt8 :=
  utf8 (toString n)

theorem isDigit_toDigits {n : ℕ} : ∀ c ∈ Nat.toDigits 10 n, c.isDigit = true :=
  fun _ member => Nat.isDigit_of_mem_toDigits (by decide) (by decide) member

theorem decimal_eq (n : ℕ) : decimal n = digitBytes (Nat.toDigits 10 n) := by
  rw [decimal, ← utf8_digits isDigit_toDigits, ← Nat.toList_repr, String.ofList_toList]
  rfl

theorem readNat_decimal (n : ℕ) : readNat (decimal n) = some n := by
  rw [decimal_eq, readNat_digitBytes isDigit_toDigits Nat.toDigits_ne_nil,
    Nat.ofDigitChars_ten_toDigits]

/-- Digits are neither blanks nor line feeds. -/
theorem digitBytes_plain {digits : List Char} (all : ∀ c ∈ digits, c.isDigit = true) {b : UInt8}
    (other : b.toNat < 48) : b ∉ digitBytes digits := by
  intro member
  obtain ⟨c, listed, rfl⟩ := List.mem_map.mp member
  have digit := isDigit_digitByte (all c listed)
  rw [isDigit, Bool.and_eq_true, decide_eq_true_eq, UInt8.le_iff_toNat_le] at digit
  have low : (48 : UInt8).toNat = 48 := rfl
  omega

theorem decimal_plain (n : ℕ) {b : UInt8} (other : b.toNat < 48) : b ∉ decimal n := by
  rw [decimal_eq]
  exact digitBytes_plain isDigit_toDigits other

/-! The table of cross references and the trailer -/

structure Entry where
  offset : ℕ
  generation : ℕ
  inUse : Bool
deriving DecidableEq

/-- An entry: ten digits, five digits, `n` or `f` and two bytes of line end. -/
def readEntry (line : List UInt8) : Option Entry :=
  match words line with
  | [offset, generation, kind, []] =>
    if offset.length = 10 ∧ generation.length = 5 ∧ (kind = utf8 "n" ∨ kind = utf8 "f") then
      (readNat offset).bind fun offset => (readNat generation).map fun generation =>
        ⟨offset, generation, kind = utf8 "n"⟩
    else none
  | _ => none

def readEntries : ℕ → List UInt8 → Option (List Entry × List UInt8)
  | 0, bytes => some ([], bytes)
  | count + 1, bytes =>
    (readLine bytes).bind fun read => (readEntry read.1).bind fun entry =>
      (readEntries count read.2).map fun later => (entry :: later.1, later.2)

/-- A table with one section that begins with object zero. -/
def readTable (bytes : List UInt8) : Option (List Entry × List UInt8) :=
  (expectLine (utf8 "xref") bytes).bind fun bytes => (readLine bytes).bind fun read =>
    match words read.1 with
    | [first, count] =>
      if readNat first = some 0 then (readNat count).bind fun count => readEntries count read.2
      else none
    | _ => none

/-- A dictionary on one line. -/
def isDictionary (line : List UInt8) : Bool :=
  (words line).head? = some (utf8 "<<") && (words line).getLast? = some (utf8 ">>")

/-- The number under a key of a dictionary. -/
def numberAt (key : String) (dictionary : List UInt8) : Option ℕ :=
  ((words dictionary).dropWhile fun word => word ≠ utf8 key)[1]?.bind readNat

structure Trailer where
  size : ℕ
  /-- Where the table stands. -/
  start : ℕ
deriving DecidableEq

/-- The trailer, with which a file ends. -/
def readTrailer (bytes : List UInt8) : Option Trailer :=
  (expectLine (utf8 "trailer") bytes).bind fun bytes => (readLine bytes).bind fun dictionary =>
    (expectLine (utf8 "startxref") dictionary.2).bind fun bytes => (readLine bytes).bind fun start =>
      (expectLine (utf8 "%%EOF") start.2).bind fun bytes =>
        if isDictionary dictionary.1 ∧ bytes = [] then
          (numberAt "/Size" dictionary.1).bind fun size => (readNat start.1).map fun start =>
            ⟨size, start⟩
        else none

/-! Objects -/

structure Object where
  dictionary : List UInt8
  stream : Option (List UInt8)
deriving DecidableEq

/-- What follows the dictionary of an object: its end, or a stream of the length that the
dictionary gives. -/
def readBody (dictionary bytes : List UInt8) : Option Object :=
  (readLine bytes).bind fun keyword =>
    if keyword.1 = utf8 "endobj" then some ⟨dictionary, none⟩
    else if keyword.1 = utf8 "stream" then
      (numberAt "/Length" dictionary).bind fun length =>
        (expectLine (utf8 "endstream") (keyword.2.drop length)).bind fun bytes =>
          (expectLine (utf8 "endobj") bytes).map fun _ =>
            ⟨dictionary, some (keyword.2.take length)⟩
    else none

/-- The object of a number, where its offset leads. -/
def readObject (number : ℕ) (bytes : List UInt8) : Option Object :=
  (expectLine (decimal number ++ utf8 " 0 obj") bytes).bind fun bytes =>
    (readLine bytes).bind fun dictionary =>
      if isDictionary dictionary.1 then readBody dictionary.1 dictionary.2 else none

/-- The table stands where the trailer says and has an entry for each object, which leads to the
object, behind the free entry zero. -/
structure WellFormed (bytes : List UInt8) (entries : List Entry) (trailer : Trailer)
    (objects : List Object) : Prop where
  header : utf8 "%PDF-1." <+: bytes
  table : ∃ rest, readTable (bytes.drop trailer.start) = some (entries, rest) ∧
    readTrailer rest = some trailer
  size : trailer.size = objects.length + 1
  free : entries.head? = some ⟨0, 65535, false⟩
  count : entries.length = objects.length + 1
  leads : ∀ k object, objects[k]? = some object → ∃ offset,
    entries[k + 1]? = some ⟨offset, 0, true⟩ ∧ readObject (k + 1) (bytes.drop offset) = some object

/-! Literal strings -/

inductive Mode where
  | outside
  | text (depth : ℕ)
  | escape (depth : ℕ)
  | octal (depth digits value : ℕ)
  | afterReturn (depth : ℕ)
deriving DecidableEq

/-- What was read of a content stream: the string that is open and those before it. -/
structure Scan where
  mode : Mode
  current : List UInt8
  found : List (List UInt8)

/-- A byte in a string. Parentheses in pairs belong to it; an end of line, however it is written,
is a line feed. -/
def scanText (scan : Scan) (depth : ℕ) (b : UInt8) : Scan :=
  if b = 92 then { scan with mode := .escape depth }
  else if b = 40 then { scan with mode := .text (depth + 1), current := scan.current ++ [b] }
  else if b = 41 then
    match depth with
    | 0 => ⟨.outside, [], scan.found ++ [scan.current]⟩
    | depth + 1 => { scan with mode := .text depth, current := scan.current ++ [b] }
  else if b = 13 then { scan with mode := .afterReturn depth, current := scan.current ++ [10] }
  else { scan with mode := .text depth, current := scan.current ++ [b] }

def isOctal (b : UInt8) : Bool :=
  48 ≤ b && b ≤ 55

/-- The byte behind a backslash. -/
def scanEscape (scan : Scan) (depth : ℕ) (b : UInt8) : Scan :=
  if isOctal b then { scan with mode := .octal depth 1 (b.toNat - 48) }
  else if b = 10 then { scan with mode := .text depth }
  else if b = 13 then { scan with mode := .afterReturn depth }
  else
    let read : UInt8 := if b = 110 then 10 else if b = 114 then 13 else if b = 116 then 9
      else if b = 98 then 8 else if b = 102 then 12 else b
    { scan with mode := .text depth, current := scan.current ++ [read] }

/-- One byte of a content stream without comments, dictionaries and hexadecimal strings. -/
def scanByte (scan : Scan) (b : UInt8) : Option Scan :=
  match scan.mode with
  | .outside =>
    if b = 40 then some { scan with mode := .text 0 }
    else if b ∈ utf8 ")<>%" then none
    else some scan
  | .text depth => some (scanText scan depth b)
  | .escape depth => some (scanEscape scan depth b)
  | .octal depth digits value =>
    if isOctal b ∧ digits < 3 then
      some { scan with mode := .octal depth (digits + 1) (8 * value + (b.toNat - 48)) }
    else some (scanText { scan with current := scan.current ++ [UInt8.ofNat value] } depth b)
  | .afterReturn depth =>
    if b = 10 then some { scan with mode := .text depth } else some (scanText scan depth b)

/-- The literal strings of a content stream, in their order. -/
def literals (stream : List UInt8) : Option (List (List UInt8)) :=
  (stream.foldlM scanByte ⟨.outside, [], []⟩).bind fun scan =>
    if scan.mode = .outside then some scan.found else none

/-- A string with a backslash before each backslash and each parenthesis. -/
def escape (text : List UInt8) : List UInt8 :=
  text.flatMap fun b => if b = 92 ∨ b = 40 ∨ b = 41 then [92, b] else [b]

theorem scan_outside {bytes : List UInt8} (plain : ∀ b ∈ bytes, b ∉ utf8 "()<>%")
    (found : List (List UInt8)) :
    bytes.foldlM scanByte ⟨.outside, [], found⟩ = some ⟨.outside, [], found⟩ := by
  induction bytes with
  | nil => rfl
  | cons b rest ih =>
      rw [List.forall_mem_cons] at plain
      have others : b ≠ 40 ∧ b ∉ utf8 ")<>%" := by
        simpa [utf8, String.utf8EncodeChar] using plain.1
      rw [List.foldlM_cons, scanByte]
      simp only [if_neg others.1, if_neg others.2]
      exact ih plain.2

theorem scan_escape {text : List UInt8} (noReturn : 13 ∉ text) (current : List UInt8)
    (found : List (List UInt8)) (rest : List UInt8) :
    (escape text ++ rest).foldlM scanByte ⟨.text 0, current, found⟩ =
      rest.foldlM scanByte ⟨.text 0, current ++ text, found⟩ := by
  induction text generalizing current with
  | nil => rw [escape, List.flatMap_nil, List.nil_append, List.append_nil]
  | cons b text ih =>
      rw [List.mem_cons, not_or] at noReturn
      rw [escape, List.flatMap_cons, List.append_assoc, ← escape]
      have step : ((if b = 92 ∨ b = 40 ∨ b = 41 then [92, b] else [b]) ++
          (escape text ++ rest)).foldlM scanByte ⟨.text 0, current, found⟩ =
            (escape text ++ rest).foldlM scanByte ⟨.text 0, current ++ [b], found⟩ := by
        split_ifs with special
        · rcases special with rfl | rfl | rfl <;> rfl
        · rw [not_or, not_or] at special
          simp only [List.singleton_append, List.foldlM_cons, scanByte, scanText,
            if_neg special.1, if_neg special.2.1, if_neg special.2.2, if_neg (Ne.symm noReturn.1)]
          rfl
      rw [step, ih noReturn.2, List.append_assoc, List.singleton_append]

theorem scan_literal {text : List UInt8} (noReturn : 13 ∉ text) (found : List (List UInt8))
    (rest : List UInt8) :
    (40 :: escape text ++ 41 :: rest).foldlM scanByte ⟨.outside, [], found⟩ =
      rest.foldlM scanByte ⟨.outside, [], found ++ [text]⟩ := by
  rw [List.cons_append, List.foldlM_cons, scanByte]
  exact scan_escape noReturn [] found (41 :: rest)

/-! Entries, trailers and objects as they are written -/

theorem readEntry_used {digits : List Char} (all : ∀ c ∈ digits, c.isDigit = true)
    (ten : digits.length = 10) : readEntry (digitBytes digits ++ utf8 " 00000 n ") =
      some ⟨Nat.ofDigitChars 10 digits 0, 0, true⟩ := by
  have some_ : digits ≠ [] := by
    rintro rfl
    cases ten
  have length : (digitBytes digits).length = 10 := by rw [digitBytes, List.length_map, ten]
  have split : words (digitBytes digits ++ utf8 " 00000 n ") =
      [digitBytes digits, utf8 "00000", utf8 "n", []] :=
    words_append (digitBytes_plain all (by decide)) (utf8 "00000 n ")
  have zero : readNat (utf8 "00000") = some 0 := rfl
  rw [readEntry, split]
  have known : (digitBytes digits).length = 10 ∧ (utf8 "00000").length = 5 ∧
      (utf8 "n" = utf8 "n" ∨ utf8 "n" = utf8 "f") := ⟨length, rfl, Or.inl rfl⟩
  refine (if_pos known).trans ?_
  rw [readNat_digitBytes all some_, zero]
  rfl

theorem readEntries_cons {line : List UInt8} (plain : 10 ∉ line) {entry : Entry}
    (reads : readEntry line = some entry) {count : ℕ} {rest left : List UInt8}
    {entries : List Entry} (later : readEntries count rest = some (entries, left)) :
    readEntries (count + 1) (line ++ 10 :: rest) = some (entry :: entries, left) := by
  rw [readEntries, readLine_append plain, Option.bind_some, reads, Option.bind_some, later]
  rfl

theorem readTable_append (count : ℕ) (bytes : List UInt8) :
    readTable (utf8 "xref\n0 " ++ decimal count ++ 10 :: bytes) = readEntries count bytes := by
  have section_ : 10 ∉ utf8 "0 " ++ decimal count := by
    rw [List.mem_append, not_or]
    exact ⟨by decide, decimal_plain count (by decide)⟩
  have split : words (utf8 "0 " ++ decimal count) = [utf8 "0", decimal count] := by
    have line : utf8 "0 " ++ decimal count = utf8 "0" ++ 32 :: decimal count := rfl
    rw [line, words_append (by decide), words_word (decimal_plain count (by decide))]
  have first : readNat (utf8 "0") = some 0 := rfl
  have line : utf8 "xref\n0 " ++ decimal count ++ 10 :: bytes =
      utf8 "xref" ++ 10 :: (utf8 "0 " ++ decimal count ++ 10 :: bytes) := rfl
  rw [readTable, line, expectLine_append (by decide), Option.bind_some, readLine_append section_,
    Option.bind_some, split]
  simp only
  rw [if_pos first, readNat_decimal, Option.bind_some]

section Number
variable {key : String} (n : ℕ) (rest : List UInt8)

/-- A dictionary that begins with a number under a key. -/
theorem words_number (plain : 32 ∉ utf8 key) :
    words (utf8 "<< " ++ utf8 key ++ 32 :: (decimal n ++ 32 :: rest)) = utf8 "<<" :: utf8 key :: decimal n :: words rest := by
  have line : utf8 "<< " ++ utf8 key ++ 32 :: (decimal n ++ 32 :: rest) =
      utf8 "<<" ++ 32 :: (utf8 key ++ 32 :: (decimal n ++ 32 :: rest)) := rfl
  rw [line, words_append (by decide), words_append plain,
    words_append (decimal_plain n (by decide))]

theorem numberAt_number (plain : 32 ∉ utf8 key) (other : utf8 "<<" ≠ utf8 key) :
    numberAt key (utf8 "<< " ++ utf8 key ++ 32 :: (decimal n ++ 32 :: rest)) = some n := by
  rw [numberAt, words_number n rest plain]
  simp [other, readNat_decimal]

theorem isDictionary_number (plain : 32 ∉ utf8 key)
    (closed : (words rest).getLast? = some (utf8 ">>")) :
    isDictionary (utf8 "<< " ++ utf8 key ++ 32 :: (decimal n ++ 32 :: rest)) = true := by
  rw [isDictionary, words_number n rest plain]
  simp [List.getLast?_cons, closed]

end Number

theorem readBody_plain (dictionary rest : List UInt8) :
    readBody dictionary (utf8 "endobj\n" ++ rest) = some ⟨dictionary, none⟩ := by
  have line : utf8 "endobj\n" ++ rest = utf8 "endobj" ++ 10 :: rest := rfl
  rw [readBody, line, readLine_append (by decide), Option.bind_some, if_pos rfl]

theorem readBody_stream {dictionary stream : List UInt8}
    (length : numberAt "/Length" dictionary = some stream.length) (rest : List UInt8) :
    readBody dictionary (utf8 "stream\n" ++ stream ++ utf8 "endstream\nendobj\n" ++ rest) =
      some ⟨dictionary, some stream⟩ := by
  have line : utf8 "stream\n" ++ stream ++ utf8 "endstream\nendobj\n" ++ rest =
      utf8 "stream" ++ 10 :: (stream ++ utf8 "endstream\nendobj\n" ++ rest) := by
    simp only [List.append_assoc]
    rfl
  have last : utf8 "endstream\nendobj\n" ++ rest =
      utf8 "endstream" ++ 10 :: (utf8 "endobj" ++ 10 :: rest) := rfl
  have other : utf8 "stream" ≠ utf8 "endobj" := by decide
  rw [readBody, line, readLine_append (by decide), Option.bind_some, if_neg other, if_pos rfl,
    length, Option.bind_some, List.append_assoc, List.drop_left, List.take_left, last,
    expectLine_append (by decide), Option.bind_some, expectLine_append (by decide)]
  rfl

theorem readObject_append {number : ℕ} {dictionary : List UInt8} (plain : 10 ∉ dictionary)
    (delimited : isDictionary dictionary = true) (body : List UInt8) :
    readObject number (decimal number ++ utf8 " 0 obj\n" ++ dictionary ++ 10 :: body) =
      readBody dictionary body := by
  have header : 10 ∉ decimal number ++ utf8 " 0 obj" := by
    rw [List.mem_append, not_or]
    exact ⟨decimal_plain number (by decide), by decide⟩
  have line : decimal number ++ utf8 " 0 obj\n" ++ dictionary ++ 10 :: body =
      decimal number ++ utf8 " 0 obj" ++ 10 :: (dictionary ++ 10 :: body) := by
    simp only [List.append_assoc]
    rfl
  rw [readObject, line, expectLine_append header, Option.bind_some, readLine_append plain,
    Option.bind_some, if_pos delimited]

end AgreementIntelligence.Lib.Pdf
