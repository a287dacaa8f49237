import AgreementIntelligence.Lib.JsonText

/-! Quoted texts of a JSON document. A quoted text is told from what follows it, so a document that
quotes texts one after another quotes no other texts. -/

namespace AgreementIntelligence.Lib.Json
open Sha256

/-! Reading an escape back -/

def digitValue (c : Char) : ℕ :=
  if c.toNat ≤ 57 then c.toNat - 48 else c.toNat - 87

def hexValue (digits : List Char) : ℕ :=
  digits.foldl (fun value digit => 16 * value + digitValue digit) 0

/-- The character that stands behind a backslash. -/
def escapedChar (c : Char) : Char :=
  if c = 'n' then '\n'
  else if c = 'r' then '\r'
  else if c = 't' then '\t'
  else if c = 'b' then Char.ofNat 8
  else if c = 'f' then Char.ofNat 12
  else c

/-- The first character that a quoted text spells, and what is left of the text. -/
def readChar : List Char → Option (Char × List Char)
  | '\\' :: 'u' :: rest =>
    let unit := hexValue (rest.take 4)
    if 0xD800 ≤ unit ∧ unit < 0xE000 then
      let low := hexValue ((rest.drop 6).take 4)
      some (Char.ofNat (0x10000 + (unit - 0xD800) * 0x400 + (low - 0xDC00)), rest.drop 10)
    else some (Char.ofNat unit, rest.drop 4)
  | '\\' :: c :: rest => some (escapedChar c, rest)
  | c :: rest => some (c, rest)
  | [] => none

theorem digitValue_hex : ∀ digit < 16,
    digitValue ("0123456789abcdef".toList.getD digit '0') = digit := by decide

theorem hexValue_hexDigits {unit : ℕ} (small : unit < 0x10000) :
    hexValue (hexDigits 4 unit) = unit := by
  have digit (place : ℕ) := digitValue_hex (unit / 16 ^ place % 16) (Nat.mod_lt _ (by decide))
  have four : (List.range 4).reverse = [3, 2, 1, 0] := rfl
  rw [hexDigits, four, hexValue]
  simp only [List.map_cons, List.map_nil, List.foldl_cons, List.foldl_nil, digit]
  omega

theorem length_hexDigits (digits value : ℕ) : (hexDigits digits value).length = digits := by
  simp [hexDigits]

theorem readChar_escapeUnit {unit : ℕ} (small : unit < 0x10000)
    (plain : unit < 0xD800 ∨ 0xE000 ≤ unit) (rest : List Char) :
    readChar (escapeUnit unit ++ rest) = some (Char.ofNat unit, rest) := by
  have four := length_hexDigits 4 unit
  have value : hexValue ((hexDigits 4 unit ++ rest).take 4) = unit := by
    rw [List.take_left' four, hexValue_hexDigits small]
  have apart : ¬ (0xD800 ≤ unit ∧ unit < 0xE000) := by omega
  rw [escapeUnit, List.cons_append, List.cons_append, readChar, value, if_neg apart,
    List.drop_left' four]

/-- A character above the basic plane is read back from its two units. -/
theorem readChar_surrogates {value : ℕ} (above : 0x10000 ≤ value) (small : value < 0x110000)
    (rest : List Char) :
    readChar (escapeUnit (0xD800 + (value - 0x10000) / 0x400) ++
      escapeUnit (0xDC00 + (value - 0x10000) % 0x400) ++ rest) = some (Char.ofNat value, rest) := by
  set high := 0xD800 + (value - 0x10000) / 0x400 with isHigh
  set low := 0xDC00 + (value - 0x10000) % 0x400 with isLow
  have fourHigh := length_hexDigits 4 high
  have fourLow := length_hexDigits 4 low
  have highValue : hexValue ((hexDigits 4 high ++ (escapeUnit low ++ rest)).take 4) = high := by
    rw [List.take_left' fourHigh, hexValue_hexDigits (by omega)]
  have behind (more : ℕ) : (hexDigits 4 high ++ (escapeUnit low ++ rest)).drop (4 + more) =
      (escapeUnit low ++ rest).drop more := by
    rw [← List.drop_drop, List.drop_left' fourHigh]
  have lowValue : hexValue (((hexDigits 4 high ++ (escapeUnit low ++ rest)).drop 6).take 4) =
      low := by
    rw [behind 2, escapeUnit, List.cons_append, List.cons_append, List.drop_succ_cons,
      List.drop_succ_cons, List.drop_zero, List.take_left' fourLow,
      hexValue_hexDigits (by omega)]
  have left : (hexDigits 4 high ++ (escapeUnit low ++ rest)).drop 10 = rest := by
    rw [behind 6, escapeUnit, List.cons_append, List.cons_append, List.drop_succ_cons,
      List.drop_succ_cons, List.drop_left' fourLow]
  have surrogate : 0xD800 ≤ high ∧ high < 0xE000 := by omega
  have same : 0x10000 + (high - 0xD800) * 0x400 + (low - 0xDC00) = value := by omega
  rw [List.append_assoc]
  conv_lhs => rw [escapeUnit, List.cons_append, List.cons_append]
  rw [readChar, highValue, if_pos surrogate, lowValue, left]
  simp only [same]

theorem toNat_bounds (c : Char) : c.toNat < 0xD800 ∨ 0xE000 ≤ c.toNat ∧ c.toNat < 0x110000 := by
  rcases c.valid with low | ⟨above, below⟩
  · exact .inl low
  · exact .inr ⟨above, below⟩

theorem readChar_plain {c : Char} (plain : c ≠ '\\') (rest : List Char) :
    readChar (c :: rest) = some (c, rest) := by
  unfold readChar
  split <;> simp_all

theorem eq_ofNat {c : Char} {n : ℕ} (same : c.toNat = n) : c = Char.ofNat n := by
  rw [← same, Char.ofNat_toNat]

theorem readChar_escapeChar (c : Char) (rest : List Char) :
    readChar (escapeChar c ++ rest) = some (c, rest) := by
  have bounds := toNat_bounds c
  unfold escapeChar
  split_ifs with quote slash newline ret tab back feed printable basic
  · rw [quote]; rfl
  · rw [slash]; rfl
  · rw [newline]; rfl
  · rw [ret]; rfl
  · rw [tab]; rfl
  · rw [eq_ofNat back]; rfl
  · rw [eq_ofNat feed]; rfl
  · exact readChar_plain slash rest
  · rw [readChar_escapeUnit basic (by omega), Char.ofNat_toNat]
  · rw [readChar_surrogates (by omega) (by omega), Char.ofNat_toNat]

theorem head_escapeChar (c : Char) (rest : List Char) :
    (escapeChar c ++ rest).head? ≠ some '"' := by
  unfold escapeChar
  split_ifs <;> simp_all [escapeUnit]

/-! Quoted texts -/

theorem escaped_inj {first second rest other : List Char}
    (same : first.flatMap escapeChar ++ '"' :: rest = second.flatMap escapeChar ++ '"' :: other) :
    first = second ∧ rest = other := by
  induction first generalizing second with
  | nil =>
      cases second with
      | nil => simpa using same
      | cons d later =>
          have head := congrArg List.head? same
          rw [List.flatMap_cons, List.append_assoc] at head
          exact absurd head.symm (head_escapeChar d _)
  | cons c earlier ih =>
      cases second with
      | nil =>
          have head := congrArg List.head? same
          rw [List.flatMap_cons, List.append_assoc] at head
          exact absurd head (head_escapeChar c _)
      | cons d later =>
          have read := congrArg readChar same
          rw [List.flatMap_cons, List.flatMap_cons, List.append_assoc, List.append_assoc,
            readChar_escapeChar, readChar_escapeChar, Option.some.injEq, Prod.mk.injEq] at read
          have tails := ih read.2
          exact ⟨by rw [read.1, tails.1], tails.2⟩

/-- A quoted text and what follows it are known from the two in a row. -/
theorem quoteText_inj {text other : String} {rest more : List Char}
    (same : (quoteText text).toList ++ rest = (quoteText other).toList ++ more) :
    text = other ∧ rest = more := by
  simp only [quoteText, String.toList_ofList, List.cons_append, List.append_assoc, List.cons.injEq,
    true_and, List.nil_append] at same
  have parts := escaped_inj same
  exact ⟨String.toList_injective parts.1, parts.2⟩

/-- What stands behind the first text of a list: nothing, or a comma and the other texts. -/
def behindFirst : List String → List Char
  | [] => []
  | next :: later => ',' :: (",".intercalate ((next :: later).map quoteText)).toList

theorem toList_quoteTexts (first : String) (rest : List String) :
    (",".intercalate ((first :: rest).map quoteText)).toList =
      (quoteText first).toList ++ behindFirst rest := by
  cases rest with
  | nil => simp [behindFirst]
  | cons next later =>
      rw [List.map_cons, List.map_cons, String.intercalate_cons_cons, ← List.map_cons,
        String.toList_append, String.toList_append, behindFirst, List.append_assoc]
      rfl

/-- A quoted text opens with a quotation mark. -/
theorem head_quoteText (text : String) (rest : List Char) :
    ((quoteText text).toList ++ rest).head? = some '"' := by
  simp [quoteText]

/-- A list of texts up to its closing bracket and what follows are known from the two in a row. -/
theorem quoteTexts_inj {texts others : List String} {rest more : List Char}
    (same : (",".intercalate (texts.map quoteText)).toList ++ ']' :: rest =
      (",".intercalate (others.map quoteText)).toList ++ ']' :: more) :
    texts = others ∧ rest = more := by
  induction texts generalizing others with
  | nil =>
      cases others with
      | nil => simpa using same
      | cons other later =>
          have head := congrArg List.head? same
          rw [toList_quoteTexts, List.append_assoc, head_quoteText] at head
          simp at head
  | cons text earlier ih =>
      cases others with
      | nil =>
          have head := congrArg List.head? same
          rw [toList_quoteTexts, List.append_assoc, head_quoteText] at head
          simp at head
      | cons other later =>
          rw [toList_quoteTexts, toList_quoteTexts, List.append_assoc, List.append_assoc] at same
          obtain ⟨rfl, behind⟩ := quoteText_inj same
          cases earlier with
          | nil =>
              cases later with
              | nil => simpa [behindFirst] using behind
              | cons next others => simp [behindFirst] at behind
          | cons next texts =>
              cases later with
              | nil => simp [behindFirst] at behind
              | cons wanted others =>
                  simp only [behindFirst, List.cons_append, List.cons.injEq, true_and] at behind
                  have tails := ih behind
                  exact ⟨by rw [tails.1], tails.2⟩

end AgreementIntelligence.Lib.Json
