import AgreementIntelligence.Identity

/-! Python's `UUID(text)`. The constructor drops every `urn:` and `uuid:`, strips braces at
both ends, drops hyphens, and hands the 32 characters that must remain to `int(…, 16)`,
which takes white space around the number, a sign, a `0x` prefix, single underscores between
digits and the decimal digits of every script. Hyphens are gone by then, so the value is
never negative and 32 digits never exceed 128 bits. -/

namespace AgreementIntelligence.UuidText
open Identity

/-- `text.replace(pattern, "")`, where `skip` characters of a match are still to be
dropped. -/
def removeFrom (pattern : List Char) : Nat → List Char → List Char
  | _, [] => []
  | skip + 1, _ :: rest => removeFrom pattern skip rest
  | 0, c :: rest =>
    if pattern.isPrefixOf (c :: rest) then removeFrom pattern (pattern.length - 1) rest
    else c :: removeFrom pattern 0 rest

def strip (drops : Char → Bool) (text : List Char) : List Char :=
  (((text.dropWhile drops).reverse).dropWhile drops).reverse

/-- The white space that `int` skips. -/
def isSpace (c : Char) : Bool :=
  (9 ≤ c.toNat && c.toNat ≤ 13) || (0x2000 ≤ c.toNat && c.toNat ≤ 0x200A) ||
    c.toNat ∈ [0x20, 0x85, 0xA0, 0x1680, 0x2028, 0x2029, 0x202F, 0x205F, 0x3000]

/-- The code points of the zeros of the Unicode decimal digits outside ASCII. -/
def decimalZeros : List Nat :=
  [0x660, 0x6F0, 0x7C0, 0x966, 0x9E6, 0xA66, 0xAE6, 0xB66, 0xBE6, 0xC66, 0xCE6, 0xD66, 0xDE6,
    0xE50, 0xED0, 0xF20, 0x1040, 0x1090, 0x17E0, 0x1810, 0x1946, 0x19D0, 0x1A80, 0x1A90, 0x1B50,
    0x1BB0, 0x1C40, 0x1C50, 0xA620, 0xA8D0, 0xA900, 0xA9D0, 0xA9F0, 0xAA50, 0xABF0, 0xFF10,
    0x104A0, 0x10D30, 0x11066, 0x110F0, 0x11136, 0x111D0, 0x112F0, 0x11450, 0x114D0, 0x11650,
    0x116C0, 0x11730, 0x118E0, 0x11950, 0x11C50, 0x11D50, 0x11DA0, 0x11F50, 0x16A60, 0x16AC0,
    0x16B50, 0x1D7CE, 0x1D7D8, 0x1D7E2, 0x1D7EC, 0x1D7F6, 0x1E140, 0x1E2F0, 0x1E4F0, 0x1E950,
    0x1FBF0]

/-- The value of a digit to base 16. -/
def digit? (c : Char) : Option Nat :=
  if 48 ≤ c.toNat ∧ c.toNat ≤ 57 then some (c.toNat - 48)
  else if 97 ≤ c.toNat ∧ c.toNat ≤ 102 then some (c.toNat - 87)
  else if 65 ≤ c.toNat ∧ c.toNat ≤ 70 then some (c.toNat - 55)
  else (decimalZeros.find? fun base => base ≤ c.toNat ∧ c.toNat < base + 10).map (c.toNat - ·)

/-- Digits with single underscores between them. -/
def digits? (value : Nat) (afterDigit : Bool) : List Char → Option Nat
  | [] => if afterDigit then some value else none
  | c :: rest =>
    if c = '_' then if afterDigit then digits? value false rest else none
    else match digit? c with
      | none => none
      | some d => digits? (16 * value + d) true rest

def afterPrefix : List Char → List Char
  | '0' :: 'x' :: '_' :: rest => rest
  | '0' :: 'X' :: '_' :: rest => rest
  | '0' :: 'x' :: rest => rest
  | '0' :: 'X' :: rest => rest
  | text => text

def afterSign : List Char → List Char
  | '+' :: rest => rest
  | text => text

/-- `int(text, 16)` for a text without a minus sign. -/
def int16? (text : List Char) : Option Nat :=
  digits? 0 false (afterPrefix (afterSign (strip isSpace text)))

def bareText (text : String) : List Char :=
  (strip (fun c => c = '\x7b' || c = '\x7d') (removeFrom "uuid:".toList 0
    (removeFrom "urn:".toList 0 text.toList))).filter (· ≠ '-')

/-- `UUID(text)`, `none` when it raises `ValueError`. -/
def parse? (text : String) : Option Uuid :=
  if (bareText text).length = 32 then (int16? (bareText text)).map .ofNat else none

theorem removeFrom_eq_self {first : Char} {pattern text : List Char} (absent : first ∉ text) :
    removeFrom (first :: pattern) 0 text = text := by
  induction text with
  | nil => rfl
  | cons c rest ih =>
      have other : first ≠ c := fun same => absent (same ▸ List.mem_cons_self)
      have apart : (first :: pattern).isPrefixOf (c :: rest) = false := by
        simp [List.isPrefixOf, other]
      rw [removeFrom, apart, if_neg Bool.false_ne_true,
        ih fun later => absent (List.mem_cons_of_mem c later)]

theorem strip_eq_self {drops : Char → Bool} {text : List Char}
    (keeps : ∀ c ∈ text, drops c = false) : strip drops text = text := by
  have settled : ∀ {chars : List Char}, (∀ c ∈ chars, drops c = false) →
      chars.dropWhile drops = chars := by
    intro chars keep
    cases chars with
    | nil => rfl
    | cons c rest => exact List.dropWhile_cons_of_neg (by simp [keep c List.mem_cons_self])
  rw [strip, settled keeps, settled fun c member => keeps c (List.mem_reverse.mp member),
    List.reverse_reverse]

theorem hexDigit_facts : ∀ n < 16, digit? (hexDigit n) = some n ∧ hexDigit n ≠ '_' ∧
    hexDigit n ≠ '-' ∧ hexDigit n ≠ 'u' ∧ hexDigit n ≠ 'x' ∧ hexDigit n ≠ 'X' ∧
    hexDigit n ≠ '+' ∧ hexDigit n ≠ '\x7b' ∧ hexDigit n ≠ '\x7d' ∧
    isSpace (hexDigit n) = false := by
  decide

/-- Reading hexadecimal digits is evaluation to base 16. -/
theorem digits?_map_hexDigit {ds : List Nat} (small : ∀ d ∈ ds, d < 16) (value : Nat) :
    digits? value true (ds.map hexDigit) = some (ds.foldl (fun v d => 16 * v + d) value) := by
  induction ds generalizing value with
  | nil => rfl
  | cons d rest ih =>
      obtain ⟨reads, plain, -⟩ := hexDigit_facts d (small d List.mem_cons_self)
      rw [List.map_cons, digits?, if_neg plain, reads, List.foldl_cons]
      exact ih (fun e later => small e (List.mem_cons_of_mem d later)) _

/-- The digits of a number, most significant first, evaluate to its leading part. -/
theorem foldl_digits (n k : Nat) (short : k ≤ 32) (bound : n < 16 ^ 32) :
    ((List.range k).map fun i => n / 16 ^ (31 - i) % 16).foldl (fun v d => 16 * v + d) 0 =
      n / 16 ^ (32 - k) := by
  induction k with
  | zero => exact (Nat.div_eq_of_lt bound).symm
  | succ k ih =>
      rw [List.range_succ, List.map_append, List.foldl_append, ih (by omega)]
      have power : 16 ^ (32 - k) = 16 ^ (31 - k) * 16 := by
        rw [← Nat.pow_succ]
        congr 1
        omega
      rw [power, ← Nat.div_div_eq_div_mul, show 32 - (k + 1) = 31 - k by omega]
      simp only [List.map_cons, List.map_nil, List.foldl_cons, List.foldl_nil]
      omega

theorem hex_eq_map (u : Uuid) :
    u.hex = ((List.range 32).map fun i => u.bits.toNat / 16 ^ (31 - i) % 16).map hexDigit := by
  rw [Uuid.hex, List.map_map]
  rfl

theorem mem_hex {u : Uuid} {c : Char} (member : c ∈ u.hex) : ∃ d < 16, c = hexDigit d := by
  rw [Uuid.hex, List.mem_map] at member
  obtain ⟨i, -, rfl⟩ := member
  exact ⟨_, Nat.mod_lt _ (by decide), rfl⟩

theorem int16?_hex (u : Uuid) : int16? u.hex = some u.bits.toNat := by
  have spaceless : strip isSpace u.hex = u.hex := strip_eq_self fun c member => by
    obtain ⟨d, small, rfl⟩ := mem_hex member
    exact (hexDigit_facts d small).2.2.2.2.2.2.2.2.2
  have plain : ∀ c ∈ u.hex, c ≠ '+' ∧ c ≠ 'x' ∧ c ≠ 'X' := fun c member => by
    obtain ⟨d, small, rfl⟩ := mem_hex member
    have facts := hexDigit_facts d small
    exact ⟨facts.2.2.2.2.2.2.1, facts.2.2.2.2.1, facts.2.2.2.2.2.1⟩
  have whole := foldl_digits u.bits.toNat 32 le_rfl u.bits.isLt
  have digits := hex_eq_map u
  rw [int16?, spaceless]
  generalize hdigits : (List.range 32).map (fun i => u.bits.toNat / 16 ^ (31 - i) % 16) = ds
    at whole digits
  have small : ∀ d ∈ ds, d < 16 := by
    rw [← hdigits]
    intro d member
    obtain ⟨i, -, rfl⟩ := List.mem_map.mp member
    exact Nat.mod_lt _ (by decide)
  have long : ds.length = 32 := by rw [← hdigits]; simp
  obtain ⟨first, rest, rfl⟩ := List.exists_cons_of_length_eq_add_one long
  obtain ⟨second, rest, rfl⟩ := List.exists_cons_of_length_eq_add_one (Nat.succ.inj long)
  rw [digits, List.map_cons, List.map_cons] at plain ⊢
  have signless : afterSign (hexDigit first :: hexDigit second :: rest.map hexDigit) =
      hexDigit first :: hexDigit second :: rest.map hexDigit := by
    have := (plain (hexDigit first) List.mem_cons_self).1
    unfold afterSign
    split <;> simp_all
  have bare : afterPrefix (hexDigit first :: hexDigit second :: rest.map hexDigit) =
      hexDigit first :: hexDigit second :: rest.map hexDigit := by
    have := plain (hexDigit second) (List.mem_cons_of_mem _ List.mem_cons_self)
    unfold afterPrefix
    split <;> simp_all
  obtain ⟨reads, underscoreless, -⟩ := hexDigit_facts first (small first List.mem_cons_self)
  rw [signless, bare, digits?, if_neg underscoreless, reads]
  have tail := digits?_map_hexDigit
    (fun d later => small d (List.mem_cons_of_mem first later)) (16 * 0 + first)
  rw [List.map_cons] at tail
  refine tail.trans (congrArg some ?_)
  simpa using whole

theorem length_hex (u : Uuid) : u.hex.length = 32 := by
  simp [Uuid.hex]

/-- The grouping of `str` around any digits. -/
theorem str_toList (u : Uuid) : u.str.toList =
    u.hex.take 8 ++ '-' :: (u.hex.drop 8).take 4 ++ '-' :: (u.hex.drop 12).take 4 ++
      '-' :: (u.hex.drop 16).take 4 ++ '-' :: u.hex.drop 20 :=
  String.toList_ofList

theorem length_str (u : Uuid) : u.str.length = 36 := by
  rw [← String.length_toList, str_toList]
  simp [length_hex]

theorem mem_str {u : Uuid} {c : Char} (member : c ∈ u.str.toList) : c = '-' ∨ c ∈ u.hex := by
  rw [str_toList] at member
  generalize u.hex = digits at member ⊢
  simp only [List.mem_append, List.mem_cons, or_assoc] at member
  rcases member with h | h | h | h | h | h | h | h | h
  · exact .inr (List.mem_of_mem_take h)
  · exact .inl h
  · exact .inr (List.mem_of_mem_drop (List.mem_of_mem_take h))
  · exact .inl h
  · exact .inr (List.mem_of_mem_drop (List.mem_of_mem_take h))
  · exact .inl h
  · exact .inr (List.mem_of_mem_drop (List.mem_of_mem_take h))
  · exact .inl h
  · exact .inr (List.mem_of_mem_drop h)

theorem filter_hyphens {digits : List Char} (plain : ∀ c ∈ digits, c ≠ '-') :
    (digits.take 8 ++ '-' :: (digits.drop 8).take 4 ++ '-' :: (digits.drop 12).take 4 ++
      '-' :: (digits.drop 16).take 4 ++ '-' :: digits.drop 20).filter (· ≠ '-') = digits := by
  have kept : ∀ {piece : List Char}, (∀ c ∈ piece, c ∈ digits) →
      piece.filter (· ≠ '-') = piece := fun inside =>
    List.filter_eq_self.mpr fun c member => decide_eq_true (plain c (inside c member))
  have dropped : ∀ {rest : List Char}, ('-' :: rest).filter (· ≠ '-') = rest.filter (· ≠ '-') :=
    List.filter_cons_of_neg (by decide)
  simp only [List.filter_append, dropped]
  rw [kept fun c h => List.mem_of_mem_take h,
    kept fun c h => List.mem_of_mem_drop (List.mem_of_mem_take h),
    kept fun c h => List.mem_of_mem_drop (List.mem_of_mem_take h),
    kept fun c h => List.mem_of_mem_drop (List.mem_of_mem_take h),
    kept fun c h => List.mem_of_mem_drop h]
  have join : ∀ n k, (digits.drop n).take k ++ digits.drop (n + k) = digits.drop n := by
    intro n k
    rw [← List.drop_drop, List.take_append_drop]
  rw [List.append_assoc, List.append_assoc, List.append_assoc, join 16 4, join 12 4, join 8 4,
    List.take_append_drop]

theorem bareText_str (u : Uuid) : bareText u.str = u.hex := by
  have free : ∀ c ∈ u.str.toList, c ≠ 'u' ∧ c ≠ '\x7b' ∧ c ≠ '\x7d' := by
    intro c member
    rcases mem_str member with rfl | inside
    · decide
    · obtain ⟨d, small, rfl⟩ := mem_hex inside
      have facts := hexDigit_facts d small
      exact ⟨facts.2.2.2.1, facts.2.2.2.2.2.2.2.1, facts.2.2.2.2.2.2.2.2.1⟩
  have absent : 'u' ∉ u.str.toList := fun member => (free 'u' member).1 rfl
  have plain : ∀ c ∈ u.hex, c ≠ '-' := fun c member => by
    obtain ⟨d, small, rfl⟩ := mem_hex member
    exact (hexDigit_facts d small).2.2.1
  rw [bareText, show "urn:".toList = 'u' :: "rn:".toList from rfl,
    show "uuid:".toList = 'u' :: "uid:".toList from rfl, removeFrom_eq_self absent,
    removeFrom_eq_self absent, strip_eq_self fun c member => by simp [free c member],
    str_toList, filter_hyphens plain]

/-- The constructor reads back what `str` writes. -/
theorem parse?_str (u : Uuid) : parse? u.str = some u := by
  rw [parse?, bareText_str, if_pos (length_hex u), int16?_hex, Option.map_some]
  simp [Uuid.ofNat]

theorem str_inj {one other : Uuid} (same : one.str = other.str) : one = other := by
  have read := parse?_str one
  rw [same, parse?_str] at read
  exact (Option.some.inj read).symm

end AgreementIntelligence.UuidText
