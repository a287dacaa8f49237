import Mathlib.Data.List.Basic
import Mathlib.Tactic.Common

/-! Base64 and hexadecimal texts. Encoding is the standard one; decoding is strict and takes the
digits of the URL-safe alphabet as well. -/

namespace AgreementIntelligence.Lib.Base64

/-- `text.encode("utf-8")` -/
def utf8 (text : String) : List UInt8 :=
  text.toList.flatMap String.utf8EncodeChar

/-- `bytes.decode("utf-8")`, `none` when it raises. -/
def decodeUtf8 (bytes : List UInt8) : Option String :=
  bytes.toByteArray.utf8Decode?.map fun chars => String.ofList chars.toList

theorem decodeUtf8_utf8 (text : String) : decodeUtf8 (utf8 text) = some text := by
  have decodes : (utf8 text).toByteArray.utf8Decode? = some text.toList.toArray :=
    List.utf8Decode?_utf8Encode
  simp [decodeUtf8, decodes]

/-! Base64 -/

def alphabet : List Char :=
  "ABCDEFGHIJKLMNOPQRSTUVWXYZabcdefghijklmnopqrstuvwxyz0123456789+/".toList

def digit (n : Nat) : Char :=
  alphabet.getD n '='

def value? (c : Char) : Option Nat :=
  if c = '-' then some 62 else if c = '_' then some 63 else alphabet.idxOf? c

/-- The bits of the bytes in groups of six. -/
def sextets : List UInt8 → List Nat
  | [] => []
  | [a] => [a.toNat / 4, a.toNat % 4 * 16]
  | [a, b] => [a.toNat / 4, a.toNat % 4 * 16 + b.toNat / 16, b.toNat % 16 * 4]
  | a :: b :: c :: rest => a.toNat / 4 :: (a.toNat % 4 * 16 + b.toNat / 16) ::
      (b.toNat % 16 * 4 + c.toNat / 64) :: c.toNat % 64 :: sextets rest

def bytesOf : List Nat → Option (List UInt8)
  | [] => some []
  | [_] => none
  | [w, x] => some [.ofNat (w * 4 + x / 16)]
  | [w, x, y] => some [.ofNat (w * 4 + x / 16), .ofNat (x % 16 * 16 + y / 4)]
  | w :: x :: y :: z :: rest => (bytesOf rest).map fun bytes =>
      .ofNat (w * 4 + x / 16) :: .ofNat (x % 16 * 16 + y / 4) :: .ofNat (y % 4 * 64 + z) :: bytes

def encode (bytes : List UInt8) : List Char :=
  (sextets bytes).map digit ++ List.replicate ((3 - bytes.length % 3) % 3) '='

/-- `base64.b64decode(text, altchars=b"-_", validate=True)`, `none` when it raises. -/
def decode (text : List Char) : Option (List UInt8) :=
  let data := text.takeWhile (· ≠ '=')
  let padding := text.dropWhile (· ≠ '=')
  if padding.all (· == '=') ∧ padding.length ≤ 2 ∧ (data.length + padding.length) % 4 = 0 then
    (data.mapM value?).bind bytesOf
  else none

theorem digit_facts : ∀ n < 64, value? (digit n) = some n ∧ digit n ≠ '=' := by
  decide +kernel

theorem lt_of_mem_sextets {bytes : List UInt8} {n : Nat} (member : n ∈ sextets bytes) : n < 64 := by
  induction bytes using sextets.induct with
  | case1 => cases member
  | case2 a =>
      have := a.toNat_lt
      simp only [sextets, List.mem_cons, List.not_mem_nil, or_false] at member
      omega
  | case3 a b =>
      have := a.toNat_lt
      have := b.toNat_lt
      simp only [sextets, List.mem_cons, List.not_mem_nil, or_false] at member
      omega
  | case4 a b c rest ih =>
      have := a.toNat_lt
      have := b.toNat_lt
      have := c.toNat_lt
      simp only [sextets, List.mem_cons] at member
      rcases member with first | second | third | fourth | later
      · omega
      · omega
      · omega
      · omega
      · exact ih later

theorem ofNat_toNat_of_eq {n : Nat} (byte : UInt8) (same : n = byte.toNat) :
    UInt8.ofNat n = byte := by
  rw [same, UInt8.ofNat_toNat]

theorem bytesOf_sextets (bytes : List UInt8) : bytesOf (sextets bytes) = some bytes := by
  induction bytes using sextets.induct with
  | case1 => rfl
  | case2 a =>
      rw [sextets, bytesOf, ofNat_toNat_of_eq a (by omega)]
  | case3 a b =>
      have := b.toNat_lt
      rw [sextets, bytesOf, ofNat_toNat_of_eq a (by omega),
        ofNat_toNat_of_eq b (by omega)]
  | case4 a b c rest ih =>
      have := b.toNat_lt
      have := c.toNat_lt
      rw [sextets, bytesOf, ih, Option.map_some, ofNat_toNat_of_eq a (by omega),
        ofNat_toNat_of_eq b (by omega), ofNat_toNat_of_eq c (by omega)]

theorem length_sextets (bytes : List UInt8) :
    (sextets bytes).length = (4 * bytes.length + 2) / 3 := by
  induction bytes using sextets.induct with
  | case1 => rfl
  | case2 a => simp [sextets]
  | case3 a b => simp [sextets]
  | case4 a b c rest ih =>
      simp only [sextets, List.length_cons, ih]
      omega

/-- The padding fills the last group of four. -/
theorem length_encode (bytes : List UInt8) :
    (sextets bytes).length + (3 - bytes.length % 3) % 3 = 4 * ((bytes.length + 2) / 3) := by
  rw [length_sextets]
  have remainder : bytes.length % 3 = 0 ∨ bytes.length % 3 = 1 ∨ bytes.length % 3 = 2 := by omega
  rcases remainder with none | one | two
  · omega
  · omega
  · omega

theorem mapM_value {ns : List Nat} (small : ∀ n ∈ ns, n < 64) :
    (ns.map digit).mapM value? = some ns := by
  induction ns with
  | nil => rfl
  | cons n ns ih =>
      rw [List.forall_mem_cons] at small
      rw [List.map_cons, List.mapM_cons, (digit_facts n small.1).1, ih small.2]
      rfl

/-- The digits of an encoding, and the padding after them. -/
theorem encode_parts (bytes : List UInt8) :
    (encode bytes).takeWhile (· ≠ '=') = (sextets bytes).map digit ∧
      (encode bytes).dropWhile (· ≠ '=') = List.replicate ((3 - bytes.length % 3) % 3) '=' := by
  have digits : ∀ c ∈ (sextets bytes).map digit, decide (c ≠ '=') = true := by
    intro c member
    obtain ⟨n, listed, rfl⟩ := List.mem_map.mp member
    simpa using (digit_facts n (lt_of_mem_sextets listed)).2
  rw [encode, List.takeWhile_append_of_pos digits, List.dropWhile_append_of_pos digits]
  cases (3 - bytes.length % 3) % 3 with
  | zero => simp
  | succ n => simp [List.replicate_succ]

theorem decode_encode (bytes : List UInt8) : decode (encode bytes) = some bytes := by
  obtain ⟨data, padding⟩ := encode_parts bytes
  rw [decode, data, padding, if_pos]
  · rw [mapM_value fun n => lt_of_mem_sextets]
    exact bytesOf_sextets bytes
  · refine ⟨by simp, ?_, ?_⟩
    · rw [List.length_replicate]
      omega
    · rw [List.length_map, List.length_replicate, length_encode]
      omega

/-! Hexadecimal digits, small or capital -/

def hexDigit (capital : Bool) (n : Nat) : Char :=
  if n < 10 then .ofNat (48 + n) else if capital then .ofNat (55 + n) else .ofNat (87 + n)

def hexValue? (c : Char) : Option Nat :=
  if 48 ≤ c.toNat ∧ c.toNat ≤ 57 then some (c.toNat - 48)
  else if 97 ≤ c.toNat ∧ c.toNat ≤ 102 then some (c.toNat - 87)
  else if 65 ≤ c.toNat ∧ c.toNat ≤ 70 then some (c.toNat - 55)
  else none

/-- The two digits of each byte. -/
def hexPairs (capital : Bool) (bytes : List UInt8) : List (List Char) :=
  bytes.map fun byte => [hexDigit capital (byte.toNat / 16), hexDigit capital (byte.toNat % 16)]

def encodeHex (capital : Bool) (bytes : List UInt8) : List Char :=
  (hexPairs capital bytes).flatten

/-- `bytes.fromhex(text)`, for a text of digits. -/
def decodeHex : List Char → Option (List UInt8)
  | [] => some []
  | [_] => none
  | high :: low :: rest =>
    match hexValue? high, hexValue? low, decodeHex rest with
    | some high, some low, some bytes => some (.ofNat (16 * high + low) :: bytes)
    | _, _, _ => none

theorem hexValue?_hexDigit : ∀ capital, ∀ n < 16, hexValue? (hexDigit capital n) = some n := by
  decide

theorem decodeHex_encodeHex (capital : Bool) (bytes : List UInt8) :
    decodeHex (encodeHex capital bytes) = some bytes := by
  induction bytes with
  | nil => rfl
  | cons byte rest ih =>
      have small := byte.toNat_lt
      have pair : encodeHex capital (byte :: rest) = hexDigit capital (byte.toNat / 16) ::
          hexDigit capital (byte.toNat % 16) :: encodeHex capital rest := rfl
      rw [pair, decodeHex, hexValue?_hexDigit capital _ (by omega),
        hexValue?_hexDigit capital _ (by omega), ih]
      simp only [Option.some.injEq, List.cons.injEq, and_true]
      exact ofNat_toNat_of_eq byte (by omega)

end AgreementIntelligence.Lib.Base64
