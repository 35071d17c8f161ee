import IamKeeper.Document

namespace IamKeeper.Text

namespace Utf8

theorem decodeFrom_char (c : Char) (index : Nat) (rest : List UInt8) :
    ∃ width, decodeFrom index (String.utf8EncodeChar c ++ rest) =
      (decodeFrom (index + width) rest).map (c :: ·) := by
  have hv : c.toNat.isValidChar := c.valid
  have hc : Char.ofNat c.toNat = c := Char.ofNat_toNat c
  have hn : c.val.toNat = c.toNat := rfl
  unfold Nat.isValidChar at hv
  unfold String.utf8EncodeChar
  simp only [hn]
  generalize c.toNat = n at hv hc
  have bytes (k : Nat) : (UInt8.ofNat k).toNat = k % 256 := UInt8.toNat_ofNat'
  split
  · refine ⟨1, ?_⟩
    have h0 : n % 256 = n := by omega
    have h1 : n < 0x80 := by omega
    simp [decodeFrom, bytes, h0, h1, hc]
  split
  · refine ⟨2, ?_⟩
    have h0 : (n / 64 % 32 + 192) % 256 = n / 64 + 192 := by omega
    have h1 : (n % 64 + 128) % 256 = n % 64 + 128 := by omega
    have lead : Lead.of? (n / 64 + 192) = some ⟨1, 0x80, 0xBF⟩ := by
      unfold Lead.of?
      rw [if_neg (by omega), if_pos (by omega)]
    have value : push ((n / 64 + 192) % 32) (n % 64 + 128) = n := by unfold push; omega
    simp only [List.cons_append, List.nil_append, decodeFrom, bytes, h0, h1, lead, value, hc]
    rw [if_neg (by omega), if_neg (by simp; omega)]
    simp
  split
  · refine ⟨3, ?_⟩
    have h0 : (n / 4096 % 16 + 224) % 256 = n / 4096 + 224 := by omega
    have h1 : (n / 64 % 64 + 128) % 256 = n / 64 % 64 + 128 := by omega
    have h2 : (n % 64 + 128) % 256 = n % 64 + 128 := by omega
    have value : push (push ((n / 4096 + 224) % 16) (n / 64 % 64 + 128)) (n % 64 + 128) = n := by
      unfold push; omega
    have lead : ∃ least greatest, Lead.of? (n / 4096 + 224) = some ⟨2, least, greatest⟩ ∧
        least ≤ n / 64 % 64 + 128 ∧ n / 64 % 64 + 128 ≤ greatest := by
      unfold Lead.of?
      rw [if_neg (by omega), if_neg (by omega)]
      split
      · exact ⟨_, _, rfl, by omega, by omega⟩
      split
      · exact ⟨_, _, rfl, by omega, by omega⟩
      · rw [if_pos (by omega)]
        exact ⟨_, _, rfl, by omega, by omega⟩
    obtain ⟨least, greatest, lead, hl, hg⟩ := lead
    have hd : isContinuation (n % 64 + 128) = true := by unfold isContinuation; simp; omega
    simp only [List.cons_append, List.nil_append, decodeFrom, bytes, h0, h1, h2, lead, value, hc, hd]
    rw [if_neg (by omega), if_neg (by simp; omega)]
    simp
  · refine ⟨4, ?_⟩
    have h0 : (n / 262144 % 8 + 240) % 256 = n / 262144 + 240 := by omega
    have h1 : (n / 4096 % 64 + 128) % 256 = n / 4096 % 64 + 128 := by omega
    have h2 : (n / 64 % 64 + 128) % 256 = n / 64 % 64 + 128 := by omega
    have h3 : (n % 64 + 128) % 256 = n % 64 + 128 := by omega
    have value : push (push (push ((n / 262144 + 240) % 8) (n / 4096 % 64 + 128))
        (n / 64 % 64 + 128)) (n % 64 + 128) = n := by
      unfold push; omega
    have lead : ∃ least greatest, Lead.of? (n / 262144 + 240) = some ⟨3, least, greatest⟩ ∧
        least ≤ n / 4096 % 64 + 128 ∧ n / 4096 % 64 + 128 ≤ greatest := by
      unfold Lead.of?
      rw [if_neg (by omega), if_neg (by omega), if_neg (by omega), if_neg (by omega),
        if_neg (by omega)]
      split
      · exact ⟨_, _, rfl, by omega, by omega⟩
      split
      · exact ⟨_, _, rfl, by omega, by omega⟩
      · rw [if_pos (by omega)]
        exact ⟨_, _, rfl, by omega, by omega⟩
    obtain ⟨least, greatest, lead, hl, hg⟩ := lead
    have hd : isContinuation (n / 64 % 64 + 128) = true := by unfold isContinuation; simp; omega
    have he : isContinuation (n % 64 + 128) = true := by unfold isContinuation; simp; omega
    simp only [List.cons_append, List.nil_append, decodeFrom, bytes, h0, h1, h2, h3, lead, value, hc,
      hd, he]
    rw [if_neg (by omega), if_neg (by simp; omega)]
    simp

theorem decodeFrom_chars (chars : List Char) (index : Nat) :
    decodeFrom index (chars.flatMap String.utf8EncodeChar) = .ok chars := by
  induction chars generalizing index with
  | nil => simp [decodeFrom]
  | cons c chars ih =>
    obtain ⟨width, h⟩ := decodeFrom_char c index (chars.flatMap String.utf8EncodeChar)
    rw [List.flatMap_cons, h, ih]
    rfl

theorem decode_encode (text : String) : decode (encode text) = .ok text := by
  unfold decode encode
  rw [decodeFrom_chars]
  exact congrArg Except.ok (String.ofList_toList ..)

end Utf8

namespace Percent

def hexDigit (capital : Bool) (n : Nat) : UInt8 :=
  UInt8.ofNat (if n < 10 then 0x30 + n else if capital then 0x37 + n else 0x57 + n)

/-- `Spells escaped bytes`: each byte stands for itself, unless it is a plus or percent sign, or is
escaped by its two hexadecimal digits; a plus sign stands for a space. -/
inductive Spells : List UInt8 → List UInt8 → Prop
  | nil : Spells [] []
  | plain {b : UInt8} {escaped bytes : List UInt8} (noPlus : b ≠ 0x2B) (noPercent : b ≠ 0x25)
      (rest : Spells escaped bytes) : Spells (b :: escaped) (b :: bytes)
  | plus {escaped bytes : List UInt8} (rest : Spells escaped bytes) :
      Spells (0x2B :: escaped) (0x20 :: bytes)
  | escape {b : UInt8} {escaped bytes : List UInt8} (high low : Bool)
      (rest : Spells escaped bytes) :
      Spells (0x25 :: hexDigit high (b.toNat / 16) :: hexDigit low (b.toNat % 16) :: escaped)
        (b :: bytes)

/-- `Escapes encoded text`: the bytes of `encoded` spell those of `text`. -/
def Escapes (encoded text : String) : Prop :=
  Spells (Utf8.encode encoded) (Utf8.encode text)

theorem digit?_hexDigit (capital : Bool) {n : Nat} (h : n < 16) :
    digit? (hexDigit capital n) = some n := by
  have each : ∀ n < 16, ∀ capital, digit? (hexDigit capital n) = some n := by decide
  exact each n h capital

theorem hexDigit_ne_plus (capital : Bool) {n : Nat} (h : n < 16) : hexDigit capital n ≠ 0x2B := by
  have each : ∀ n < 16, ∀ capital, hexDigit capital n ≠ 0x2B := by decide
  exact each n h capital

theorem escaped?_hexDigit (high low : Bool) (b : UInt8) :
    escaped? (hexDigit high (b.toNat / 16)) (hexDigit low (b.toNat % 16)) = some b := by
  have hb : b.toNat < 256 := b.toNat_lt
  have value : b.toNat / 16 * 16 + b.toNat % 16 = b.toNat := by omega
  unfold escaped?
  rw [digit?_hexDigit high (by omega), digit?_hexDigit low (by omega)]
  simp [value]

theorem unescape_cons {b : UInt8} (h : b ≠ 0x25) (rest : List UInt8) :
    unescape (b :: rest) = b :: unescape rest := by
  rw [unescape.eq_def]
  simp [h]

theorem unescape_escape (high low : Bool) (b : UInt8) (rest : List UInt8) :
    unescape (0x25 :: hexDigit high (b.toNat / 16) :: hexDigit low (b.toNat % 16) :: rest) =
      b :: unescape rest := by
  simp [unescape, escaped?_hexDigit]

theorem unescape_of_spells {escaped bytes : List UInt8} (h : Spells escaped bytes) :
    unescape (plusToSpace escaped) = bytes := by
  induction h with
  | nil => simp [plusToSpace, unescape]
  | plain noPlus noPercent _ ih =>
    simp only [plusToSpace, List.map_cons, noPlus, if_false] at ih ⊢
    rw [unescape_cons noPercent, ih]
  | plus _ ih =>
    simp only [plusToSpace, List.map_cons, if_true] at ih ⊢
    rw [unescape_cons (by decide), ih]
  | @escape b _ _ high low _ ih =>
    have hb : b.toNat < 256 := b.toNat_lt
    simp only [plusToSpace, List.map_cons, hexDigit_ne_plus high (show b.toNat / 16 < 16 by omega),
      hexDigit_ne_plus low (show b.toNat % 16 < 16 by omega), if_false] at ih ⊢
    rw [if_neg (by decide), unescape_escape, ih]

theorem decode_of_escapes {encoded text : String} (h : Escapes encoded text) :
    decode encoded = .ok text := by
  unfold decode
  rw [unescape_of_spells h, Utf8.decode_encode]

def hexChar (capital : Bool) (n : Nat) : Char :=
  Char.ofNat (if n < 10 then 0x30 + n else if capital then 0x37 + n else 0x57 + n)

/-- A text with every byte of it escaped. -/
def escapeAll (capital : Bool) (text : String) : String :=
  String.ofList <| (Utf8.encode text).flatMap fun b =>
    ['%', hexChar capital (b.toNat / 16), hexChar capital (b.toNat % 16)]

theorem utf8EncodeChar_hexChar (capital : Bool) {n : Nat} (h : n < 16) :
    String.utf8EncodeChar (hexChar capital n) = [hexDigit capital n] := by
  have each : ∀ n < 16, ∀ capital, String.utf8EncodeChar (hexChar capital n) = [hexDigit capital n] := by decide
  exact each n h capital

theorem escapes_escapeAll (capital : Bool) (text : String) : Escapes (escapeAll capital text) text := by
  unfold Escapes escapeAll
  generalize Utf8.encode text = bytes
  unfold Utf8.encode
  rw [String.toList_ofList]
  induction bytes with
  | nil => exact .nil
  | cons b bytes ih =>
    have hb : b.toNat < 256 := b.toNat_lt
    have percent : String.utf8EncodeChar '%' = [0x25] := by decide
    simp only [List.flatMap_cons, List.cons_append, List.nil_append, percent,
      utf8EncodeChar_hexChar capital (show b.toNat / 16 < 16 by omega),
      utf8EncodeChar_hexChar capital (show b.toNat % 16 < 16 by omega)]
    exact .escape capital capital ih

end Percent

end IamKeeper.Text

namespace IamKeeper.Document

open Text.Percent (Escapes Spells escapeAll escapes_escapeAll)

theorem decode_of_escapes {encoded text : String} (h : Escapes encoded text) :
    decode encoded = .ok text := by
  unfold decode
  rw [Text.Percent.decode_of_escapes h]
  rfl

/-- Whatever way a text is escaped, reading it gives the text; one way is to escape every byte. -/
theorem decode_escaped (text : String) :
    (∀ encoded, Escapes encoded text → decode encoded = .ok text) ∧
      ∀ capital, decode (escapeAll capital text) = .ok text :=
  ⟨fun _ => decode_of_escapes, fun capital => decode_of_escapes (escapes_escapeAll capital text)⟩

/-- A space as a plus sign, a plus and a percent sign escaped, the bytes of one letter escaped and those of another one
not. -/
theorem decode_escaped_mixed : Escapes "a+%2b%25%C3%a9é" "a +%éé" ∧
    decode "a+%2b%25%C3%a9é" = .ok "a +%éé" := by
  have encoded : Text.Utf8.encode "a+%2b%25%C3%a9é" = [0x61, 0x2B, 0x25, 0x32, 0x62, 0x25, 0x32, 0x35,
      0x25, 0x43, 0x33, 0x25, 0x61, 0x39, 0xC3, 0xA9] := by decide
  have text : Text.Utf8.encode "a +%éé" = [0x61, 0x20, 0x2B, 0x25, 0xC3, 0xA9, 0xC3, 0xA9] := by decide
  have escapes : Escapes "a+%2b%25%C3%a9é" "a +%éé" := by
    unfold Escapes
    rw [encoded, text]
    refine .plain (by decide) (by decide) (.plus ?_)
    refine @Spells.escape 0x2B _ _ false false ?_
    refine @Spells.escape 0x25 _ _ false false ?_
    refine @Spells.escape 0xC3 _ _ true true ?_
    refine @Spells.escape 0xA9 _ _ false false ?_
    exact .plain (by decide) (by decide) (.plain (by decide) (by decide) .nil)
  exact ⟨escapes, (decode_escaped _).1 _ escapes⟩

end IamKeeper.Document
