import Mathlib.Tactic

/-!
# UTF-8

Texts as sequences of bytes, and the decoder that replaces what is malformed:
a byte that cannot go on with the character that has been begun ends that
character, and is read again as the first byte of the next one.  Reading what
was written gives the text back.
-/

namespace SoulonWallet.Utf8

abbrev Bytes := List UInt8

def encode (text : List Char) : Bytes :=
  text.flatMap String.utf8EncodeChar

/-- A character of which `needed` bytes are missing; the next one is between
`lower` and `upper`. -/
structure Pending where
  codePoint : ℕ
  needed : ℕ
  lower : ℕ := 0x80
  upper : ℕ := 0xBF

def replacement : Char := '\ufffd'

/-- A byte between two characters. -/
def first (byte : UInt8) : List Char × Option Pending :=
  let value := byte.toNat
  if value ≤ 0x7F then ([Char.ofNat value], none)
  else if 0xC2 ≤ value ∧ value ≤ 0xDF then
    ([], some { codePoint := value % 0x20, needed := 1 })
  else if 0xE0 ≤ value ∧ value ≤ 0xEF then
    ([], some
      { codePoint := value % 0x10
        needed := 2
        lower := if value = 0xE0 then 0xA0 else 0x80
        upper := if value = 0xED then 0x9F else 0xBF })
  else if 0xF0 ≤ value ∧ value ≤ 0xF4 then
    ([], some
      { codePoint := value % 0x08
        needed := 3
        lower := if value = 0xF0 then 0x90 else 0x80
        upper := if value = 0xF4 then 0x8F else 0xBF })
  else ([replacement], none)

def next (pending : Option Pending) (byte : UInt8) :
    List Char × Option Pending :=
  match pending with
  | none => first byte
  | some pending =>
      if pending.lower ≤ byte.toNat ∧ byte.toNat ≤ pending.upper then
        let codePoint := pending.codePoint * 0x40 + byte.toNat % 0x40
        if pending.needed = 1 then ([Char.ofNat codePoint], none)
        else ([], some { codePoint, needed := pending.needed - 1 })
      else (replacement :: (first byte).1, (first byte).2)

def decodeFrom : Option Pending → Bytes → List Char
  | none, [] => []
  | some _, [] => [replacement]
  | pending, byte :: rest =>
      (next pending byte).1 ++ decodeFrom (next pending byte).2 rest

def decode (bytes : Bytes) : List Char :=
  decodeFrom none bytes

/-- Malformed bytes have no text. -/
def decodeStrict (bytes : Bytes) : Option (List Char) :=
  if encode (decode bytes) = bytes then some (decode bytes) else none

/-! ## Reading what was written -/

theorem encode_cons (c : Char) (text : List Char) :
    encode (c :: text) = String.utf8EncodeChar c ++ encode text := rfl

theorem encode_append (front back : List Char) :
    encode (front ++ back) = encode front ++ encode back :=
  List.flatMap_append

theorem decodeFrom_cons
    (pending : Option Pending) (byte : UInt8) (rest : Bytes) :
    decodeFrom pending (byte :: rest) =
      (next pending byte).1 ++ decodeFrom (next pending byte).2 rest := by
  cases pending with
  | none => rfl
  | some pending => rfl

theorem toNat_ofNat_of_lt {value : ℕ} (hvalue : value < 256) :
    (UInt8.ofNat value).toNat = value :=
  UInt8.toNat_ofNat_of_lt hvalue

/-- A byte in the middle of a character. -/
theorem next_tail
    {pending : Pending} {value : ℕ} (hneeded : pending.needed ≠ 1)
    (hlower : pending.lower ≤ value % 0x40 + 0x80)
    (hupper : value % 0x40 + 0x80 ≤ pending.upper) :
    next (some pending) (UInt8.ofNat (value % 0x40 + 0x80)) =
      ([], some
        { codePoint := pending.codePoint * 0x40 + value % 0x40
          needed := pending.needed - 1 }) := by
  have hbyte : (UInt8.ofNat (value % 0x40 + 0x80)).toNat =
      value % 0x40 + 0x80 := toNat_ofNat_of_lt (by omega)
  have hlow : (value % 0x40 + 0x80) % 0x40 = value % 0x40 := by omega
  unfold next
  simp only [hbyte, if_pos (And.intro hlower hupper), if_neg hneeded, hlow]

/-- The last byte of a character. -/
theorem next_last
    {pending : Pending} {value : ℕ} (hneeded : pending.needed = 1)
    (hlower : pending.lower ≤ value % 0x40 + 0x80)
    (hupper : value % 0x40 + 0x80 ≤ pending.upper) :
    next (some pending) (UInt8.ofNat (value % 0x40 + 0x80)) =
      ([Char.ofNat (pending.codePoint * 0x40 + value % 0x40)], none) := by
  have hbyte : (UInt8.ofNat (value % 0x40 + 0x80)).toNat =
      value % 0x40 + 0x80 := toNat_ofNat_of_lt (by omega)
  have hlow : (value % 0x40 + 0x80) % 0x40 = value % 0x40 := by omega
  unfold next
  simp only [hbyte, if_pos (And.intro hlower hupper), if_pos hneeded, hlow]

theorem first_of_le
    {value : ℕ} (hvalue : value ≤ 0x7F) :
    first (UInt8.ofNat value) = ([Char.ofNat value], none) := by
  have hbyte : (UInt8.ofNat value).toNat = value :=
    toNat_ofNat_of_lt (by omega)
  unfold first
  simp only [hbyte, if_pos hvalue]

theorem first_two
    {value : ℕ} (hlow : 0x7F < value) (hhigh : value ≤ 0x7FF) :
    first (UInt8.ofNat (value / 64 % 0x20 + 0xC0)) =
      ([], some { codePoint := value / 64, needed := 1 }) := by
  have hbyte : (UInt8.ofNat (value / 64 % 0x20 + 0xC0)).toNat =
      value / 64 % 0x20 + 0xC0 := toNat_ofNat_of_lt (by omega)
  have hnot : ¬ value / 64 % 0x20 + 0xC0 ≤ 0x7F := by omega
  have hin : 0xC2 ≤ value / 64 % 0x20 + 0xC0 ∧
      value / 64 % 0x20 + 0xC0 ≤ 0xDF := by omega
  have hcode : (value / 64 % 0x20 + 0xC0) % 0x20 = value / 64 := by omega
  unfold first
  simp only [hbyte, if_neg hnot, if_pos hin, hcode]

theorem first_three
    {value : ℕ} (hlow : 0x7FF < value) (hhigh : value ≤ 0xFFFF) :
    first (UInt8.ofNat (value / 4096 % 0x10 + 0xE0)) =
      ([], some
        { codePoint := value / 4096
          needed := 2
          lower := if value / 4096 = 0 then 0xA0 else 0x80
          upper := if value / 4096 = 0xD then 0x9F else 0xBF }) := by
  have hbyte : (UInt8.ofNat (value / 4096 % 0x10 + 0xE0)).toNat =
      value / 4096 % 0x10 + 0xE0 := toNat_ofNat_of_lt (by omega)
  have hone : ¬ value / 4096 % 0x10 + 0xE0 ≤ 0x7F := by omega
  have htwo : ¬ (0xC2 ≤ value / 4096 % 0x10 + 0xE0 ∧
      value / 4096 % 0x10 + 0xE0 ≤ 0xDF) := by omega
  have hin : 0xE0 ≤ value / 4096 % 0x10 + 0xE0 ∧
      value / 4096 % 0x10 + 0xE0 ≤ 0xEF := by omega
  have hcode : (value / 4096 % 0x10 + 0xE0) % 0x10 = value / 4096 := by
    omega
  have hlowest : value / 4096 % 0x10 + 0xE0 = 0xE0 ↔ value / 4096 = 0 := by
    omega
  have hsurrogate :
      value / 4096 % 0x10 + 0xE0 = 0xED ↔ value / 4096 = 0xD := by
    omega
  unfold first
  simp only [hbyte, if_neg hone, if_neg htwo, if_pos hin, hcode, hlowest,
    hsurrogate]

theorem first_four
    {value : ℕ} (hlow : 0xFFFF < value) (hhigh : value < 0x110000) :
    first (UInt8.ofNat (value / 262144 % 0x08 + 0xF0)) =
      ([], some
        { codePoint := value / 262144
          needed := 3
          lower := if value / 262144 = 0 then 0x90 else 0x80
          upper := if value / 262144 = 4 then 0x8F else 0xBF }) := by
  have hbyte : (UInt8.ofNat (value / 262144 % 0x08 + 0xF0)).toNat =
      value / 262144 % 0x08 + 0xF0 := toNat_ofNat_of_lt (by omega)
  have hone : ¬ value / 262144 % 0x08 + 0xF0 ≤ 0x7F := by omega
  have htwo : ¬ (0xC2 ≤ value / 262144 % 0x08 + 0xF0 ∧
      value / 262144 % 0x08 + 0xF0 ≤ 0xDF) := by omega
  have hthree : ¬ (0xE0 ≤ value / 262144 % 0x08 + 0xF0 ∧
      value / 262144 % 0x08 + 0xF0 ≤ 0xEF) := by omega
  have hin : 0xF0 ≤ value / 262144 % 0x08 + 0xF0 ∧
      value / 262144 % 0x08 + 0xF0 ≤ 0xF4 := by omega
  have hcode : (value / 262144 % 0x08 + 0xF0) % 0x08 = value / 262144 := by
    omega
  have hlowest :
      value / 262144 % 0x08 + 0xF0 = 0xF0 ↔ value / 262144 = 0 := by
    omega
  have hhighest :
      value / 262144 % 0x08 + 0xF0 = 0xF4 ↔ value / 262144 = 4 := by
    omega
  unfold first
  simp only [hbyte, if_neg hone, if_neg htwo, if_neg hthree, if_pos hin,
    hcode, hlowest, hhighest]

theorem decodeFrom_none_cons (byte : UInt8) (rest : Bytes) :
    decodeFrom none (byte :: rest) =
      (first byte).1 ++ decodeFrom (first byte).2 rest := rfl

theorem decodeFrom_char_append (c : Char) (rest : Bytes) :
    decodeFrom none (String.utf8EncodeChar c ++ rest) =
      c :: decodeFrom none rest := by
  have hvalid : c.toNat < 0xD800 ∨
      (0xDFFF < c.toNat ∧ c.toNat < 0x110000) := c.valid
  have hchar : Char.ofNat c.toNat = c := Char.ofNat_toNat c
  unfold String.utf8EncodeChar
  simp only [← Char.toNat.eq_def c]
  generalize hvalue : c.toNat = value at hvalid hchar
  split_ifs with hone htwo hthree
  · rw [List.cons_append, List.nil_append, decodeFrom_none_cons,
      first_of_le hone, hchar]
    rfl
  · have hcode : value / 64 * 0x40 + value % 0x40 = value := by omega
    simp only [List.cons_append, List.nil_append]
    rw [decodeFrom_none_cons, first_two (by omega) htwo, decodeFrom_cons,
      next_last rfl (by simp) (by simp; omega), hcode, hchar]
    rfl
  · have hcode : (value / 4096 * 0x40 + value / 64 % 0x40) * 0x40 +
        value % 0x40 = value := by
      omega
    have hlower : (if value / 4096 = 0 then 0xA0 else 0x80) ≤
        value / 64 % 0x40 + 0x80 := by
      split_ifs
      · omega
      · omega
    have hupper : value / 64 % 0x40 + 0x80 ≤
        if value / 4096 = 0xD then 0x9F else 0xBF := by
      split_ifs
      · omega
      · omega
    simp only [List.cons_append, List.nil_append]
    rw [decodeFrom_none_cons, first_three (by omega) hthree, decodeFrom_cons,
      next_tail (Nat.succ_ne_self 1) hlower hupper, decodeFrom_cons,
      next_last rfl (by simp) (by simp; omega), hcode, hchar]
    rfl
  · have hcode : ((value / 262144 * 0x40 + value / 4096 % 0x40) * 0x40 +
        value / 64 % 0x40) * 0x40 + value % 0x40 = value := by
      omega
    have hlower : (if value / 262144 = 0 then 0x90 else 0x80) ≤
        value / 4096 % 0x40 + 0x80 := by
      split_ifs
      · omega
      · omega
    have hupper : value / 4096 % 0x40 + 0x80 ≤
        if value / 262144 = 4 then 0x8F else 0xBF := by
      split_ifs
      · omega
      · omega
    simp only [List.cons_append, List.nil_append]
    rw [decodeFrom_none_cons, first_four (by omega) (by omega),
      decodeFrom_cons, next_tail (by simp) hlower hupper, decodeFrom_cons,
      next_tail (by simp) (by simp) (by simp; omega), decodeFrom_cons,
      next_last rfl (by simp) (by simp; omega), hcode, hchar]
    rfl

theorem decode_encode_append (text : List Char) (rest : Bytes) :
    decode (encode text ++ rest) = text ++ decode rest := by
  unfold decode
  induction text with
  | nil => rfl
  | cons c text ih =>
      rw [encode_cons, List.append_assoc, decodeFrom_char_append, ih,
        List.cons_append]

@[simp] theorem decode_encode (text : List Char) :
    decode (encode text) = text := by
  have hdecode := decode_encode_append text []
  rwa [List.append_nil, show decode [] = [] from rfl, List.append_nil]
    at hdecode

theorem encode_injective : Function.Injective encode :=
  Function.LeftInverse.injective decode_encode

@[simp] theorem decodeStrict_encode (text : List Char) :
    decodeStrict (encode text) = some text := by
  unfold decodeStrict
  rw [decode_encode, if_pos rfl]

/-! ## ASCII -/

theorem utf8EncodeChar_of_le {c : Char} (hascii : c.toNat ≤ 0x7F) :
    String.utf8EncodeChar c = [UInt8.ofNat c.toNat] := by
  unfold String.utf8EncodeChar
  exact if_pos hascii

theorem mem_utf8EncodeChar_iff
    {c : Char} {byte : UInt8} (hascii : byte.toNat < 0x80) :
    byte ∈ String.utf8EncodeChar c ↔ c.toNat = byte.toNat := by
  have hbyte : ∀ value < 256,
      byte = UInt8.ofNat value ↔ byte.toNat = value := by
    intro value hvalue
    rw [← UInt8.toNat_inj, toNat_ofNat_of_lt hvalue]
  unfold String.utf8EncodeChar
  simp only [← Char.toNat.eq_def c]
  generalize c.toNat = value
  split_ifs with hone htwo hthree
  · rw [List.mem_singleton, hbyte value (by omega)]
    exact eq_comm
  all_goals
    simp only [List.mem_cons, List.not_mem_nil, or_false]
    repeat rw [hbyte _ (by omega)]
    omega

theorem toNat_charOfNat {value : ℕ} (hvalue : value.isValidChar) :
    (Char.ofNat value).toNat = value := by
  unfold Char.ofNat
  rw [dif_pos hvalue]
  exact UInt32.toNat_ofNatLT

theorem mem_encode_iff
    {text : List Char} {byte : UInt8} (hascii : byte.toNat < 0x80) :
    byte ∈ encode text ↔ Char.ofNat byte.toNat ∈ text := by
  unfold encode
  simp only [List.mem_flatMap, mem_utf8EncodeChar_iff hascii]
  constructor
  · rintro ⟨c, hc, hbyte⟩
    rwa [← hbyte, Char.ofNat_toNat]
  · intro hmem
    refine ⟨_, hmem, ?_⟩
    exact toNat_charOfNat (Or.inl (by omega))

/-! ## Characters at the ends -/

theorem first_char_unique
    {c d : Char} {rest rest' : Bytes}
    (hsame : String.utf8EncodeChar c ++ rest =
      String.utf8EncodeChar d ++ rest') : c = d := by
  have hdecode := congrArg (decodeFrom none) hsame
  rw [decodeFrom_char_append, decodeFrom_char_append] at hdecode
  exact (List.cons.inj hdecode).1

/-- The bytes of a character are not the end of those of another one. -/
theorem char_of_suffix
    {c d : Char}
    (hsuffix : String.utf8EncodeChar c <:+ String.utf8EncodeChar d) :
    c = d := by
  obtain ⟨before, hbefore⟩ := hsuffix
  cases before with
  | nil =>
      have hsame : String.utf8EncodeChar c ++ [] =
          String.utf8EncodeChar d ++ [] := congrArg (· ++ []) hbefore
      exact first_char_unique hsame
  | cons byte before =>
      have hlength := congrArg List.length hbefore
      have hpos : 0 < (String.utf8EncodeChar c).length := by
        rw [String.length_utf8EncodeChar]
        exact Char.utf8Size_pos c
      rw [List.length_append] at hlength
      have hin : (byte :: before).length <
          (String.utf8EncodeChar d).length := by
        omega
      have hbyte : (String.utf8EncodeChar d)[(byte :: before).length]? =
          (String.utf8EncodeChar c)[0]? := by
        rw [← hbefore, List.getElem?_append_right (Nat.le_refl _),
          Nat.sub_self]
      rw [List.getElem?_eq_getElem hin, List.getElem?_eq_getElem hpos,
        Option.some.injEq] at hbyte
      have hfirst : ((String.utf8EncodeChar c)[0]).IsUTF8FirstByte :=
        UInt8.isUTF8FirstByte_getElem_utf8EncodeChar.mpr rfl
      rw [← hbyte, UInt8.isUTF8FirstByte_getElem_utf8EncodeChar] at hfirst
      cases hfirst

theorem last_char_unique
    {c d : Char} {rest rest' : Bytes}
    (hsame : rest ++ String.utf8EncodeChar c =
      rest' ++ String.utf8EncodeChar d) : c = d := by
  have hsuffix : String.utf8EncodeChar c <:+
      rest' ++ String.utf8EncodeChar d := ⟨rest, hsame⟩
  rcases List.suffix_or_suffix_of_suffix hsuffix
    (List.suffix_append rest' _) with hfirst | hsecond
  · exact char_of_suffix hfirst
  · exact (char_of_suffix hsecond).symm

end SoulonWallet.Utf8
