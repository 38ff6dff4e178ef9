import SoulonWallet.BitGroups
import SoulonWallet.Utf16Text

/-!
# Bech32 addresses

`AddressCodec` writes a human-readable part and bytes as a text of the Bech32
alphabet with a checksum of six characters, and reads such a text back.  The
integers are Dart's, 64 bits wide; the accumulator that regroups the bits
overflows on long data, which does not reach the bits that are still to be
taken out.
-/

namespace SoulonWallet.AddressCodec

open BitGroups

abbrev Word := BitVec 64

/-- A `FormatException`, or the error of an index out of range. -/
inductive Failure where
  | format (message : Utf16)
  | range
  deriving DecidableEq

def bech32Charset : Utf16 := "qpzry9x8gf2tvdw0s3jn54khce6mua7l"

def word (byte : UInt8) : Word :=
  BitVec.ofNat 64 byte.toNat

/-- `Uint8List.fromList`, which keeps the low eight bits. -/
def uint8List (values : List Word) : List UInt8 :=
  values.map fun value => UInt8.ofNat value.toNat

/-- The inner loop of `_convertBits`: what it adds to the result, and the
bits that are left.  It is only called with groups that are not empty. -/
def drain (toBits : ℕ) (acc : Word) (bits : ℕ) : List Word × ℕ :=
  if _h : 0 < toBits ∧ toBits ≤ bits then
    let rest := drain toBits acc (bits - toBits)
    ((acc.sshiftRight (bits - toBits) &&& ((1#64 <<< toBits) - 1#64)) ::
      rest.1, rest.2)
  else ([], bits)
termination_by bits

/-- The outer loop of `_convertBits`. -/
def convertLoop (fromBits toBits : ℕ) :
    Word → ℕ → List UInt8 → Option (List Word × Word × ℕ)
  | acc, bits, [] => some ([], acc, bits)
  | acc, bits, byte :: data =>
      let value := word byte
      if value.slt 0#64 ∨ value.sshiftRight fromBits ≠ 0#64 then none
      else
        let next := acc <<< fromBits ||| value
        let drained := drain toBits next (bits + fromBits)
        (convertLoop fromBits toBits next drained.2 data).map
          fun rest => (drained.1 ++ rest.1, rest.2)

def convertBits (data : List UInt8) (fromBits toBits : ℕ) (pad : Bool) :
    Option (List UInt8) :=
  match convertLoop fromBits toBits 0#64 0 data with
  | none => none
  | some (result, acc, bits) =>
      let last := acc <<< (toBits - bits) &&& ((1#64 <<< toBits) - 1#64)
      if pad then
        if 0 < bits then some (uint8List (result ++ [last]))
        else some (uint8List result)
      else if fromBits ≤ bits then none
      else if last ≠ 0#64 then none
      else some (uint8List result)

def hrpExpand (hrp : Utf16) : List Word :=
  (hrp.units.map fun unit => (BitVec.ofNat 64 unit.toNat).sshiftRight 5) ++
    [0#64] ++
    hrp.units.map fun unit => BitVec.ofNat 64 unit.toNat &&& 31#64

def generator : List Word :=
  [0x3b6a57b2, 0x26508e6d, 0x1ea119fa, 0x3d4233dd, 0x2a1462b3]

def polymodStep (chk value : Word) : Word :=
  let top := chk.sshiftRight 25
  generator.zipIdx.foldl
    (fun chk entry =>
      if top.sshiftRight entry.2 &&& 1#64 = 1#64 then chk ^^^ entry.1
      else chk)
    ((chk &&& 0x1ffffff#64) <<< 5 ^^^ value)

def polymod (values : List Word) : Word :=
  values.foldl polymodStep 1#64

def createChecksum (hrp : Utf16) (data : List Word) : List Word :=
  let checksum :=
    polymod (hrpExpand hrp ++ data ++ List.replicate 6 0#64) ^^^ 1#64
  (List.range 6).map fun i => checksum.sshiftRight (5 * (5 - i)) &&& 31#64

def verifyChecksum (hrp : Utf16) (data : List Word) : Bool :=
  polymod (hrpExpand hrp ++ data) = 1#64

def charAt (value : Word) : Except Failure UInt16 :=
  match bech32Charset.units[value.toNat]? with
  | some unit => .ok unit
  | none => .error .range

def indexOf (unit : UInt16) : Except Failure Word :=
  match bech32Charset.units.idxOf? unit with
  | some index => .ok (BitVec.ofNat 64 index)
  | none =>
      .error (.format (("Invalid Bech32 character: " : Utf16) ++ ⟨[unit]⟩))

def encode (hrp : Utf16) (data : List UInt8) : Except Failure Utf16 :=
  match convertBits data 8 5 true with
  | none =>
      .error (.format "Failed to convert address bytes to 5-bit groups")
  | some converted =>
      let values := converted.map word
      match (values ++ createChecksum hrp values).mapM charAt with
      | .error failure => .error failure
      | .ok units => .ok ⟨hrp.units ++ 0x31 :: units⟩

def decode (unicode : Utf16 → Utf16) (bech32String : Utf16) :
    Except Failure (Utf16 × List UInt8) :=
  let input := bech32String.toLowerCase unicode
  match input.lastIndexOf 0x31 with
  | none => .error (.format "Invalid Bech32 separator position")
  | some pos =>
      if pos < 1 ∨ input.length < pos + 7 then
        .error (.format "Invalid Bech32 separator position")
      else
        let hrp : Utf16 := ⟨input.units.take pos⟩
        match (input.units.drop (pos + 1)).mapM indexOf with
        | .error failure => .error failure
        | .ok data =>
            if ¬ verifyChecksum hrp data then
              .error (.format "Invalid Bech32 checksum")
            else
              let payload := data.take (data.length - 6)
              match convertBits (uint8List payload) 5 8 false with
              | none =>
                  .error (.format "Failed to convert 5-bit groups to bytes")
              | some converted => .ok (hrp, converted)

/-! ## Regrouping -/

/-- The bits of a list of words. -/
def wordBits (width : ℕ) (values : List Word) : List Bool :=
  words width (values.map BitVec.toNat)

/-- The bits of a list of bytes that hold numbers of the given width. -/
def byteBits (width : ℕ) (data : List UInt8) : List Bool :=
  words width (data.map UInt8.toNat)

theorem wordBits_append (width : ℕ) (left right : List Word) :
    wordBits width (left ++ right) =
      wordBits width left ++ wordBits width right := by
  simp [wordBits]

theorem toNat_word (byte : UInt8) : (word byte).toNat = byte.toNat := by
  have hbyte := byte.toNat_lt
  rw [word, BitVec.toNat_ofNat, Nat.mod_eq_of_lt (by omega)]

theorem map_toNat_uint8List
    {values : List Word} (hvalues : ∀ value ∈ values, value.toNat < 2 ^ 8) :
    (uint8List values).map UInt8.toNat = values.map BitVec.toNat := by
  rw [uint8List, List.map_map]
  apply List.map_congr_left
  intro value hmem
  exact UInt8.toNat_ofNat_of_lt' (hvalues value hmem)

/-- The groups that are taken out of the accumulator. -/
theorem drain_spec
    (toBits : ℕ) (acc : Word) (held : ℕ) (hpos : 0 < toBits)
    (hheld : held ≤ 64) (hwidth : toBits < 64) :
    wordBits toBits (drain toBits acc held).1 ++
        bits (drain toBits acc held).2 acc.toNat = bits held acc.toNat ∧
      (drain toBits acc held).2 < toBits ∧
      ∀ value ∈ (drain toBits acc held).1, value.toNat < 2 ^ toBits := by
  fun_induction drain toBits acc held with
  | case1 held hmore rest ih =>
      obtain ⟨hbits, hleft, hvalues⟩ := ih (by omega)
      have hvalue := toNat_takeOut acc (show held - toBits + toBits ≤ 64 by
        omega) hwidth
      refine ⟨?_, hleft, ?_⟩
      · rw [wordBits, List.map_cons, words_cons, hvalue, bits_mod,
          List.append_assoc]
        have hsplit : held = toBits + (held - toBits) := by omega
        conv_rhs => rw [hsplit, bits_add]
        congr 1
      · intro value hmem
        rcases List.mem_cons.mp hmem with rfl | hmem
        · rw [hvalue]
          exact Nat.mod_lt _ (Nat.two_pow_pos toBits)
        · exact hvalues value hmem
  | case2 held hless =>
      refine ⟨?_, by simpa [hpos] using hless, by simp⟩
      simp [wordBits]

theorem msb_eq_false_of_lt
    {value : Word} (hvalue : value.toNat < 2 ^ 63) : value.msb = false := by
  rw [BitVec.msb_eq_false_iff_two_mul_lt]
  omega

/-- A number that is not negative and has no bits above the shift. -/
theorem sshiftRight_eq_zero
    {value : Word} {width : ℕ} (hsign : value.toNat < 2 ^ 63)
    (hvalue : value.toNat < 2 ^ width) :
    value.sshiftRight width = 0#64 := by
  rw [BitVec.sshiftRight_eq_of_msb_false (msb_eq_false_of_lt hsign)]
  apply BitVec.eq_of_toNat_eq
  rw [BitVec.toNat_ushiftRight, Nat.shiftRight_eq_div_pow,
    Nat.div_eq_of_lt hvalue]
  rfl

theorem toNat_word_lt (byte : UInt8) : (word byte).toNat < 2 ^ 63 := by
  have hbyte := byte.toNat_lt
  rw [toNat_word]
  omega

/-- The loop cuts the bits of the data into groups, after those that are
held at its start and before those that are held at its end. -/
theorem convertLoop_spec
    {fromBits toBits : ℕ} (hpos : 0 < toBits) (hwidth : toBits < 64)
    (hfit : toBits + fromBits ≤ 64) {data : List UInt8}
    (hdata : ∀ byte ∈ data, byte.toNat < 2 ^ fromBits)
    (acc : Word) {held : ℕ} (hheld : held < toBits) :
    ∃ result acc' held',
      convertLoop fromBits toBits acc held data =
        some (result, acc', held') ∧
      wordBits toBits result ++ bits held' acc'.toNat =
        bits held acc.toNat ++ byteBits fromBits data ∧
      held' < toBits ∧ ∀ value ∈ result, value.toNat < 2 ^ toBits := by
  induction data generalizing acc held with
  | nil =>
      exact ⟨[], acc, held, rfl, by simp [wordBits, byteBits], hheld,
        by simp⟩
  | cons byte data ih =>
      obtain ⟨hbyte, hdata⟩ := List.forall_mem_cons.mp hdata
      have hvalue : (word byte).toNat < 2 ^ fromBits := by
        rw [toNat_word]
        exact hbyte
      have hshift := bits_shiftIn acc (word byte)
        (show held + fromBits ≤ 64 by omega) hvalue
      obtain ⟨hdrain, hleft, hvalues⟩ := drain_spec toBits
        (acc <<< fromBits ||| word byte) (held + fromBits) hpos (by omega)
        hwidth
      obtain ⟨result, acc', held', hloop, hbits, hheld', hresult⟩ :=
        ih hdata (acc <<< fromBits ||| word byte) hleft
      refine ⟨(drain toBits (acc <<< fromBits ||| word byte)
        (held + fromBits)).1 ++ result, acc', held', ?_, ?_, hheld', ?_⟩
      · have hsign : (word byte).slt 0#64 = false := by
          rw [BitVec.slt_zero_eq_msb,
            msb_eq_false_of_lt (toNat_word_lt byte)]
        simp only [convertLoop, hsign,
          sshiftRight_eq_zero (toNat_word_lt byte) hvalue]
        rw [if_neg (by simp), hloop]
        rfl
      · rw [wordBits_append, List.append_assoc, hbits, ← List.append_assoc,
          hdrain, hshift, toNat_word, List.append_assoc]
        rfl
      · intro value hmem
        rcases List.mem_append.mp hmem with hdrained | hrest
        · exact hvalues value hdrained
        · exact hresult value hrest

/-- The bits that are held, filled up with zeros to a group. -/
theorem bits_last
    {toBits held : ℕ} (acc : Word) (hwidth : toBits < 64)
    (hheld : held ≤ toBits) :
    bits toBits
        (acc <<< (toBits - held) &&& ((1#64 <<< toBits) - 1#64)).toNat =
      bits held acc.toNat ++ List.replicate (toBits - held) false := by
  have hshift := bits_shiftIn acc 0#64
    (show held + (toBits - held) ≤ 64 by omega) (Nat.two_pow_pos _)
  rw [BitVec.toNat_and, toNat_mask hwidth, Nat.and_two_pow_sub_one_eq_mod,
    bits_mod]
  rw [BitVec.or_zero, BitVec.toNat_ofNat, Nat.zero_mod, bits_zero] at hshift
  rwa [Nat.add_sub_cancel' hheld] at hshift

theorem last_lt
    {toBits : ℕ} (held : ℕ) (acc : Word) (hwidth : toBits < 64) :
    (acc <<< (toBits - held) &&& ((1#64 <<< toBits) - 1#64)).toNat <
      2 ^ toBits := by
  rw [BitVec.toNat_and, toNat_mask hwidth, Nat.and_two_pow_sub_one_eq_mod]
  exact Nat.mod_lt _ (Nat.two_pow_pos toBits)

theorem last_eq_zero_iff
    {toBits held : ℕ} (acc : Word) (hwidth : toBits < 64)
    (hheld : held ≤ toBits) :
    acc <<< (toBits - held) &&& ((1#64 <<< toBits) - 1#64) = 0#64 ↔
      bits held acc.toNat = List.replicate held false := by
  have hlast := bits_last acc hwidth hheld
  have hzeros : List.replicate toBits false =
      List.replicate held false ++ List.replicate (toBits - held) false := by
    rw [← List.replicate_add, Nat.add_sub_cancel' hheld]
  constructor
  · intro hzero
    rw [hzero, BitVec.toNat_ofNat, Nat.zero_mod, bits_zero, hzeros] at hlast
    exact (List.append_cancel_right hlast).symm
  · intro hheldBits
    apply BitVec.eq_of_toNat_eq
    apply eq_of_bits_eq (last_lt held acc hwidth) (Nat.two_pow_pos toBits)
    rw [hlast, hheldBits, ← hzeros]
    exact (bits_zero toBits).symm

/-- Groups of at most eight bits are kept by a byte list. -/
theorem byteBits_uint8List
    {toBits : ℕ} {values : List Word} (hwidth : toBits ≤ 8)
    (hvalues : ∀ value ∈ values, value.toNat < 2 ^ toBits) :
    byteBits toBits (uint8List values) = wordBits toBits values ∧
      ∀ byte ∈ uint8List values, byte.toNat < 2 ^ toBits := by
  have hbytes := map_toNat_uint8List fun value hmem =>
    (hvalues value hmem).trans_le (Nat.pow_le_pow_right Nat.two_pos hwidth)
  constructor
  · rw [byteBits, hbytes, wordBits]
  · intro byte hmem
    have htoNat : byte.toNat ∈ values.map BitVec.toNat :=
      hbytes ▸ List.mem_map_of_mem hmem
    obtain ⟨value, hvalue, hsame⟩ := List.mem_map.mp htoNat
    rw [← hsame]
    exact hvalues value hvalue

/-- With padding the bits of the data are filled up with zeros. -/
theorem convertBits_pad
    {fromBits toBits : ℕ} (hpos : 0 < toBits) (hto : toBits ≤ 8)
    (hfrom : fromBits ≤ 8) {data : List UInt8}
    (hdata : ∀ byte ∈ data, byte.toNat < 2 ^ fromBits) :
    ∃ out filled,
      convertBits data fromBits toBits true = some out ∧
      filled < toBits ∧
      byteBits toBits out =
        byteBits fromBits data ++ List.replicate filled false ∧
      ∀ byte ∈ out, byte.toNat < 2 ^ toBits := by
  obtain ⟨result, acc, held, hloop, hbits, hheld, hresult⟩ :=
    convertLoop_spec hpos (by omega) (by omega) hdata 0#64 hpos
  simp only [bits, List.nil_append] at hbits
  by_cases hempty : 0 < held
  · have hlast := bits_last acc (show toBits < 64 by omega) hheld.le
    have hvalues := List.forall_mem_append.mpr
      ⟨hresult, List.forall_mem_singleton.mpr
        (last_lt held acc (show toBits < 64 by omega))⟩
    obtain ⟨hbytes, hbound⟩ := byteBits_uint8List hto hvalues
    refine ⟨_, toBits - held, ?_, by omega, ?_, hbound⟩
    · simp [convertBits, hloop, hempty]
    · rw [hbytes, wordBits_append, ← hbits, List.append_assoc, ← hlast]
      simp [wordBits]
  · obtain ⟨hbytes, hbound⟩ := byteBits_uint8List hto hresult
    refine ⟨_, 0, ?_, hpos, ?_, hbound⟩
    · simp [convertBits, hloop, hempty]
    · obtain rfl : held = 0 := by omega
      rw [hbytes, ← hbits]
      simp [bits]

/-- Without padding the rest has to be zeros and shorter than a group of the
data. -/
theorem convertBits_noPad_iff
    {fromBits toBits : ℕ} (hpos : 0 < toBits) (hto : toBits ≤ 8)
    (hfrom : fromBits ≤ 8) {data out : List UInt8}
    (hdata : ∀ byte ∈ data, byte.toNat < 2 ^ fromBits) :
    convertBits data fromBits toBits false = some out ↔
      ∃ filled, filled < fromBits ∧ filled < toBits ∧
        byteBits toBits out ++ List.replicate filled false =
          byteBits fromBits data ∧
        ∀ byte ∈ out, byte.toNat < 2 ^ toBits := by
  obtain ⟨result, acc, held, hloop, hbits, hheld, hresult⟩ :=
    convertLoop_spec hpos (by omega) (by omega) hdata 0#64 hpos
  simp only [bits, List.nil_append] at hbits
  obtain ⟨hbytes, hbound⟩ := byteBits_uint8List hto hresult
  have hzero := last_eq_zero_iff acc (show toBits < 64 by omega) hheld.le
  constructor
  · intro hsome
    simp only [convertBits, hloop, Bool.false_eq_true, if_false] at hsome
    split_ifs at hsome with hlong hrest
    obtain rfl := Option.some.inj hsome
    refine ⟨held, by omega, hheld, ?_, hbound⟩
    rw [hbytes, ← hzero.mp (not_not.mp hrest), hbits]
  · rintro ⟨filled, hshort, hfilled, hsame, hout⟩
    rw [← hbits] at hsame
    obtain ⟨hvalues, hrest⟩ := words_append_inj
      (List.forall_mem_map.mpr hout) (List.forall_mem_map.mpr hresult)
      (by simpa using hfilled) (by simpa using hheld) hsame
    have hlength := congrArg List.length hrest
    simp only [List.length_replicate, length_bits] at hlength
    subst hlength
    have hbytesNat := map_toNat_uint8List fun value hmem =>
      (hresult value hmem).trans_le (Nat.pow_le_pow_right Nat.two_pos hto)
    rw [eq_of_map_toNat_eq (hvalues.trans hbytesNat.symm)]
    simp [convertBits, hloop, hshort.not_ge, hzero.mpr hrest.symm]

theorem toNat_lt_of_mem (data : List UInt8) :
    ∀ byte ∈ data, byte.toNat < 2 ^ 8 :=
  fun byte _ => byte.toNat_lt

/-- Bytes that are cut into groups of five come back. -/
theorem convertBits_bytes (data : List UInt8) :
    ∃ converted,
      convertBits data 8 5 true = some converted ∧
      (∀ byte ∈ converted, byte.toNat < 2 ^ 5) ∧
      convertBits converted 5 8 false = some data := by
  obtain ⟨converted, filled, hconvert, hfilled, hbits, hgroups⟩ :=
    convertBits_pad (show 0 < 5 by omega) (show 5 ≤ 8 by omega) le_rfl
      (toNat_lt_of_mem data)
  refine ⟨converted, hconvert, hgroups, ?_⟩
  rw [convertBits_noPad_iff (by omega) le_rfl (by omega) hgroups]
  exact ⟨filled, hfilled, by omega, hbits.symm, toNat_lt_of_mem data⟩

/-- Groups of five that make up bytes come back. -/
theorem convertBits_groups
    {payload out : List UInt8}
    (hpayload : ∀ byte ∈ payload, byte.toNat < 2 ^ 5)
    (hconvert : convertBits payload 5 8 false = some out) :
    convertBits out 8 5 true = some payload := by
  rw [convertBits_noPad_iff (by omega) le_rfl (by omega) hpayload] at hconvert
  obtain ⟨filled, hfilled, -, hbits, -⟩ := hconvert
  obtain ⟨converted, filled', hback, hfilled', hbits', hgroups⟩ :=
    convertBits_pad (show 0 < 5 by omega) (show 5 ≤ 8 by omega) le_rfl
      (toNat_lt_of_mem out)
  have hlength := congrArg List.length hbits
  have hlength' := congrArg List.length hbits'
  simp only [byteBits, List.length_append, length_words, List.length_map,
    List.length_replicate] at hlength hlength'
  have hsame : filled' = filled := by omega
  subst hsame
  rw [hbits, byteBits, byteBits] at hbits'
  have hvalues := eq_of_words_eq
    (List.forall_mem_map.mpr hgroups) (List.forall_mem_map.mpr hpayload)
    (by omega) hbits'
  rw [hback, eq_of_map_toNat_eq hvalues]

end SoulonWallet.AddressCodec
