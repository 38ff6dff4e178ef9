import SoulonWallet.Bech32RoundTrip
import SoulonWallet.Bip173

/-!
# Validation of addresses

`isValid` accepts what `decode` decodes.  Decoding lowers the case of the
text first, and then checks the separator, the characters after it, the
checksum and the padding.  The rules of BIP-173 on a whole text have no
counterpart in `AddressCodec`: a valid text is an accepted one that is short,
printable and not in mixed case.
-/

namespace SoulonWallet.AddressCodec

open BitGroups

def isValid (unicode : Utf16 → Utf16) (address : Utf16)
    (expectedHrp : Option Utf16) : Bool :=
  match decode unicode address with
  | .error _ => false
  | .ok (hrp, _) =>
      match expectedHrp with
      | some expected => hrp == expected
      | none => true

/-- The character codes of a text. -/
def codes (text : Utf16) : List ℕ :=
  text.units.map UInt16.toNat

/-! ## The checksum -/

theorem toNat_reduce
    {top : Word} {top' : ℕ} (htop : top.toNat = top')
    (chk : Word) {entries : List (Word × ℕ)}
    (hentries : ∀ entry ∈ entries, entry.2 < 64) :
    (entries.foldl
        (fun chk entry =>
          if top.sshiftRight entry.2 &&& 1#64 = 1#64 then chk ^^^ entry.1
          else chk)
        chk).toNat =
      Bip173.reduce top' chk.toNat
        (entries.map fun entry => (entry.1.toNat, entry.2)) := by
  induction entries generalizing chk with
  | nil => rfl
  | cons entry rest ih =>
      obtain ⟨hentry, hrest⟩ := List.forall_mem_cons.mp hentries
      rw [List.foldl_cons, ih _ hrest, List.map_cons, Bip173.reduce,
        Bip173.reduce, List.foldl_cons]
      congr 1
      have hbit : top.sshiftRight entry.2 &&& 1#64 = 1#64 ↔
          top'.testBit entry.2 = true := by
        rw [sshiftRight_and_one_iff hentry, ← htop, BitVec.testBit_toNat]
      simp only [hbit]
      split_ifs
      · exact BitVec.toNat_xor _ _
      · rfl

/-- On remainders below thirty bits the step is that of BIP-173. -/
theorem toNat_polymodStep
    {chk : Word} (hchk : chk.toNat < 2 ^ 30) (value : Word) :
    (polymodStep chk value).toNat =
      Bip173.polymodStep chk.toNat value.toNat := by
  have htop : (chk.sshiftRight 25).toNat = chk.toNat >>> 25 := by
    rw [BitVec.sshiftRight_eq_of_msb_false (msb_eq_false_of_lt (by omega)),
      BitVec.toNat_ushiftRight]
  have hmask : (chk &&& 0x1ffffff#64).toNat < 2 ^ 25 := by
    rw [BitVec.toNat_and]
    exact Nat.and_lt_two_pow _ (by decide)
  have hstart : ((chk &&& 0x1ffffff#64) <<< 5 ^^^ value).toNat =
      (chk.toNat &&& 0x1ffffff) <<< 5 ^^^ value.toNat := by
    rw [BitVec.toNat_xor, BitVec.toNat_shiftLeft, Nat.shiftLeft_eq,
      Nat.mod_eq_of_lt (by omega), BitVec.toNat_and, Nat.shiftLeft_eq]
    rfl
  rw [polymodStep, toNat_reduce htop _ (by decide), hstart]
  rfl

theorem toNat_foldl_polymodStep
    {chk : Word} (hchk : chk.toNat < 2 ^ 30) {values : List Word}
    (hvalues : ∀ value ∈ values, value.toNat < 2 ^ 30) :
    (values.foldl polymodStep chk).toNat =
      (values.map BitVec.toNat).foldl Bip173.polymodStep chk.toNat := by
  induction values generalizing chk with
  | nil => rfl
  | cons value values ih =>
      obtain ⟨hvalue, hvalues⟩ := List.forall_mem_cons.mp hvalues
      rw [List.foldl_cons, ih (polymodStep_lt chk hvalue) hvalues,
        toNat_polymodStep hchk, List.map_cons, List.foldl_cons]

theorem toNat_ofUnit (unit : UInt16) :
    (BitVec.ofNat 64 unit.toNat).toNat = unit.toNat := by
  have hunit := unit.toNat_lt
  rw [BitVec.toNat_ofNat, Nat.mod_eq_of_lt (by omega)]

theorem map_toNat_hrpExpand (hrp : Utf16) :
    (hrpExpand hrp).map BitVec.toNat = Bip173.hrpExpand (codes hrp) := by
  have hhigh : ∀ unit : UInt16,
      ((BitVec.ofNat 64 unit.toNat).sshiftRight 5).toNat =
        unit.toNat >>> 5 := by
    intro unit
    have hunit := unit.toNat_lt
    have hsign : (BitVec.ofNat 64 unit.toNat).msb = false := by
      apply msb_eq_false_of_lt
      rw [toNat_ofUnit]
      omega
    rw [BitVec.sshiftRight_eq_of_msb_false hsign, BitVec.toNat_ushiftRight,
      toNat_ofUnit]
  have hlow : ∀ unit : UInt16,
      (BitVec.ofNat 64 unit.toNat &&& 31#64).toNat = unit.toNat &&& 31 := by
    intro unit
    rw [BitVec.toNat_and, toNat_ofUnit]
    rfl
  simp only [hrpExpand, Bip173.hrpExpand, codes, List.map_append,
    List.map_map, List.map_cons, List.map_nil, Function.comp_def, hhigh, hlow]
  rfl

theorem hrpExpand_lt (hrp : Utf16) :
    ∀ value ∈ hrpExpand hrp, value.toNat < 2 ^ 30 := by
  intro value hvalue
  have hmem : value.toNat ∈ Bip173.hrpExpand (codes hrp) :=
    map_toNat_hrpExpand hrp ▸ List.mem_map_of_mem hvalue
  simp only [Bip173.hrpExpand, codes, List.map_map, List.mem_append,
    List.mem_map, List.mem_singleton, Function.comp_apply] at hmem
  rcases hmem with (⟨unit, -, hsame⟩ | hzero) | ⟨unit, -, hsame⟩
  · have hunit := unit.toNat_lt
    have hle : unit.toNat >>> 5 ≤ unit.toNat := Nat.shiftRight_le _ _
    omega
  · omega
  · have hle : unit.toNat &&& 31 ≤ 31 := Nat.and_le_right
    omega

/-- The checksum is verified as BIP-173 says. -/
theorem verifyChecksum_eq_true_iff
    {hrp : Utf16} {data : List Word}
    (hdata : ∀ value ∈ data, value.toNat < 2 ^ 5) :
    verifyChecksum hrp data = true ↔
      Bip173.polymod (Bip173.hrpExpand (codes hrp) ++
        data.map BitVec.toNat) = 1 := by
  have hvalues := List.forall_mem_append.mpr
    ⟨hrpExpand_lt hrp, fun value hmem =>
      (hdata value hmem).trans (show 2 ^ 5 < 2 ^ 30 by decide)⟩
  have hpolymod : (polymod (hrpExpand hrp ++ data)).toNat =
      Bip173.polymod (Bip173.hrpExpand (codes hrp) ++
        data.map BitVec.toNat) := by
    rw [polymod, toNat_foldl_polymodStep (by decide) hvalues,
      List.map_append, map_toNat_hrpExpand]
    rfl
  rw [verifyChecksum, decide_eq_true_iff, ← hpolymod, ← BitVec.toNat_inj]
  rfl

/-! ## The characters -/

theorem charset_eq : Bip173.charset = codes bech32Charset := by
  decide

theorem indexOf_eq_ok_iff
    {unit : UInt16} {value : Word} :
    indexOf unit = .ok value ↔
      value.toNat < 2 ^ 5 ∧ unit.toNat = Bip173.character value.toNat := by
  have hlength := length_bech32Charset
  have hcharacter : ∀ hlt : value.toNat < bech32Charset.units.length,
      Bip173.character value.toNat =
        (bech32Charset.units[value.toNat]).toNat := by
    intro hlt
    rw [Bip173.character, charset_eq, codes, List.getD_eq_getElem?_getD,
      List.getElem?_map, List.getElem?_eq_getElem hlt]
    rfl
  rw [← charAt_eq_ok_iff]
  constructor
  · intro hchar
    have hvalue := (indexOf_eq_ok (charAt_eq_ok_iff.mp hchar)).2
    have hlt : value.toNat < bech32Charset.units.length := by omega
    rw [charAt, List.getElem?_eq_getElem hlt] at hchar
    rw [hcharacter hlt, Except.ok.inj hchar]
    exact ⟨hvalue, rfl⟩
  · rintro ⟨hvalue, hunit⟩
    have hlt : value.toNat < bech32Charset.units.length := by omega
    rw [hcharacter hlt] at hunit
    rw [charAt, List.getElem?_eq_getElem hlt, UInt16.toNat_inj.mp hunit]

theorem mapM_indexOf_eq_ok_iff
    {units : List UInt16} {data : List Word} :
    units.mapM indexOf = .ok data ↔
      (∀ value ∈ data, value.toNat < 2 ^ 5) ∧
        units.map UInt16.toNat =
          (data.map BitVec.toNat).map Bip173.character := by
  rw [mapM_eq_ok_iff]
  induction units generalizing data with
  | nil =>
      rw [List.forall₂_nil_left_iff]
      constructor
      · rintro rfl
        simp
      · rintro ⟨-, hsame⟩
        simpa using hsame.symm
  | cons unit units ih =>
      cases data with
      | nil => simp
      | cons value data =>
          rw [List.forall₂_cons, ih, indexOf_eq_ok_iff, List.forall_mem_cons,
            List.map_cons, List.map_cons, List.map_cons, List.cons.injEq]
          tauto

/-! ## The padding -/

theorem exists_convertBits_iff
    {payload : List Word} (hpayload : ∀ value ∈ payload, value.toNat < 2 ^ 5) :
    (∃ out, convertBits (uint8List payload) 5 8 false = some out) ↔
      ∃ bytes filled,
        (∀ byte ∈ bytes, byte < 2 ^ 8) ∧ filled < 5 ∧
          words 8 bytes ++ List.replicate filled false =
            words 5 (payload.map BitVec.toNat) := by
  obtain ⟨hbits, hgroups⟩ :=
    byteBits_uint8List (show 5 ≤ 8 by omega) hpayload
  have hconvert : ∀ out, convertBits (uint8List payload) 5 8 false = some out ↔
      ∃ filled, filled < 5 ∧ filled < 8 ∧
        byteBits 8 out ++ List.replicate filled false =
          byteBits 5 (uint8List payload) ∧
        ∀ byte ∈ out, byte.toNat < 2 ^ 8 :=
    fun out => convertBits_noPad_iff (by omega) le_rfl (by omega) hgroups
  simp only [hconvert]
  rw [hbits]
  constructor
  · rintro ⟨out, filled, hfilled, -, hsame, -⟩
    refine ⟨out.map UInt8.toNat, filled, ?_, hfilled, hsame⟩
    exact List.forall_mem_map.mpr fun byte _ => byte.toNat_lt
  · rintro ⟨bytes, filled, hbytes, hfilled, hsame⟩
    have hback : (bytes.map UInt8.ofNat).map UInt8.toNat = bytes := by
      rw [List.map_map]
      conv_rhs => rw [← List.map_id bytes]
      apply List.map_congr_left
      intro byte hmem
      exact UInt8.toNat_ofNat_of_lt' (hbytes byte hmem)
    refine ⟨bytes.map UInt8.ofNat, filled, hfilled, by omega, ?_,
      toNat_lt_of_mem _⟩
    rw [byteBits, hback]
    exact hsame

theorem exists_words
    {values : List ℕ} (hvalues : ∀ value ∈ values, value < 2 ^ 5) :
    ∃ data : List Word, data.map BitVec.toNat = values ∧
      ∀ value ∈ data, value.toNat < 2 ^ 5 := by
  have hback : ∀ value < 2 ^ 5, (BitVec.ofNat 64 value).toNat = value := by
    intro value hvalue
    rw [BitVec.toNat_ofNat, Nat.mod_eq_of_lt (by omega)]
  refine ⟨values.map (BitVec.ofNat 64), ?_, ?_⟩
  · rw [List.map_map]
    conv_rhs => rw [← List.map_id values]
    apply List.map_congr_left
    intro value hmem
    exact hback value (hvalues value hmem)
  · rw [List.forall_mem_map]
    intro value hmem
    rw [hback value (hvalues value hmem)]
    exact hvalues value hmem

/-! ## Valid addresses -/

theorem isValid_none_iff
    {unicode : Utf16 → Utf16} {text : Utf16} :
    isValid unicode text none = true ↔
      ∃ hrp out, decode unicode text = .ok (hrp, out) := by
  unfold isValid
  cases hdecode : decode unicode text with
  | error failure => simp
  | ok result => exact iff_of_true rfl ⟨result.1, result.2, rfl⟩

/-- What is accepted, for a text of any length and any letter case. -/
theorem isValid_iff_encodes
    {unicode : Utf16 → Utf16} {text : Utf16} :
    isValid unicode text none = true ↔
      ∃ hrp values,
        Bip173.Encodes (codes (text.toLowerCase unicode)) hrp values ∧
          Bip173.Regroups values := by
  simp only [isValid_none_iff, decode_eq_ok_iff_split]
  constructor
  · rintro ⟨hrp, out, units, data, htext, hne, hdata, hsix, hverify,
      hconvert⟩
    obtain ⟨hvalues, hunits⟩ := mapM_indexOf_eq_ok_iff.mp hdata
    refine ⟨codes hrp, data.map BitVec.toNat, ⟨?_, ?_, ?_, ?_, ?_⟩, ?_⟩
    · rw [codes, htext, List.map_append, List.map_cons, hunits]
      rfl
    · rw [codes, List.length_map]
      exact List.length_pos_of_ne_nil hne
    · exact List.forall_mem_map.mpr hvalues
    · rwa [List.length_map]
    · exact (verifyChecksum_eq_true_iff hvalues).mp hverify
    · rw [Bip173.Regroups, List.length_map, ← List.map_take]
      exact (exists_convertBits_iff fun value hmem =>
        hvalues value (List.mem_of_mem_take hmem)).mp ⟨out, hconvert⟩
  · rintro ⟨hrp, values, hencodes, hregroups⟩
    obtain ⟨front, rest, htext, rfl, hrest⟩ :=
      List.map_eq_append_iff.mp hencodes.text_eq
    obtain ⟨unit, units, rfl, hunit, hunits⟩ := List.map_eq_cons_iff.mp hrest
    obtain rfl : unit = 0x31 := UInt16.toNat_inj.mp hunit
    obtain ⟨data, rfl, hvalues⟩ := exists_words hencodes.values_lt
    have hdata := mapM_indexOf_eq_ok_iff.mpr ⟨hvalues, hunits⟩
    have hsix := hencodes.six_le
    have hpayload : ∀ value ∈ data.take (data.length - 6),
        value.toNat < 2 ^ 5 :=
      fun value hmem => hvalues value (List.mem_of_mem_take hmem)
    rw [Bip173.Regroups, List.length_map, ← List.map_take] at hregroups
    obtain ⟨out, hconvert⟩ := (exists_convertBits_iff hpayload).mpr hregroups
    have hpos := hencodes.hrp_pos
    rw [List.length_map] at hpos
    refine ⟨⟨front⟩, out, units, data, htext, List.ne_nil_of_length_pos hpos,
      hdata, ?_, ?_, hconvert⟩
    · rwa [List.length_map] at hsix
    · exact (verifyChecksum_eq_true_iff hvalues).mpr hencodes.checksum

theorem lower_toNat (unit : UInt16) :
    (Utf16.lowerUnit unit).toNat = Bip173.lower unit.toNat := by
  have hupper : (0x41 ≤ unit ∧ unit ≤ 0x5A) ↔ Bip173.IsUpper unit.toNat := by
    rw [UInt16.le_iff_toNat_le, UInt16.le_iff_toNat_le]
    exact Iff.rfl
  unfold Utf16.lowerUnit Bip173.lower
  by_cases hletter : 0x41 ≤ unit ∧ unit ≤ 0x5A
  · have hbounds := hupper.mp hletter
    unfold Bip173.IsUpper at hbounds
    rw [if_pos hletter, if_pos (hupper.mp hletter), UInt16.toNat_add]
    exact Nat.mod_eq_of_lt (show unit.toNat + 32 < 2 ^ 16 by omega)
  · rw [if_neg hletter, if_neg (hupper.not.mp hletter)]

/-- On printable texts the lower case is that of the ASCII letters. -/
theorem codes_toLowerCase
    {text : Utf16} (unicode : Utf16 → Utf16)
    (hrange : ∀ c ∈ codes text, Bip173.InRange c) :
    codes (text.toLowerCase unicode) = (codes text).map Bip173.lower := by
  have hascii : text.units.all (· < 0x80) = true := by
    rw [List.all_eq_true]
    intro unit hmem
    have hbounds := hrange _ (List.mem_map_of_mem hmem)
    unfold Bip173.InRange at hbounds
    rw [decide_eq_true_iff, UInt16.lt_iff_toNat_lt]
    exact show unit.toNat < 128 by omega
  rw [Utf16.toLowerCase, if_pos hascii, codes, codes, List.map_map,
    List.map_map]
  exact List.map_congr_left fun unit _ => lower_toNat unit

/-- An address is accepted exactly when its lower case form is a
human-readable part, the separator and at least six characters with a correct
checksum and a correct padding; the addresses that BIP-173 calls valid are
those that are accepted, of at most 90 printable characters and not in mixed
case. -/
theorem isValid_iff_bip173 (unicode : Utf16 → Utf16) (text : Utf16) :
    (isValid unicode text none = true ↔
      ∃ hrp values,
        Bip173.Encodes (codes (text.toLowerCase unicode)) hrp values ∧
          Bip173.Regroups values) ∧
    ((∃ hrp values,
        Bip173.Valid (codes text) hrp values ∧ Bip173.Regroups values) ↔
      isValid unicode text none = true ∧ text.length ≤ 90 ∧
        ¬ Bip173.Mixed (codes text) ∧
        ∀ c ∈ codes text, Bip173.InRange c) := by
  have hlength : (codes text).length = text.length := List.length_map _
  refine ⟨isValid_iff_encodes, ?_⟩
  simp only [Bip173.valid_iff, isValid_iff_encodes, hlength]
  constructor
  · rintro ⟨hrp, values, ⟨hencodes, hshort, hunmixed, hrange⟩, hregroups⟩
    rw [← codes_toLowerCase unicode hrange] at hencodes
    exact ⟨⟨hrp, values, hencodes, hregroups⟩, hshort, hunmixed, hrange⟩
  · rintro ⟨⟨hrp, values, hencodes, hregroups⟩, hshort, hunmixed, hrange⟩
    rw [codes_toLowerCase unicode hrange] at hencodes
    exact ⟨hrp, values, ⟨hencodes, hshort, hunmixed, hrange⟩, hregroups⟩

def mixedAddress : Utf16 := "sOULON1QQQSYQLLLA92P5"

def longAddress : Utf16 :=
  "soulon1qqqqqqqqqqqqqqqqqqqqqqqqqqqqqqqqqqqqqqqqqqqqqqqqqqqqqqqqqqqqqqqqqqqqqqqqqqqqqqqqh8zxqc"

def spacedAddress : Utf16 := " soulon1qqqqqqqqm0ml0f"

/-- The codec accepts the address, and it is none of BIP-173. -/
def AcceptedBeyondBip173 (address : Utf16) : Prop :=
  isValid id address none = true ∧
    ¬ ∃ hrp values,
      Bip173.Valid (codes address) hrp values ∧ Bip173.Regroups values

/-- Addresses in mixed case, with 93 characters or with a space in front are
accepted. -/
theorem isValid_beyond_bip173 :
    AcceptedBeyondBip173 mixedAddress ∧ AcceptedBeyondBip173 longAddress ∧
      AcceptedBeyondBip173 spacedAddress := by
  refine ⟨⟨by decide +kernel, ?_⟩, ⟨by decide +kernel, ?_⟩,
    by decide +kernel, ?_⟩
  · rintro ⟨hrp, values, hvalid, -⟩
    obtain ⟨-, -, hunmixed, -⟩ := Bip173.valid_iff.mp hvalid
    exact hunmixed (by decide +kernel)
  · rintro ⟨hrp, values, hvalid, -⟩
    obtain ⟨-, hshort, -, -⟩ := Bip173.valid_iff.mp hvalid
    exact absurd hshort (by decide +kernel)
  · rintro ⟨hrp, values, hvalid, -⟩
    obtain ⟨-, -, -, hrange⟩ := Bip173.valid_iff.mp hvalid
    exact absurd (hrange 32 (by decide +kernel)) (by decide)

end SoulonWallet.AddressCodec
