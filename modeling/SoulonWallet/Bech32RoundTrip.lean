import SoulonWallet.Bech32Checksum
import SoulonWallet.ExceptResults

/-!
# Encoding and decoding addresses

Decoding reads back what encoding wrote, and encoding what was decoded gives
the text in lower case.  The human-readable part may hold the separator
itself: no character of the alphabet is the separator, so the last one in the
text is the one that was written.
-/

namespace SoulonWallet.AddressCodec

open BitGroups

/-! ## Characters -/

theorem length_bech32Charset : bech32Charset.units.length = 32 := by
  decide

theorem nodup_bech32Charset : bech32Charset.units.Nodup := by
  decide

/-- The places of the alphabet and its characters belong to each other. -/
theorem charAt_eq_ok_iff
    {value : Word} {unit : UInt16} :
    charAt value = .ok unit ↔ indexOf unit = .ok value := by
  have hlength := length_bech32Charset
  constructor
  · intro hchar
    unfold charAt at hchar
    split at hchar
    next other hother =>
      obtain rfl := Except.ok.inj hchar
      obtain ⟨hlt, hget⟩ := List.getElem?_eq_some_iff.mp hother
      have hindex : bech32Charset.units.idxOf? other = some value.toNat := by
        rw [List.idxOf?_eq_some_iff]
        refine ⟨hlt, hget, ?_⟩
        intro j hj hsame
        have heq := (List.Nodup.getElem_inj_iff nodup_bech32Charset).mp
          (hsame.trans hget.symm)
        omega
      simp only [indexOf, hindex, BitVec.ofNat_toNat, BitVec.setWidth_eq]
    next => cases hchar
  · intro hindex
    unfold indexOf at hindex
    split at hindex
    next index hfound =>
      obtain rfl := Except.ok.inj hindex
      obtain ⟨hlt, hget, -⟩ := List.idxOf?_eq_some_iff.mp hfound
      have htoNat : (BitVec.ofNat 64 index).toNat = index := by
        rw [BitVec.toNat_ofNat, Nat.mod_eq_of_lt (by omega)]
      unfold charAt
      rw [htoNat, List.getElem?_eq_getElem hlt, hget]
    next => cases hindex

theorem mapM_charAt_eq_ok_iff
    {values : List Word} {units : List UInt16} :
    values.mapM charAt = .ok units ↔ units.mapM indexOf = .ok values := by
  rw [mapM_eq_ok_iff, mapM_eq_ok_iff]
  constructor
  · intro hforall
    exact List.Forall₂.flip
      (hforall.imp fun _ _ hchar => charAt_eq_ok_iff.mp hchar)
  · intro hforall
    exact List.Forall₂.flip
      (hforall.imp fun _ _ hindex => charAt_eq_ok_iff.mpr hindex)

theorem indexOf_eq_ok
    {unit : UInt16} {value : Word} (hindex : indexOf unit = .ok value) :
    unit ∈ bech32Charset.units ∧ value.toNat < 2 ^ 5 := by
  have hchar := charAt_eq_ok_iff.mpr hindex
  unfold charAt at hchar
  split at hchar
  next other hother =>
    obtain rfl := Except.ok.inj hchar
    obtain ⟨hlt, hget⟩ := List.getElem?_eq_some_iff.mp hother
    rw [length_bech32Charset] at hlt
    exact ⟨hget ▸ List.getElem_mem _, hlt⟩
  next => cases hchar

theorem exists_charAt
    {value : Word} (hvalue : value.toNat < 2 ^ 5) :
    ∃ unit, charAt value = .ok unit := by
  have hlt : value.toNat < bech32Charset.units.length := by
    rw [length_bech32Charset]
    exact hvalue
  unfold charAt
  rw [List.getElem?_eq_getElem hlt]
  exact ⟨_, rfl⟩

theorem exists_mapM_charAt
    {values : List Word} (hvalues : ∀ value ∈ values, value.toNat < 2 ^ 5) :
    ∃ units, values.mapM charAt = .ok units := by
  induction values with
  | nil => exact ⟨[], rfl⟩
  | cons value values ih =>
      obtain ⟨hvalue, hvalues⟩ := List.forall_mem_cons.mp hvalues
      obtain ⟨unit, hunit⟩ := exists_charAt hvalue
      obtain ⟨units, hunits⟩ := ih hvalues
      refine ⟨unit :: units, ?_⟩
      rw [mapM_eq_ok_iff] at hunits ⊢
      exact List.Forall₂.cons hunit hunits

theorem mapM_indexOf_eq_ok
    {units : List UInt16} {values : List Word}
    (hindices : units.mapM indexOf = .ok values) :
    (∀ unit ∈ units, unit ∈ bech32Charset.units) ∧
      (∀ value ∈ values, value.toNat < 2 ^ 5) ∧
      units.length = values.length := by
  rw [mapM_eq_ok_iff] at hindices
  induction hindices with
  | nil => simp
  | cons hindex _ ih =>
      obtain ⟨hunit, hvalue⟩ := indexOf_eq_ok hindex
      obtain ⟨hunits, hvalues, hlength⟩ := ih
      exact ⟨List.forall_mem_cons.mpr ⟨hunit, hunits⟩,
        List.forall_mem_cons.mpr ⟨hvalue, hvalues⟩,
        congrArg Nat.succ hlength⟩

/-! ## Texts -/

/-- ASCII without upper-case letters. -/
def LowerAscii (text : Utf16) : Prop :=
  ∀ unit ∈ text.units, unit < 0x80 ∧ ¬ (0x41 ≤ unit ∧ unit ≤ 0x5A)

instance (text : Utf16) : Decidable (LowerAscii text) :=
  List.decidableBAll
    (fun unit => unit < 0x80 ∧ ¬ (0x41 ≤ unit ∧ unit ≤ 0x5A)) text.units

theorem lowerAscii_bech32Charset : LowerAscii bech32Charset := by
  decide

theorem separator_notMem_bech32Charset : 0x31 ∉ bech32Charset.units := by
  decide

theorem toLowerCase_eq_self
    {text : Utf16} (unicode : Utf16 → Utf16) (hlower : LowerAscii text) :
    text.toLowerCase unicode = text := by
  have hascii : text.units.all (· < 0x80) = true := by
    rw [List.all_eq_true]
    intro unit hmem
    exact decide_eq_true (hlower unit hmem).1
  have hunits : text.units.map Utf16.lowerUnit = text.units := by
    rw [List.map_congr_left fun unit hmem =>
      show Utf16.lowerUnit unit = id unit from if_neg (hlower unit hmem).2,
      List.map_id]
  rw [Utf16.toLowerCase, if_pos hascii, hunits]

theorem lastIndexOf_append_cons
    {text : Utf16} {front back : List UInt16} {unit : UInt16}
    (htext : text.units = front ++ unit :: back) (hback : unit ∉ back) :
    text.lastIndexOf unit = some front.length := by
  have hindex : text.units.reverse.idxOf? unit = some back.length := by
    rw [htext, List.reverse_append, List.reverse_cons, List.append_assoc,
      List.idxOf?_eq_some_iff]
    refine ⟨by simp, ?_, ?_⟩
    · rw [List.getElem_append_right (by simp)]
      simp
    · intro j hj hsame
      rw [List.getElem_append_left (by simpa using hj)] at hsame
      apply hback
      rw [← hsame, ← List.mem_reverse]
      exact List.getElem_mem _
  have hlength : text.length = front.length + (back.length + 1) := by
    rw [Utf16.length, htext, List.length_append, List.length_cons]
  rw [Utf16.lastIndexOf, hindex, Option.map_some, Option.some.injEq]
  omega

theorem units_of_lastIndexOf
    {text : Utf16} {unit : UInt16} {pos : ℕ}
    (hpos : text.lastIndexOf unit = some pos) :
    text.units = text.units.take pos ++ unit :: text.units.drop (pos + 1) := by
  obtain ⟨index, hindex, rfl⟩ := Option.map_eq_some_iff.mp hpos
  obtain ⟨hlt, hget, -⟩ := List.idxOf?_eq_some_iff.mp hindex
  rw [List.length_reverse] at hlt
  rw [List.getElem_reverse] at hget
  unfold Utf16.length
  have hin : text.units.length - 1 - index < text.units.length := by omega
  rw [← hget, ← List.drop_eq_getElem_cons hin, List.take_append_drop]

/-! ## Decoding -/

theorem decode_eq_ok_iff
    {unicode : Utf16 → Utf16} {text hrp : Utf16} {out : List UInt8} :
    decode unicode text = .ok (hrp, out) ↔
      ∃ pos data,
        (text.toLowerCase unicode).lastIndexOf 0x31 = some pos ∧
        1 ≤ pos ∧ pos + 7 ≤ (text.toLowerCase unicode).length ∧
        hrp = ⟨(text.toLowerCase unicode).units.take pos⟩ ∧
        ((text.toLowerCase unicode).units.drop (pos + 1)).mapM indexOf =
          .ok data ∧
        verifyChecksum hrp data ∧
        convertBits (uint8List (data.take (data.length - 6))) 5 8 false =
          some out := by
  constructor
  · intro hdecode
    simp only [decode] at hdecode
    split at hdecode
    next => cases hdecode
    next pos hpos =>
      split_ifs at hdecode with hplace
      split at hdecode
      next => cases hdecode
      next data hdata =>
        split_ifs at hdecode with hverify
        split at hdecode
        next => cases hdecode
        next converted hconvert =>
          obtain ⟨rfl, rfl⟩ := Prod.mk.inj (Except.ok.inj hdecode)
          exact ⟨pos, data, hpos, by omega, by omega, rfl, hdata, hverify,
            hconvert⟩
  · rintro ⟨pos, data, hpos, hfirst, hlength, rfl, hdata, hverify, hconvert⟩
    have hplace : ¬ (pos < 1 ∨
        (text.toLowerCase unicode).length < pos + 7) := by omega
    simp only [decode, hpos, if_neg hplace, hdata, hverify, hconvert]
    rfl

/-- Decoding cuts the text at its last separator, which no character of the
alphabet is. -/
theorem decode_eq_ok_iff_split
    {unicode : Utf16 → Utf16} {text hrp : Utf16} {out : List UInt8} :
    decode unicode text = .ok (hrp, out) ↔
      ∃ units data,
        (text.toLowerCase unicode).units = hrp.units ++ 0x31 :: units ∧
        hrp.units ≠ [] ∧ units.mapM indexOf = .ok data ∧ 6 ≤ data.length ∧
        verifyChecksum hrp data ∧
        convertBits (uint8List (data.take (data.length - 6))) 5 8 false =
          some out := by
  rw [decode_eq_ok_iff]
  constructor
  · rintro ⟨pos, data, hpos, hfirst, hlength, rfl, hdata, hverify, hconvert⟩
    obtain ⟨-, -, hsame⟩ := mapM_indexOf_eq_ok hdata
    unfold Utf16.length at hlength
    rw [List.length_drop] at hsame
    refine ⟨_, data, units_of_lastIndexOf hpos, ?_, hdata, by omega, hverify,
      hconvert⟩
    apply List.ne_nil_of_length_pos
    rw [List.length_take]
    omega
  · rintro ⟨units, data, htext, hne, hdata, hsix, hverify, hconvert⟩
    obtain ⟨hcharset, -, hsame⟩ := mapM_indexOf_eq_ok hdata
    refine ⟨hrp.units.length, data, ?_, List.length_pos_of_ne_nil hne, ?_, ?_,
      ?_, hverify, hconvert⟩
    · apply lastIndexOf_append_cons htext
      exact fun hmem => separator_notMem_bech32Charset (hcharset _ hmem)
    · rw [Utf16.length, htext, List.length_append, List.length_cons]
      omega
    · rw [htext, List.take_left]
    · rw [htext, ← List.drop_drop, List.drop_left]
      exact hdata

/-! ## Mutual inverses -/

/-- The text that encoding writes: the payload in groups of five and the
checksum, in characters. -/
theorem encode_eq_ok_iff
    {hrp text : Utf16} {data : List UInt8} :
    encode hrp data = .ok text ↔
      ∃ converted units,
        convertBits data 8 5 true = some converted ∧
        (converted.map word ++
          createChecksum hrp (converted.map word)).mapM charAt = .ok units ∧
        text = ⟨hrp.units ++ 0x31 :: units⟩ := by
  constructor
  · intro hencode
    simp only [encode] at hencode
    split at hencode
    next => cases hencode
    next converted hconvert =>
      split at hencode
      next => cases hencode
      next units hunits =>
        exact ⟨converted, units, hconvert, hunits,
          (Except.ok.inj hencode).symm⟩
  · rintro ⟨converted, units, hconvert, hunits, rfl⟩
    simp only [encode, hconvert, hunits]

theorem length_createChecksum (hrp : Utf16) (data : List Word) :
    (createChecksum hrp data).length = 6 := by
  simp [createChecksum]

theorem uint8List_map_word (data : List UInt8) :
    uint8List (data.map word) = data := by
  apply eq_of_map_toNat_eq
  rw [map_toNat_uint8List]
  · rw [List.map_map]
    exact List.map_congr_left fun byte _ => toNat_word byte
  · intro value hmem
    obtain ⟨byte, -, rfl⟩ := List.mem_map.mp hmem
    rw [toNat_word]
    exact byte.toNat_lt

theorem map_word_uint8List
    {values : List Word} (hvalues : ∀ value ∈ values, value.toNat < 2 ^ 5) :
    (uint8List values).map word = values := by
  have hbytes := map_toNat_uint8List fun value hmem =>
    (hvalues value hmem).trans (by decide)
  apply List.map_injective_iff.mpr
    (fun _ _ => BitVec.eq_of_toNat_eq (n := 64))
  rw [List.map_map, ← hbytes]
  exact List.map_congr_left fun byte _ => toNat_word byte

/-- What encoding writes is read back. -/
theorem decode_encode
    (unicode : Utf16 → Utf16) {hrp : Utf16} (hne : hrp.units ≠ [])
    (hlower : LowerAscii hrp) (data : List UInt8) :
    ∃ text, encode hrp data = .ok text ∧
      decode unicode text = .ok (hrp, data) := by
  obtain ⟨converted, hconvert, hgroups, hback⟩ := convertBits_bytes data
  have hcombined : ∀ value ∈
      converted.map word ++ createChecksum hrp (converted.map word),
      value.toNat < 2 ^ 5 := by
    rw [List.forall_mem_append, List.forall_mem_map]
    refine ⟨?_, createChecksum_lt hrp _⟩
    intro byte hmem
    rw [toNat_word]
    exact hgroups byte hmem
  obtain ⟨units, hunits⟩ := exists_mapM_charAt hcombined
  have hindices := mapM_charAt_eq_ok_iff.mp hunits
  obtain ⟨hcharset, -, -⟩ := mapM_indexOf_eq_ok hindices
  have hlowerText : LowerAscii ⟨hrp.units ++ 0x31 :: units⟩ := by
    unfold LowerAscii
    rw [List.forall_mem_append, List.forall_mem_cons]
    refine ⟨hlower, by decide, ?_⟩
    intro unit hmem
    exact lowerAscii_bech32Charset unit (hcharset unit hmem)
  refine ⟨_, encode_eq_ok_iff.mpr ⟨converted, units, hconvert, hunits, rfl⟩,
    ?_⟩
  rw [decode_eq_ok_iff_split, toLowerCase_eq_self unicode hlowerText]
  refine ⟨units, converted.map word ++ createChecksum hrp (converted.map word),
    rfl, hne, hindices, ?_, ?_, ?_⟩
  · rw [List.length_append, length_createChecksum]
    exact Nat.le_add_left 6 _
  · exact (verifyChecksum_iff (createChecksum_lt hrp _)
      (length_createChecksum hrp _)).mpr rfl
  · rw [List.length_append, length_createChecksum, Nat.add_sub_cancel,
      List.take_left, uint8List_map_word, hback]

/-- What decoding accepts is written again, in lower case. -/
theorem encode_decode
    {unicode : Utf16 → Utf16} {text hrp : Utf16} {data : List UInt8}
    (hdecode : decode unicode text = .ok (hrp, data)) :
    encode hrp data = .ok (text.toLowerCase unicode) := by
  obtain ⟨units, values, htext, -, hindices, hlength, hverify, hconvert⟩ :=
    decode_eq_ok_iff_split.mp hdecode
  obtain ⟨-, hvalues, -⟩ := mapM_indexOf_eq_ok hindices
  have hpayload : ∀ value ∈ values.take (values.length - 6),
      value.toNat < 2 ^ 5 :=
    fun value hmem => hvalues value (List.mem_of_mem_take hmem)
  have hchecksum : ∀ value ∈ values.drop (values.length - 6),
      value.toNat < 2 ^ 5 :=
    fun value hmem => hvalues value (List.mem_of_mem_drop hmem)
  have hsix : (values.drop (values.length - 6)).length = 6 := by
    rw [List.length_drop]
    omega
  rw [← List.take_append_drop (values.length - 6) values,
    verifyChecksum_iff hchecksum hsix] at hverify
  obtain ⟨-, hbytes⟩ := byteBits_uint8List (show 5 ≤ 8 by omega) hpayload
  refine encode_eq_ok_iff.mpr ⟨_, units, convertBits_groups hbytes hconvert,
    ?_, congrArg Utf16.mk htext⟩
  rw [map_word_uint8List hpayload, ← hverify, List.take_append_drop]
  exact mapM_charAt_eq_ok_iff.mpr hindices

theorem bech32_encode_decode_inverse (unicode : Utf16 → Utf16) :
    (∀ hrp data, hrp.units ≠ [] → LowerAscii hrp →
      ∃ text, encode hrp data = .ok text ∧
        decode unicode text = .ok (hrp, data)) ∧
    ∀ text hrp data, decode unicode text = .ok (hrp, data) →
      encode hrp data = .ok (text.toLowerCase unicode) := by
  constructor
  · intro hrp data hne hlower
    exact decode_encode unicode hne hlower data
  · intro text hrp data hdecode
    exact encode_decode hdecode

theorem bech32_inverse_of_soulonAddress :
    (∃ text, encode "so1on" [0, 1, 2, 3, 255] = .ok text ∧
      decode id text = .ok ("so1on", [0, 1, 2, 3, 255])) ∧
    decode id "SOULON1QQQSYQLLLA92P5" = .ok ("soulon", [0, 1, 2, 3, 255]) ∧
    encode "soulon" [0, 1, 2, 3, 255] =
      .ok (Utf16.toLowerCase id "SOULON1QQQSYQLLLA92P5") := by
  have hdecode :
      decode id "SOULON1QQQSYQLLLA92P5" =
        .ok ("soulon", [0, 1, 2, 3, 255]) := by
    decide +kernel
  refine ⟨?_, hdecode, ?_⟩
  · apply (bech32_encode_decode_inverse id).1
    · decide
    · decide
  · exact (bech32_encode_decode_inverse id).2 _ _ _ hdecode

end SoulonWallet.AddressCodec
