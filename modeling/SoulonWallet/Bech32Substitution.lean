import SoulonWallet.Bech32RoundTrip

/-!
# One wrong character

Two texts that differ in one group of the data have remainders that differ
after this group.  A step on two different remainders keeps them different,
whatever it reads: by linearity their difference is taken through a step that
reads zero, and the five generators have independent low groups, so only the
difference zero goes to zero.
-/

namespace SoulonWallet.AddressCodec

open BitGroups

/-! ## The step is injective -/

theorem mix_low_eq_zero :
    ∀ top < 32,
      mix (BitVec.ofNat 64 top) generator.zipIdx &&& 31#64 = 0#64 →
        top = 0 := by
  decide

theorem shiftLeft_low_eq_zero (value : Word) :
    value <<< 5 &&& 31#64 = 0#64 := by
  apply BitVec.eq_of_toNat_eq
  rw [BitVec.toNat_and, BitVec.toNat_shiftLeft, Nat.shiftLeft_eq]
  have hlow : ∀ number : ℕ, number &&& 31 = number % 2 ^ 5 :=
    fun number => Nat.and_two_pow_sub_one_eq_mod number 5
  exact (hlow _).trans (show value.toNat * 2 ^ 5 % 2 ^ 64 % 2 ^ 5 = 0 by omega)

theorem eq_zero_of_polymodStep_zero
    {chk : Word} (hchk : chk.toNat < 2 ^ 30)
    (hzero : polymodStep chk 0#64 = 0#64) :
    chk = 0#64 := by
  have htop : chk.sshiftRight 25 = BitVec.ofNat 64 (chk.toNat / 2 ^ 25) := by
    apply BitVec.eq_of_toNat_eq
    rw [BitVec.sshiftRight_eq_of_msb_false (msb_eq_false_of_lt (by omega)),
      BitVec.toNat_ushiftRight, Nat.shiftRight_eq_div_pow, BitVec.toNat_ofNat,
      Nat.mod_eq_of_lt (by omega)]
  have hmix : (chk &&& 0x1ffffff#64) <<< 5 =
      mix (chk.sshiftRight 25) generator.zipIdx := by
    rwa [polymodStep_eq, BitVec.xor_zero, BitVec.xor_eq_zero_iff] at hzero
  have hbelow : chk.toNat < 2 ^ 25 := by
    have hlow := shiftLeft_low_eq_zero (chk &&& 0x1ffffff#64)
    rw [hmix, htop] at hlow
    have hnone := mix_low_eq_zero _ (by omega) hlow
    omega
  rw [polymodStep_of_lt hbelow (by decide), BitVec.or_zero] at hzero
  have hshift := congrArg BitVec.toNat hzero
  rw [BitVec.toNat_shiftLeft, Nat.shiftLeft_eq, Nat.mod_eq_of_lt (by omega),
    BitVec.toNat_ofNat] at hshift
  apply BitVec.eq_of_toNat_eq
  rw [BitVec.toNat_ofNat]
  omega

theorem polymodStep_injective
    {chk chk' : Word} (hchk : chk.toNat < 2 ^ 30) (hchk' : chk'.toNat < 2 ^ 30)
    {value : Word} (hsame : polymodStep chk value = polymodStep chk' value) :
    chk = chk' := by
  have hdifference : polymodStep (chk ^^^ chk') 0#64 = 0#64 := by
    have hxor := polymodStep_xor (chk ^^^ chk') chk' value
    rw [BitVec.xor_assoc, BitVec.xor_self, BitVec.xor_zero, hsame] at hxor
    exact ((BitVec.xor_left_inj _).mp (BitVec.zero_xor.trans hxor)).symm
  have hlt : (chk ^^^ chk').toNat < 2 ^ 30 := by
    rw [BitVec.toNat_xor]
    exact Nat.xor_lt_two_pow hchk hchk'
  exact BitVec.xor_eq_zero_iff.mp (eq_zero_of_polymodStep_zero hlt hdifference)

/-- Different remainders stay different. -/
theorem foldl_polymodStep_injective
    {chk chk' : Word} (hchk : chk.toNat < 2 ^ 30) (hchk' : chk'.toNat < 2 ^ 30)
    {values : List Word} (hvalues : ∀ value ∈ values, value.toNat < 2 ^ 30)
    (hsame : values.foldl polymodStep chk = values.foldl polymodStep chk') :
    chk = chk' := by
  induction values generalizing chk chk' with
  | nil => exact hsame
  | cons value values ih =>
      obtain ⟨hvalue, hvalues⟩ := List.forall_mem_cons.mp hvalues
      have hnext := ih (polymodStep_lt chk hvalue) (polymodStep_lt chk' hvalue)
        hvalues hsame
      exact polymodStep_injective hchk hchk' hnext

/-- At most one group at a place gives a remainder. -/
theorem group_eq_of_polymod_eq
    {front back : List Word} {value value' : Word}
    (hback : ∀ other ∈ back, other.toNat < 2 ^ 30)
    (hvalue : value.toNat < 2 ^ 30) (hvalue' : value'.toNat < 2 ^ 30)
    (hsame : polymod (front ++ value :: back) =
      polymod (front ++ value' :: back)) :
    value = value' := by
  simp only [polymod, List.foldl_append, List.foldl_cons] at hsame
  have hstep := foldl_polymodStep_injective (polymodStep_lt _ hvalue)
    (polymodStep_lt _ hvalue') hback hsame
  rw [polymodStep_eq, polymodStep_eq, BitVec.xor_left_inj,
    BitVec.xor_right_inj] at hstep
  exact hstep

/-! ## Texts with one wrong character -/

/-- A character of the alphabet in the place of another one leaves a text in
lower case. -/
def KeepsLowerCase (unicode : Utf16 → Utf16) : Prop :=
  ∀ (front back : List UInt16) (old new : UInt16),
    old ∈ bech32Charset.units → new ∈ bech32Charset.units →
    unicode ⟨front ++ old :: back⟩ = ⟨front ++ old :: back⟩ →
    unicode ⟨front ++ new :: back⟩ = ⟨front ++ new :: back⟩

theorem exists_indexOf
    {unit : UInt16} (hunit : unit ∈ bech32Charset.units) :
    ∃ value, indexOf unit = .ok value := by
  obtain ⟨index, hlt, rfl⟩ := List.mem_iff_getElem.mp hunit
  refine ⟨BitVec.ofNat 64 index, charAt_eq_ok_iff.mp ?_⟩
  rw [length_bech32Charset] at hlt
  have htoNat : (BitVec.ofNat 64 index).toNat = index := by
    rw [BitVec.toNat_ofNat, Nat.mod_eq_of_lt (by omega)]
  unfold charAt
  rw [htoNat, List.getElem?_eq_getElem]

theorem indexOf_injective
    {unit unit' : UInt16} {value : Word} (hindex : indexOf unit = .ok value)
    (hindex' : indexOf unit' = .ok value) : unit = unit' := by
  rw [← charAt_eq_ok_iff] at hindex hindex'
  exact Except.ok.inj (hindex.symm.trans hindex')

theorem toLowerCase_replace
    {unicode : Utf16 → Utf16} (hunicode : KeepsLowerCase unicode)
    {front back : List UInt16} {old new : UInt16}
    (hold : old ∈ bech32Charset.units) (hnew : new ∈ bech32Charset.units)
    (hlower : Utf16.toLowerCase unicode ⟨front ++ old :: back⟩ =
      ⟨front ++ old :: back⟩) :
    Utf16.toLowerCase unicode ⟨front ++ new :: back⟩ =
      ⟨front ++ new :: back⟩ := by
  obtain ⟨holdAscii, -⟩ := lowerAscii_bech32Charset old hold
  obtain ⟨hnewAscii, hnewLower⟩ := lowerAscii_bech32Charset new hnew
  have hall : (front ++ new :: back).all (· < 0x80) =
      (front ++ old :: back).all (· < 0x80) := by
    rw [List.all_append, List.all_append, List.all_cons, List.all_cons,
      decide_eq_true holdAscii, decide_eq_true hnewAscii]
  unfold Utf16.toLowerCase at hlower ⊢
  simp only [hall]
  by_cases hascii : (front ++ old :: back).all (· < 0x80) = true
  · rw [if_pos hascii, Utf16.mk.injEq, List.map_append, List.map_cons]
      at hlower
    obtain ⟨hfront, hback⟩ := List.append_inj hlower (List.length_map _)
    rw [if_pos hascii, List.map_append, List.map_cons, hfront,
      (List.cons.inj hback).2, Utf16.lowerUnit, if_neg hnewLower]
  · rw [if_neg hascii] at hlower ⊢
    exact hunicode front back old new hold hnew hlower

theorem decode_of_wrong_checksum
    {unicode : Utf16 → Utf16} {text hrp : Utf16} {units : List UInt16}
    {data : List Word}
    (htext : (text.toLowerCase unicode).units = hrp.units ++ 0x31 :: units)
    (hne : hrp.units ≠ []) (hdata : units.mapM indexOf = .ok data)
    (hsix : 6 ≤ data.length) (hverify : ¬ verifyChecksum hrp data) :
    decode unicode text = .error (.format "Invalid Bech32 checksum") := by
  obtain ⟨hcharset, -, hsame⟩ := mapM_indexOf_eq_ok hdata
  have hpos : (text.toLowerCase unicode).lastIndexOf 0x31 =
      some hrp.units.length := by
    apply lastIndexOf_append_cons htext
    exact fun hmem => separator_notMem_bech32Charset (hcharset _ hmem)
  have hplace : ¬ (hrp.units.length < 1 ∨
      (text.toLowerCase unicode).length < hrp.units.length + 7) := by
    have hpositive := List.length_pos_of_ne_nil hne
    rw [Utf16.length, htext, List.length_append, List.length_cons]
    omega
  have hfront : (text.toLowerCase unicode).units.take hrp.units.length =
      hrp.units := by
    rw [htext, List.take_left]
  have hback : (text.toLowerCase unicode).units.drop (hrp.units.length + 1) =
      units := by
    rw [htext, ← List.drop_drop, List.drop_left]
    rfl
  simp only [decode, hpos, if_neg hplace, hfront, hback, hdata, hverify]
  rfl

/-- The data part of a text, with another group in one place, does not have
the checksum of the text. -/
theorem not_verifyChecksum_replace
    {hrp : Utf16} {front back : List Word} {value value' : Word}
    (hvalues : ∀ other ∈ front ++ value :: back, other.toNat < 2 ^ 5)
    (hvalue' : value'.toNat < 2 ^ 5) (hne : value ≠ value')
    (hverify : verifyChecksum hrp (front ++ value :: back)) :
    ¬ verifyChecksum hrp (front ++ value' :: back) := by
  intro hverify'
  have hbound : (2 : ℕ) ^ 5 < 2 ^ 30 := by decide
  obtain ⟨-, hvalues⟩ := List.forall_mem_append.mp hvalues
  obtain ⟨hvalue, hback⟩ := List.forall_mem_cons.mp hvalues
  rw [verifyChecksum, decide_eq_true_iff, ← List.append_assoc]
    at hverify hverify'
  exact hne (group_eq_of_polymod_eq
    (fun other hmem => (hback other hmem).trans hbound) (hvalue.trans hbound)
    (hvalue'.trans hbound) (hverify.trans hverify'.symm))

/-- The text with another character of the alphabet in one place of its data
is refused for its checksum. -/
theorem substitution_detected
    {unicode : Utf16 → Utf16} (hunicode : KeepsLowerCase unicode)
    {text : Utf16} (hlower : text.toLowerCase unicode = text)
    {result : Utf16 × List UInt8} (hdecode : decode unicode text = .ok result)
    {pos place : ℕ} (hpos : text.lastIndexOf 0x31 = some pos)
    (hplace : pos < place) {old new : UInt16}
    (hold : text.units[place]? = some old) (hnew : new ∈ bech32Charset.units)
    (hne : new ≠ old) :
    decode unicode ⟨text.units.set place new⟩ =
      .error (.format "Invalid Bech32 checksum") := by
  obtain ⟨hrp, out⟩ := result
  obtain ⟨units, data, htext, hnonempty, hdata, hsix, hverify, -⟩ :=
    decode_eq_ok_iff_split.mp hdecode
  rw [hlower] at htext
  obtain ⟨hcharset, hvalues, -⟩ := mapM_indexOf_eq_ok hdata
  obtain rfl : pos = hrp.units.length := by
    have hlast := lastIndexOf_append_cons htext
      fun hmem => separator_notMem_bech32Charset (hcharset _ hmem)
    exact Option.some.inj (hpos.symm.trans hlast)
  obtain ⟨front, back, rfl, hset⟩ :
      ∃ front back, units = front ++ old :: back ∧
        text.units.set place new =
          hrp.units ++ 0x31 :: (front ++ new :: back) := by
    obtain ⟨index, rfl⟩ := Nat.exists_eq_add_of_lt hplace
    rw [htext, Nat.add_assoc, List.getElem?_append_right (Nat.le_add_right _ _),
      Nat.add_sub_cancel_left, List.getElem?_cons_succ,
      List.getElem?_eq_some_iff] at hold
    obtain ⟨hlt, rfl⟩ := hold
    refine ⟨units.take index, units.drop (index + 1), ?_, ?_⟩
    · rw [← List.drop_eq_getElem_cons hlt, List.take_append_drop]
    · rw [htext, Nat.add_assoc, List.set_append_right _ _ (Nat.le_add_right _ _),
        Nat.add_sub_cancel_left, List.set_cons_succ,
        List.set_eq_take_append_cons_drop, if_pos hlt]
  obtain ⟨before, value, after, rfl, hbefore, hvalue, hafter⟩ :=
    mapM_append_cons_eq_ok_iff.mp hdata
  obtain ⟨value', hvalue'⟩ := exists_indexOf hnew
  have hother : value ≠ value' := by
    rintro rfl
    exact hne (indexOf_injective hvalue' hvalue)
  have hlowerNew : Utf16.toLowerCase unicode ⟨text.units.set place new⟩ =
      ⟨text.units.set place new⟩ := by
    have hsplit : ∀ unit : UInt16,
        hrp.units ++ 0x31 :: (front ++ unit :: back) =
          (hrp.units ++ 0x31 :: front) ++ unit :: back := by
      simp
    have htextOld : text = ⟨(hrp.units ++ 0x31 :: front) ++ old :: back⟩ :=
      congrArg Utf16.mk (htext.trans (hsplit old))
    rw [hset, hsplit]
    apply toLowerCase_replace hunicode (hcharset old (by simp)) hnew
    rw [← htextOld]
    exact hlower
  refine decode_of_wrong_checksum (by rw [hlowerNew, hset]) hnonempty
    (mapM_append_cons_eq_ok_iff.mpr
      ⟨before, value', after, rfl, hbefore, hvalue', hafter⟩) ?_ ?_
  · simpa using hsix
  · exact not_verifyChecksum_replace hvalues (indexOf_eq_ok hvalue').2 hother
      hverify

theorem substitution_detected_of_mistyped :
    decode id ⟨(Utf16.ofString "soulon1qqqsyqllla92p5").units.set 8 0x70⟩ =
      .error (.format "Invalid Bech32 checksum") := by
  have hdecode : decode id "soulon1qqqsyqllla92p5" =
      .ok ("soulon", [0, 1, 2, 3, 255]) := by
    decide +kernel
  have hpos : Utf16.lastIndexOf "soulon1qqqsyqllla92p5" 0x31 = some 6 := by
    decide
  have hold : (Utf16.ofString "soulon1qqqsyqllla92p5").units[8]? =
      some 0x71 := by
    decide
  exact substitution_detected (fun _ _ _ _ _ _ _ => rfl) (by decide)
    hdecode hpos (by decide) hold (by decide) (by decide)

end SoulonWallet.AddressCodec
