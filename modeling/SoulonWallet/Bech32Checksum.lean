import SoulonWallet.AddressCodec

/-!
# The checksum of Bech32

A step of `_polymod` is linear over exclusive or, and shifts a value of five
bits up by five as long as it stays below the top group.  The six groups of a
checksum are therefore added to what the six zeros in their place give, and
exactly one checksum leads to the remainder one.
-/

namespace SoulonWallet.AddressCodec

open BitGroups

/-! ## One step -/

/-- The generators that the bits of the top group select. -/
def mix (top : Word) : List (Word × ℕ) → Word
  | [] => 0#64
  | entry :: rest =>
      (if top.getLsbD entry.2 then entry.1 else 0#64) ^^^ mix top rest

theorem sshiftRight_and_one_iff
    {top : Word} {i : ℕ} (hi : i < 64) :
    top.sshiftRight i &&& 1#64 = 1#64 ↔ top.getLsbD i = true := by
  have htoNat : (top.sshiftRight i &&& 1#64).toNat =
      top.toNat / 2 ^ i % 2 ^ 1 :=
    toNat_takeOut top (show i + 1 ≤ 64 by omega) (show 1 < 64 by omega)
  rw [← BitVec.toNat_inj, htoNat, ← BitVec.testBit_toNat,
    Nat.testBit_eq_decide_div_mod_eq]
  simp

theorem foldl_generators
    (top chk : Word) {entries : List (Word × ℕ)}
    (hentries : ∀ entry ∈ entries, entry.2 < 64) :
    entries.foldl
        (fun chk entry =>
          if top.sshiftRight entry.2 &&& 1#64 = 1#64 then chk ^^^ entry.1
          else chk)
        chk =
      chk ^^^ mix top entries := by
  induction entries generalizing chk with
  | nil => simp [mix]
  | cons entry rest ih =>
      obtain ⟨hentry, hrest⟩ := List.forall_mem_cons.mp hentries
      rw [List.foldl_cons, ih _ hrest, mix]
      by_cases hbit : top.getLsbD entry.2
      · rw [if_pos ((sshiftRight_and_one_iff hentry).mpr hbit), if_pos hbit,
          BitVec.xor_assoc]
      · rw [if_neg ((sshiftRight_and_one_iff hentry).not.mpr hbit),
          if_neg hbit, BitVec.zero_xor]

theorem polymodStep_eq (chk value : Word) :
    polymodStep chk value =
      (chk &&& 0x1ffffff#64) <<< 5 ^^^ value ^^^
        mix (chk.sshiftRight 25) generator.zipIdx := by
  rw [polymodStep, foldl_generators]
  decide

theorem mix_xor (top top' : Word) (entries : List (Word × ℕ)) :
    mix (top ^^^ top') entries = mix top entries ^^^ mix top' entries := by
  induction entries with
  | nil => simp [mix]
  | cons entry rest ih =>
      have hselect :
          (if (top ^^^ top').getLsbD entry.2 then entry.1 else 0#64) =
            (if top.getLsbD entry.2 then entry.1 else 0#64) ^^^
              (if top'.getLsbD entry.2 then entry.1 else 0#64) := by
        rw [BitVec.getLsbD_xor]
        cases top.getLsbD entry.2 <;> cases top'.getLsbD entry.2 <;> simp
      rw [mix, mix, mix, ih, hselect]
      ac_rfl

theorem mix_zero (entries : List (Word × ℕ)) : mix 0#64 entries = 0#64 := by
  induction entries with
  | nil => rfl
  | cons entry rest ih => simp [mix, ih]

/-- A step on an exclusive or, whose value belongs to one of the two. -/
theorem polymodStep_xor (chk chk' value : Word) :
    polymodStep (chk ^^^ chk') value =
      polymodStep chk 0#64 ^^^ polymodStep chk' value := by
  have hmask : (chk ^^^ chk') &&& 0x1ffffff#64 =
      (chk &&& 0x1ffffff#64) ^^^ (chk' &&& 0x1ffffff#64) := by
    apply BitVec.eq_of_getLsbD_eq
    intro i hi
    simp [Bool.and_xor_distrib_right]
  rw [polymodStep_eq, polymodStep_eq, polymodStep_eq, hmask,
    BitVec.shiftLeft_xor_distrib, BitVec.sshiftRight_xor_distrib, mix_xor]
  ac_nf

theorem mix_lt
    (top : Word) {entries : List (Word × ℕ)}
    (hentries : ∀ entry ∈ entries, entry.1.toNat < 2 ^ 30) :
    (mix top entries).toNat < 2 ^ 30 := by
  induction entries with
  | nil => exact Nat.two_pow_pos 30
  | cons entry rest ih =>
      obtain ⟨hentry, hrest⟩ := List.forall_mem_cons.mp hentries
      rw [mix, BitVec.toNat_xor]
      apply Nat.xor_lt_two_pow _ (ih hrest)
      split_ifs
      · exact hentry
      · exact Nat.two_pow_pos 30

/-- The remainder stays below thirty bits, whatever it was before. -/
theorem polymodStep_lt
    (chk : Word) {value : Word} (hvalue : value.toNat < 2 ^ 30) :
    (polymodStep chk value).toNat < 2 ^ 30 := by
  have hmask : ((chk &&& 0x1ffffff#64) <<< 5).toNat < 2 ^ 30 := by
    have hand : (chk &&& 0x1ffffff#64).toNat < 2 ^ 25 := by
      rw [BitVec.toNat_and]
      exact Nat.and_lt_two_pow _ (by decide)
    rw [BitVec.toNat_shiftLeft, Nat.shiftLeft_eq, Nat.mod_eq_of_lt (by omega)]
    omega
  rw [polymodStep_eq, BitVec.toNat_xor, BitVec.toNat_xor]
  exact Nat.xor_lt_two_pow (Nat.xor_lt_two_pow hmask hvalue)
    (mix_lt _ (by decide))

/-- Below the top group a step only shifts the value in. -/
theorem polymodStep_of_lt
    {chk value : Word} (hchk : chk.toNat < 2 ^ 25)
    (hvalue : value.toNat < 2 ^ 5) :
    polymodStep chk value = chk <<< 5 ||| value := by
  have htop : chk.sshiftRight 25 = 0#64 :=
    sshiftRight_eq_zero (by omega) hchk
  have hmask : chk &&& 0x1ffffff#64 = chk := by
    apply BitVec.eq_of_toNat_eq
    rw [BitVec.toNat_and]
    exact Nat.and_two_pow_sub_one_of_lt_two_pow hchk
  rw [polymodStep_eq, htop, hmask, mix_zero, BitVec.xor_zero,
    shiftLeft_xor_eq_or chk value hvalue]

/-! ## Several steps -/

theorem foldl_polymodStep_xor (chk chk' : Word) (values : List Word) :
    values.foldl polymodStep (chk ^^^ chk') =
      (List.replicate values.length 0#64).foldl polymodStep chk ^^^
        values.foldl polymodStep chk' := by
  induction values generalizing chk chk' with
  | nil => rfl
  | cons value values ih =>
      rw [List.foldl_cons, polymodStep_xor, ih, List.length_cons,
        List.replicate_succ, List.foldl_cons, List.foldl_cons]

/-- The groups of a checksum are shifted in next to each other. -/
theorem foldl_polymodStep_groups
    {values : List Word} (hvalues : ∀ value ∈ values, value.toNat < 2 ^ 5)
    (chk : Word) (groups : ℕ) (hchk : chk.toNat < 2 ^ (5 * groups))
    (hfit : groups + values.length ≤ 6) :
    (values.foldl polymodStep chk).toNat <
        2 ^ (5 * (groups + values.length)) ∧
      bits (5 * (groups + values.length))
          (values.foldl polymodStep chk).toNat =
        bits (5 * groups) chk.toNat ++ wordBits 5 values := by
  induction values generalizing chk groups with
  | nil => simpa [wordBits] using hchk
  | cons value values ih =>
      obtain ⟨hvalue, hvalues⟩ := List.forall_mem_cons.mp hvalues
      rw [List.length_cons] at hfit ⊢
      have hbelow : chk.toNat < 2 ^ 25 :=
        hchk.trans_le (Nat.pow_le_pow_right Nat.two_pos (by omega))
      have hnext : (chk <<< 5 ||| value).toNat < 2 ^ (5 * (groups + 1)) := by
        rw [BitVec.toNat_or]
        apply Nat.or_lt_two_pow
        · rw [BitVec.toNat_shiftLeft, Nat.shiftLeft_eq]
          apply (Nat.mod_le _ _).trans_lt
          rw [show 5 * (groups + 1) = 5 * groups + 5 by ring, pow_add]
          exact Nat.mul_lt_mul_of_pos_right hchk (Nat.two_pow_pos 5)
        · exact hvalue.trans_le
            (Nat.pow_le_pow_right Nat.two_pos (by omega))
      have hshift := bits_shiftIn chk value
        (show 5 * groups + 5 ≤ 64 by omega) hvalue
      obtain ⟨hlt, hbits⟩ := ih hvalues _ _ hnext (by omega)
      rw [List.foldl_cons, polymodStep_of_lt hbelow hvalue,
        show groups + (values.length + 1) = groups + 1 + values.length by
          omega]
      refine ⟨hlt, ?_⟩
      rw [hbits, Nat.mul_succ, hshift, List.append_assoc]
      rfl

/-! ## Creating and verifying -/

theorem bits_groups (value : Word) {count : ℕ} (hfit : 5 * count ≤ 64) :
    wordBits 5
        ((List.range count).map fun i =>
          value.sshiftRight (5 * (count - (i + 1))) &&& 31#64) =
      bits (5 * count) value.toNat := by
  induction count with
  | zero => rfl
  | succ count ih =>
      have hvalue : (value.sshiftRight (5 * count) &&& 31#64).toNat =
          value.toNat / 2 ^ (5 * count) % 2 ^ 5 :=
        toNat_takeOut value (show 5 * count + 5 ≤ 64 by omega)
          (show 5 < 64 by omega)
      rw [List.range_succ_eq_map, List.map_cons, List.map_map]
      simp only [Function.comp_def, Nat.succ_eq_add_one,
        Nat.add_sub_add_right, Nat.sub_zero]
      rw [wordBits, List.map_cons, words_cons, hvalue, bits_mod, Nat.mul_succ,
        Nat.add_comm, bits_add]
      congr 1
      exact ih (by omega)

theorem createChecksum_lt (hrp : Utf16) (data : List Word) :
    ∀ value ∈ createChecksum hrp data, value.toNat < 2 ^ 5 := by
  intro value hmem
  obtain ⟨i, -, rfl⟩ := List.mem_map.mp hmem
  rw [BitVec.toNat_and]
  exact Nat.and_lt_two_pow _ (by decide)

theorem wordBits_createChecksum (hrp : Utf16) (data : List Word) :
    wordBits 5 (createChecksum hrp data) =
      bits 30
        (polymod (hrpExpand hrp ++ data ++ List.replicate 6 0#64) ^^^
          1#64).toNat := by
  have hindex : ∀ i, 5 - i = 6 - (i + 1) := by omega
  unfold createChecksum
  simp only [hindex]
  exact bits_groups _ (by omega)

theorem polymod_zeros_lt (values : List Word) :
    (polymod (values ++ List.replicate 6 0#64) ^^^ 1#64).toNat < 2 ^ 30 := by
  rw [polymod, List.foldl_append, BitVec.toNat_xor]
  exact Nat.xor_lt_two_pow (polymodStep_lt _ (Nat.two_pow_pos 30))
    (by decide)

theorem eq_of_wordBits_eq
    {left right : List Word} (hleft : ∀ value ∈ left, value.toNat < 2 ^ 5)
    (hright : ∀ value ∈ right, value.toNat < 2 ^ 5)
    (hsame : wordBits 5 left = wordBits 5 right) :
    left = right := by
  have hvalues := eq_of_words_eq (List.forall_mem_map.mpr hleft)
    (List.forall_mem_map.mpr hright) (by omega) hsame
  exact List.map_injective_iff.mpr (fun _ _ => BitVec.eq_of_toNat_eq) hvalues

/-- The created checksum is the only one that is accepted. -/
theorem verifyChecksum_iff
    {hrp : Utf16} {data checksum : List Word}
    (hchecksum : ∀ value ∈ checksum, value.toNat < 2 ^ 5)
    (hlength : checksum.length = 6) :
    verifyChecksum hrp (data ++ checksum) ↔
      checksum = createChecksum hrp data := by
  have hsplit :
      polymod (hrpExpand hrp ++ (data ++ checksum)) =
        polymod (hrpExpand hrp ++ data ++ List.replicate 6 0#64) ^^^
          checksum.foldl polymodStep 0#64 := by
    have hxor := foldl_polymodStep_xor
      ((hrpExpand hrp ++ data).foldl polymodStep 1#64) 0#64 checksum
    rw [BitVec.xor_zero, hlength, ← List.foldl_append, ← List.foldl_append,
      List.append_assoc] at hxor
    exact hxor
  have hone : ∀ left right : Word,
      left ^^^ right = 1#64 ↔ right = left ^^^ 1#64 := by
    intro left right
    constructor
    · rintro hsum
      rw [← hsum, ← BitVec.xor_assoc, BitVec.xor_self, BitVec.zero_xor]
    · rintro rfl
      rw [← BitVec.xor_assoc, BitVec.xor_self, BitVec.zero_xor]
  have hgroups := foldl_polymodStep_groups hchecksum 0#64 0
    (by decide) (by omega)
  rw [hlength] at hgroups
  obtain ⟨hlt, hbits⟩ :
      (checksum.foldl polymodStep 0#64).toNat < 2 ^ 30 ∧
        bits 30 (checksum.foldl polymodStep 0#64).toNat =
          wordBits 5 checksum := hgroups
  rw [verifyChecksum, decide_eq_true_eq, hsplit, hone]
  constructor
  · intro hsame
    apply eq_of_wordBits_eq hchecksum (createChecksum_lt hrp data)
    rw [wordBits_createChecksum, ← hsame]
    exact hbits.symm
  · intro hsame
    apply BitVec.eq_of_toNat_eq
    apply eq_of_bits_eq hlt (polymod_zeros_lt _)
    rw [hbits, hsame, wordBits_createChecksum]

end SoulonWallet.AddressCodec
