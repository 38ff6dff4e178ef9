import Mathlib.Tactic

/-!
# Regrouping bits

A number of a given width is the list of its bits, the most significant one
first, and a list of such numbers is the concatenation of their bits.  Cutting
one list of bits into groups of different widths is how data are regrouped.
An accumulator that shifts groups in at its low end holds the bits that have
not been taken out yet, as long as they fit into its width.
-/

namespace SoulonWallet.BitGroups

/-- The low bits of a number. -/
def bits : ℕ → ℕ → List Bool
  | 0, _ => []
  | width + 1, value => value.testBit width :: bits width value

/-- The number with the given binary digits. -/
def ofBits (digits : List Bool) : ℕ :=
  digits.foldl (fun value digit => 2 * value + digit.toNat) 0

/-- The bits of a list of numbers of one width. -/
def words (width : ℕ) (values : List ℕ) : List Bool :=
  values.flatMap (bits width)

/-! ## One number -/

@[simp] theorem length_bits (width value : ℕ) :
    (bits width value).length = width := by
  induction width with
  | zero => rfl
  | succ width ih => simp [bits, ih]

theorem bits_congr
    {width value other : ℕ}
    (hsame : ∀ i < width, value.testBit i = other.testBit i) :
    bits width value = bits width other := by
  induction width with
  | zero => rfl
  | succ width ih =>
      rw [bits, bits, hsame width (Nat.lt_succ_self width),
        ih fun i hi => hsame i (Nat.lt_succ_of_lt hi)]

theorem testBit_of_bits_eq
    {width value other : ℕ} (hsame : bits width value = bits width other) :
    ∀ i < width, value.testBit i = other.testBit i := by
  induction width with
  | zero => simp
  | succ width ih =>
      simp only [bits, List.cons.injEq] at hsame
      intro i hi
      rcases Nat.lt_succ_iff_lt_or_eq.mp hi with hlt | rfl
      · exact ih hsame.2 i hlt
      · exact hsame.1

theorem eq_of_bits_eq
    {width value other : ℕ} (hvalue : value < 2 ^ width)
    (hother : other < 2 ^ width)
    (hsame : bits width value = bits width other) :
    value = other := by
  apply Nat.eq_of_testBit_eq
  intro i
  by_cases hi : i < width
  · exact testBit_of_bits_eq hsame i hi
  · have hle : 2 ^ width ≤ 2 ^ i :=
      Nat.pow_le_pow_right Nat.two_pos (Nat.le_of_not_lt hi)
    rw [Nat.testBit_lt_two_pow (hvalue.trans_le hle),
      Nat.testBit_lt_two_pow (hother.trans_le hle)]

theorem bits_add (high low value : ℕ) :
    bits (high + low) value = bits high (value / 2 ^ low) ++ bits low value := by
  induction high with
  | zero => simp [bits]
  | succ high ih =>
      rw [Nat.succ_add, bits, bits, ih, Nat.testBit_div_two_pow,
        List.cons_append]

theorem bits_zero (width : ℕ) :
    bits width 0 = List.replicate width false := by
  induction width with
  | zero => rfl
  | succ width ih => simp [bits, ih, List.replicate_succ]

theorem bits_mod (width value : ℕ) :
    bits width (value % 2 ^ width) = bits width value := by
  apply bits_congr
  intro i hi
  simp [hi]

theorem ofBits_concat (digits : List Bool) (digit : Bool) :
    ofBits (digits ++ [digit]) = 2 * ofBits digits + digit.toNat := by
  simp [ofBits]

theorem bits_two_mul_add (width value : ℕ) (digit : Bool) :
    bits (width + 1) (2 * value + digit.toNat) =
      bits width value ++ [digit] := by
  have hdiv : (2 * value + digit.toNat) / 2 ^ 1 = value := by
    cases digit with
    | false => simp
    | true =>
        simp only [Bool.toNat_true, pow_one]
        omega
  have hlow : bits 1 (2 * value + digit.toNat) = [digit] := by
    cases digit <;> simp [bits]
  rw [bits_add width 1, hdiv, hlow]

theorem bits_ofBits (digits : List Bool) :
    bits digits.length (ofBits digits) = digits := by
  induction digits using List.reverseRecOn with
  | nil => rfl
  | append_singleton digits digit ih =>
      rw [ofBits_concat, List.length_append, List.length_singleton,
        bits_two_mul_add, ih]

theorem ofBits_lt (digits : List Bool) :
    ofBits digits < 2 ^ digits.length := by
  induction digits using List.reverseRecOn with
  | nil => simp [ofBits]
  | append_singleton digits digit ih =>
      rw [ofBits_concat, List.length_append, List.length_singleton,
        pow_succ]
      have hdigit := digit.toNat_lt
      omega

/-! ## Lists of numbers -/

@[simp] theorem words_nil (width : ℕ) : words width [] = [] := rfl

@[simp] theorem words_cons (width value : ℕ) (values : List ℕ) :
    words width (value :: values) = bits width value ++ words width values :=
  rfl

@[simp] theorem words_append (width : ℕ) (left right : List ℕ) :
    words width (left ++ right) = words width left ++ words width right :=
  List.flatMap_append

@[simp] theorem length_words (width : ℕ) (values : List ℕ) :
    (words width values).length = values.length * width := by
  induction values with
  | nil => simp
  | cons value values ih =>
      simp only [words_cons, List.length_append, length_bits, ih,
        List.length_cons]
      ring

/-- There is one way to cut bits into words and a rest that is shorter than
a word. -/
theorem words_append_inj
    {width : ℕ} {values others : List ℕ} {rest rest' : List Bool}
    (hvalues : ∀ value ∈ values, value < 2 ^ width)
    (hothers : ∀ other ∈ others, other < 2 ^ width)
    (hrest : rest.length < width) (hrest' : rest'.length < width)
    (hsame : words width values ++ rest = words width others ++ rest') :
    values = others ∧ rest = rest' := by
  induction values generalizing others with
  | nil =>
      cases others with
      | nil => exact ⟨rfl, hsame⟩
      | cons other others =>
          have hlength := congrArg List.length hsame
          simp at hlength
          omega
  | cons value values ih =>
      cases others with
      | nil =>
          have hlength := congrArg List.length hsame
          simp at hlength
          omega
      | cons other others =>
          obtain ⟨hvalue, hvalues⟩ := List.forall_mem_cons.mp hvalues
          obtain ⟨hother, hothers⟩ := List.forall_mem_cons.mp hothers
          rw [words_cons, words_cons, List.append_assoc,
            List.append_assoc] at hsame
          obtain ⟨hhead, htail⟩ := List.append_inj hsame (by simp)
          obtain ⟨rfl, rfl⟩ := ih hvalues hothers htail
          rw [eq_of_bits_eq hvalue hother hhead]
          exact ⟨rfl, rfl⟩

theorem eq_of_words_eq
    {width : ℕ} {values others : List ℕ}
    (hvalues : ∀ value ∈ values, value < 2 ^ width)
    (hothers : ∀ other ∈ others, other < 2 ^ width) (hwidth : 0 < width)
    (hsame : words width values = words width others) :
    values = others := by
  have hnil : ([] : List Bool).length < width := hwidth
  exact (words_append_inj hvalues hothers hnil hnil
    (congrArg (· ++ []) hsame)).1

/-- The first words of a list of bits. -/
def slices (width count : ℕ) (digits : List Bool) : List ℕ :=
  (List.range count).map fun i =>
    ofBits ((digits.drop (i * width)).take width)

theorem slices_lt
    {width count : ℕ} {digits : List Bool} :
    ∀ value ∈ slices width count digits, value < 2 ^ width := by
  intro value hmem
  obtain ⟨i, -, rfl⟩ := List.mem_map.mp hmem
  apply (ofBits_lt _).trans_le
  exact Nat.pow_le_pow_right Nat.two_pos (List.length_take_le _ _)

theorem words_slices
    {width count : ℕ} {digits : List Bool}
    (hlength : count * width ≤ digits.length) :
    words width (slices width count digits) = digits.take (count * width) := by
  induction count with
  | zero => simp [slices]
  | succ count ih =>
      rw [Nat.succ_mul] at hlength
      have hslice :
          ((digits.drop (count * width)).take width).length = width := by
        rw [List.length_take, List.length_drop]
        omega
      have hbits := bits_ofBits ((digits.drop (count * width)).take width)
      rw [hslice] at hbits
      have hsucc : slices width (count + 1) digits =
          slices width count digits ++
            [ofBits ((digits.drop (count * width)).take width)] := by
        simp [slices, List.range_succ]
      rw [hsucc, words_append, ih (by omega), words_cons, words_nil,
        List.append_nil, hbits, Nat.succ_mul, List.take_add]

/-! ## Bytes -/

theorem map_toNat_lt (data : List UInt8) :
    ∀ value ∈ data.map UInt8.toNat, value < 2 ^ 8 :=
  List.forall_mem_map.mpr fun byte _ => byte.toNat_lt

theorem eq_of_map_toNat_eq
    {left right : List UInt8}
    (hsame : left.map UInt8.toNat = right.map UInt8.toNat) : left = right :=
  List.map_injective_iff.mpr (fun _ _ => UInt8.toNat_inj.mp) hsame

/-! ## Accumulators -/

section Accumulator

variable {size : ℕ} (accumulator value : BitVec size) {held width : ℕ}

theorem bits_shiftIn
    (hfit : held + width ≤ size) (hvalue : value.toNat < 2 ^ width) :
    bits (held + width) (accumulator <<< width ||| value).toNat =
      bits held accumulator.toNat ++ bits width value.toNat := by
  rw [bits_add]
  congr 1
  · apply bits_congr
    intro i hi
    have hzero : value.toNat.testBit (i + width) = false :=
      Nat.testBit_lt_two_pow (hvalue.trans_le
        (Nat.pow_le_pow_right Nat.two_pos (Nat.le_add_left width i)))
    rw [BitVec.testBit_toNat] at hzero
    rw [Nat.testBit_div_two_pow, BitVec.testBit_toNat, BitVec.testBit_toNat,
      BitVec.getLsbD_or, BitVec.getLsbD_shiftLeft, hzero]
    simp
    omega
  · apply bits_congr
    intro i hi
    rw [BitVec.testBit_toNat, BitVec.testBit_toNat, BitVec.getLsbD_or,
      BitVec.getLsbD_shiftLeft]
    simp [hi]

theorem shiftLeft_xor_eq_or (hvalue : value.toNat < 2 ^ width) :
    accumulator <<< width ^^^ value = accumulator <<< width ||| value := by
  apply BitVec.eq_of_getLsbD_eq
  intro i hi
  rw [BitVec.getLsbD_xor, BitVec.getLsbD_or, BitVec.getLsbD_shiftLeft]
  by_cases hlow : i < width
  · simp [hlow]
  · have hzero : value.toNat.testBit i = false :=
      Nat.testBit_lt_two_pow (hvalue.trans_le
        (Nat.pow_le_pow_right Nat.two_pos (Nat.le_of_not_lt hlow)))
    rw [BitVec.testBit_toNat] at hzero
    simp [hzero]

theorem toNat_mask (hwidth : width < size) :
    ((BitVec.ofNat size 1 <<< width) - BitVec.ofNat size 1).toNat =
      2 ^ width - 1 := by
  have hlt : 2 ^ width < 2 ^ size := Nat.pow_lt_pow_right (by omega) hwidth
  have hpos : 0 < 2 ^ width := Nat.two_pow_pos width
  have hone : 1 % 2 ^ size = 1 := Nat.mod_eq_of_lt (by omega)
  rw [BitVec.toNat_sub, BitVec.toNat_shiftLeft, BitVec.toNat_ofNat, hone,
    Nat.one_shiftLeft, Nat.mod_eq_of_lt hlt]
  have hsum : 2 ^ size - 1 + 2 ^ width = 2 ^ width - 1 + 2 ^ size := by
    omega
  rw [hsum, Nat.add_mod_right, Nat.mod_eq_of_lt (by omega)]

/-- The bits that are taken out above those that are held. -/
theorem toNat_takeOut (hfit : held + width ≤ size) (hwidth : width < size) :
    (accumulator.sshiftRight held &&&
        ((BitVec.ofNat size 1 <<< width) - BitVec.ofNat size 1)).toNat =
      accumulator.toNat / 2 ^ held % 2 ^ width := by
  rw [BitVec.toNat_and, toNat_mask hwidth, Nat.and_two_pow_sub_one_eq_mod]
  apply Nat.eq_of_testBit_eq
  intro i
  rw [Nat.testBit_mod_two_pow, Nat.testBit_mod_two_pow,
    Nat.testBit_div_two_pow, BitVec.testBit_toNat, BitVec.testBit_toNat,
    BitVec.getLsbD_sshiftRight]
  by_cases hi : i < width
  · have hin : held + i < size := by omega
    have hsize : ¬ size ≤ i := by omega
    simp [hi, hin, hsize, Nat.add_comm]
  · simp [hi]

end Accumulator

end SoulonWallet.BitGroups
