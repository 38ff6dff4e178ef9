import SoulonWallet.GoStrings
import SoulonWallet.NotificationStream

/-!
# Decimals in queries

The numbers of a query are written in decimal by the client, and trimmed and
read by `strconv.Atoi` on the server.  A number that fits 64 bits comes back
as it was; any other one is refused.
-/

namespace SoulonWallet.Api

open Chain (trimSpace isSpace)

/-- The range of `int` and of `int64`. -/
def FitsInt64 (number : ℤ) : Prop :=
  -2 ^ 63 ≤ number ∧ number < 2 ^ 63

instance (number : ℤ) : Decidable (FitsInt64 number) :=
  inferInstanceAs (Decidable (_ ∧ _))

theorem isSpace_eq_false_of_isDigit
    {c : Char} (hdigit : c.isDigit = true) : isSpace c = false := by
  rw [Char.isDigit_iff_toNat] at hdigit
  have hbounds : 48 ≤ c.toNat ∧ c.toNat ≤ 57 := hdigit
  rw [Bool.eq_false_iff]
  intro hspace
  simp only [isSpace, Bool.or_eq_true, decide_eq_true_eq, List.mem_cons,
    List.not_mem_nil, or_false, Bool.and_eq_true] at hspace
  rcases hspace with hspace | hspace
  · rcases hspace with rfl | rfl | rfl | rfl | rfl | rfl | rfl | rfl | rfl |
      rfl | rfl | rfl | rfl | rfl
    all_goals exact absurd hbounds (by decide)
  · have hlow : (0x2000 : ℕ) ≤ c.toNat := hspace.1
    omega

theorem trimSpace_of_forall
    {text : String}
    (htext : ∀ c ∈ text.toList, isSpace c = false) :
    trimSpace text = text := by
  have hkeep : ∀ chars : List Char, (∀ c ∈ chars, isSpace c = false) →
      chars.dropWhile isSpace = chars := by
    intro chars hchars
    cases chars with
    | nil => rfl
    | cons first rest =>
        rw [List.dropWhile_cons_of_neg]
        rw [hchars first List.mem_cons_self]
        exact Bool.false_ne_true
  apply String.toList_injective
  rw [Chain.toList_trimSpace, hkeep _ htext, hkeep, List.reverse_reverse]
  intro c hc
  exact htext c (List.mem_reverse.mp hc)

/-! ## Reading what was written -/

theorem toList_toString (number : ℕ) :
    (toString number).toList = Nat.toDigits 10 number := by
  rw [Nat.toString_eq_ofList_toDigits, String.toList_ofList]

/-- One step of the loop of `atoi`. -/
def readDigit (value : ℤ) (c : Char) : ℤ :=
  value * 10 + (c.toNat - 48)

theorem toList_toString_negSucc (number : ℕ) :
    (toString (Int.negSucc number)).toList =
      '-' :: Nat.toDigits 10 (number + 1) := by
  have htext : toString (Int.negSucc number) =
      "-" ++ toString (number + 1) := rfl
  rw [htext, String.toList_append, toList_toString]
  rfl

theorem foldl_digits
    (chars : List Char) (hdigits : ∀ c ∈ chars, c.isDigit = true)
    (value : ℕ) :
    chars.foldl readDigit value =
      (Nat.ofDigitChars 10 chars value : ℕ) := by
  induction chars generalizing value with
  | nil => simp
  | cons c rest ih =>
      obtain ⟨hc, hrest⟩ := List.forall_mem_cons.mp hdigits
      have hlow : 48 ≤ c.toNat := (Char.isDigit_iff_toNat.mp hc).1
      have hnext : readDigit value c =
          ((10 * value + (c.toNat - 48) : ℕ) : ℤ) := by
        unfold readDigit
        push_cast [hlow]
        ring
      rw [List.foldl_cons, hnext, ih hrest, Nat.ofDigitChars_cons]
      rfl

theorem isDigit_of_mem_toDigits
    {number : ℕ} {c : Char} (hc : c ∈ Nat.toDigits 10 number) :
    c.isDigit = true :=
  Nat.isDigit_of_mem_toDigits (by decide) (by decide) hc

theorem foldl_toDigits (number : ℕ) :
    (Nat.toDigits 10 number).foldl readDigit 0 = number := by
  have hfold := foldl_digits (Nat.toDigits 10 number)
    (fun _ hc => isDigit_of_mem_toDigits hc) 0
  rw [Nat.ofDigitChars_ten_toDigits] at hfold
  exact_mod_cast hfold

theorem filter_fits (value : ℤ) :
    ((some value).filter fun parsed =>
        decide (-2 ^ 63 ≤ parsed ∧ parsed < 2 ^ 63)) =
      if FitsInt64 value then some value else none := by
  rw [Option.filter_some]
  exact if_congr decide_eq_true_iff rfl rfl

theorem atoi_of_digits
    {text : String} {first : Char} {rest : List Char}
    (htext : text.toList = first :: rest)
    (hdigits : ∀ c ∈ first :: rest, c.isDigit = true) :
    atoi text =
      if FitsInt64 ((first :: rest).foldl readDigit 0) then
        some ((first :: rest).foldl readDigit 0)
      else none := by
  have hfirst : first.isDigit = true := hdigits first List.mem_cons_self
  have hminus : first ≠ '-' := by
    rintro rfl
    exact absurd hfirst (by decide)
  have hplus : first ≠ '+' := by
    rintro rfl
    exact absurd hfirst (by decide)
  have hall : (first :: rest) ≠ [] ∧
      (first :: rest).all Char.isDigit = true :=
    ⟨List.cons_ne_nil first rest, List.all_eq_true.mpr hdigits⟩
  unfold atoi
  simp only [htext]
  split
  next chars heq => exact absurd (List.cons.inj heq).1 hminus
  next chars heq => exact absurd (List.cons.inj heq).1 hplus
  next =>
    rw [if_pos hall]
    exact filter_fits _

theorem atoi_of_minus_digits
    {text : String} {chars : List Char}
    (htext : text.toList = '-' :: chars) (hne : chars ≠ [])
    (hdigits : ∀ c ∈ chars, c.isDigit = true) :
    atoi text =
      if FitsInt64 (-chars.foldl readDigit 0) then
        some (-chars.foldl readDigit 0)
      else none := by
  have hall : chars ≠ [] ∧ chars.all Char.isDigit = true :=
    ⟨hne, List.all_eq_true.mpr hdigits⟩
  unfold atoi
  simp only [htext]
  rw [if_pos hall, Option.map_some]
  exact filter_fits _

theorem atoi_toString_nat (number : ℕ) :
    atoi (toString number) =
      if FitsInt64 number then some (number : ℤ) else none := by
  have hdigits : ∀ c ∈ Nat.toDigits 10 number, c.isDigit = true :=
    fun _ hc => isDigit_of_mem_toDigits hc
  cases hlist : Nat.toDigits 10 number with
  | nil => exact absurd hlist Nat.toDigits_ne_nil
  | cons first rest =>
      rw [hlist] at hdigits
      have htext := (toList_toString number).trans hlist
      rw [atoi_of_digits htext hdigits, ← hlist, foldl_toDigits]

theorem atoi_toString (number : ℤ) :
    atoi (toString number) =
      if FitsInt64 number then some number else none := by
  cases number with
  | ofNat number => exact atoi_toString_nat number
  | negSucc number =>
      rw [atoi_of_minus_digits (toList_toString_negSucc number)
        Nat.toDigits_ne_nil fun _ hc => isDigit_of_mem_toDigits hc,
        foldl_toDigits, Int.negSucc_eq]
      push_cast
      rfl

theorem mem_toString
    {number : ℤ} {c : Char} (hc : c ∈ (toString number).toList) :
    c = '-' ∨ c.isDigit = true := by
  cases number with
  | ofNat number =>
      have hdigit : c ∈ Nat.toDigits 10 number :=
        toList_toString number ▸ hc
      exact Or.inr (isDigit_of_mem_toDigits hdigit)
  | negSucc number =>
      rw [toList_toString_negSucc, List.mem_cons] at hc
      exact hc.imp_right isDigit_of_mem_toDigits

theorem trimSpace_toString (number : ℤ) :
    trimSpace (toString number) = toString number := by
  apply trimSpace_of_forall
  intro c hc
  rcases mem_toString hc with rfl | hdigit
  · decide
  · exact isSpace_eq_false_of_isDigit hdigit

theorem toString_ne_empty (number : ℤ) : toString number ≠ "" := by
  intro hempty
  have hnil := congrArg String.toList hempty
  cases number with
  | ofNat number =>
      exact Nat.toDigits_ne_nil ((toList_toString number).symm.trans hnil)
  | negSucc number =>
      rw [toList_toString_negSucc] at hnil
      cases hnil

end SoulonWallet.Api
