import Mathlib.Tactic

/-!
# Wrapping 64-bit arithmetic over the integers

The value of a wrapped sum or difference of `Int64` numbers: the exact one
while it stays in range, and the exact one less `2 ^ 64` when an addition of
in-range numbers passes the top.  The lower half of the unsigned numbers keeps
its values.  A wrapped sum of many numbers is their
exact sum, wrapped once.
-/

namespace SoulonWallet.WrappingInt64

theorem toInt_zero : (0 : Int64).toInt = 0 := rfl

theorem toInt_add_of_lt
    {a b : Int64} (hlow : -2 ^ 63 ≤ a.toInt + b.toInt)
    (hhigh : a.toInt + b.toInt < 2 ^ 63) :
    (a + b).toInt = a.toInt + b.toInt := by
  rw [Int64.toInt_add, Int.bmod_def]
  split <;> omega

theorem toInt_add_of_ge
    {a b : Int64} (hhigh : 2 ^ 63 ≤ a.toInt + b.toInt) :
    (a + b).toInt = a.toInt + b.toInt - 2 ^ 64 := by
  have ha := a.toInt_lt
  have hb := b.toInt_lt
  rw [Int64.toInt_add, Int.bmod_def]
  split <;> omega

theorem toInt_sub_of_le
    {a b : Int64} (hb : 0 ≤ b.toInt) (hle : b.toInt ≤ a.toInt) :
    (a - b).toInt = a.toInt - b.toInt := by
  have ha := a.toInt_lt
  rw [Int64.toInt_sub, Int.bmod_def]
  split <;> omega

theorem toInt_toInt64_of_lt
    {value : UInt64} (hvalue : value.toNat < 2 ^ 63) :
    value.toInt64.toInt = value.toNat := by
  have hcast : (UInt64.ofNat value.toNat).toInt64 = value.toInt64 := by
    rw [UInt64.ofNat_toNat]
  rw [← hcast, UInt64.toInt64_ofNat', Int64.toInt_ofNat_of_lt hvalue]

theorem foldl_add_eq_ofInt
    {Entry : Type*} (amount : Entry → Int64) (entries : List Entry)
    (start : Int64) :
    entries.foldl (fun total entry => total + amount entry) start =
      Int64.ofInt
        (start.toInt + (entries.map fun entry => (amount entry).toInt).sum) := by
  induction entries generalizing start with
  | nil => simp
  | cons entry rest ih =>
      rw [List.foldl_cons, ih, List.map_cons, List.sum_cons, ← add_assoc]
      simp only [Int64.ofInt_add, Int64.ofInt_toInt]

end SoulonWallet.WrappingInt64
