import SoulonWallet.ChainTx

/-!
# Trimming Go strings

What `strings.TrimSpace` leaves of a text: a part of it that neither starts
nor ends with a space, and all of a prefix that has no space at its ends.
-/

namespace SoulonWallet.Chain

theorem toList_trimSpace (text : String) :
    (trimSpace text).toList =
      ((text.toList.dropWhile isSpace).reverse.dropWhile isSpace).reverse :=
  String.toList_ofList

/-- Trimming keeps a prefix that has no space at its ends. -/
theorem prefix_trimSpace
    {text : String} {start tail init : List Char} {first last : Char}
    (hstart : start <+: text.toList)
    (hhead : start = first :: tail) (hfirst : isSpace first = false)
    (hlast : start = init ++ [last]) (hend : isSpace last = false) :
    start <+: (trimSpace text).toList := by
  obtain ⟨rest, htext⟩ := hstart
  have hleading : (start ++ rest).dropWhile isSpace = start ++ rest := by
    simp [hhead, hfirst]
  have htrailing : start.reverse.dropWhile isSpace = start.reverse := by
    simp [hlast, hend]
  rw [toList_trimSpace, ← htext, hleading, List.reverse_append,
    List.dropWhile_append]
  split
  · rw [htrailing, List.reverse_reverse]
  · rw [List.reverse_append, List.reverse_reverse]
    exact List.prefix_append _ _

theorem ne_empty_of_trimSpace_ne
    {text : String} (h : trimSpace text ≠ "") : text ≠ "" := by
  intro hempty
  apply h
  rw [hempty]
  decide

theorem trimSpace_ne_empty
    {text : String} {first : Char} {rest : List Char}
    (htext : text.toList = first :: rest) (hfirst : isSpace first = false) :
    trimSpace text ≠ "" := by
  intro hempty
  have hstart : [first] <+: text.toList := ⟨rest, htext.symm⟩
  have hkept := prefix_trimSpace hstart rfl hfirst (List.nil_append _).symm
    hfirst
  rw [hempty] at hkept
  simp at hkept

theorem exists_last_of_trimSpace
    {text : String} (htext : trimSpace text ≠ "") :
    ∃ init last, (trimSpace text).toList = init ++ [last] ∧
      isSpace last = false := by
  have hlist := toList_trimSpace text
  cases hdrop : (text.toList.dropWhile isSpace).reverse.dropWhile isSpace with
  | nil =>
      rw [hdrop, List.reverse_nil] at hlist
      exact absurd (String.toList_eq_nil_iff.mp hlist) htext
  | cons last init =>
      rw [hdrop, List.reverse_cons] at hlist
      refine ⟨init.reverse, last, hlist, ?_⟩
      have hnot := List.head_dropWhile_not isSpace
        (l := (text.toList.dropWhile isSpace).reverse) (by simp [hdrop])
      simpa [hdrop] using hnot

theorem trimSpace_eq_self
    {text : String} {first last : Char} {tail init : List Char}
    (hhead : text.toList = first :: tail) (hfirst : isSpace first = false)
    (hlast : text.toList = init ++ [last]) (hend : isSpace last = false) :
    trimSpace text = text := by
  apply String.toList_injective
  have hkept := prefix_trimSpace List.prefix_rfl hhead hfirst hlast hend
  refine (hkept.eq_of_length_le ?_).symm
  rw [toList_trimSpace, List.length_reverse]
  calc
    _ ≤ (text.toList.dropWhile isSpace).reverse.length :=
      (List.dropWhile_sublist _).length_le
    _ ≤ text.toList.length := by
      rw [List.length_reverse]
      exact (List.dropWhile_sublist _).length_le

theorem exists_head_of_trimSpace
    {text : String} (htext : trimSpace text ≠ "") :
    ∃ first tail, (trimSpace text).toList = first :: tail ∧
      isSpace first = false := by
  have hprefix : (trimSpace text).toList <+: text.toList.dropWhile isSpace := by
    rw [toList_trimSpace, ← List.reverse_suffix, List.reverse_reverse]
    exact List.dropWhile_suffix _
  cases hlist : (trimSpace text).toList with
  | nil => exact absurd (String.toList_eq_nil_iff.mp hlist) htext
  | cons first tail =>
      rw [hlist] at hprefix
      obtain ⟨rest, hrest⟩ := hprefix
      have hdrop : text.toList.dropWhile isSpace = first :: (tail ++ rest) :=
        hrest.symm
      refine ⟨first, tail, rfl, ?_⟩
      have hnot := List.head_dropWhile_not isSpace
        (l := text.toList) (by simp [hdrop])
      simpa [hdrop] using hnot

theorem trimSpace_trimSpace (text : String) :
    trimSpace (trimSpace text) = trimSpace text := by
  by_cases hempty : trimSpace text = ""
  · rw [hempty]
    decide
  · obtain ⟨first, tail, hhead, hfirst⟩ := exists_head_of_trimSpace hempty
    obtain ⟨init, last, hlast, hend⟩ := exists_last_of_trimSpace hempty
    exact trimSpace_eq_self hhead hfirst hlast hend

end SoulonWallet.Chain
