import Mathlib.Data.List.Basic
import Mathlib.Tactic

/-!
# Stacks of pages and overlays

A stack holds pages and overlays.  Its base is the last page in it, and what
lies above the base covers it.  The base is found by a search from the top,
which gives the bottom of a stack without pages.  Only the pages of a stack
determine its base, so cutting a stack off above its base, or putting overlays
on it, leaves the base.
-/

namespace SoulonWallet.PageStack

variable {Route : Type*} (isPage : Route → Bool)

/-- The place of the last page, the bottom if there is none. -/
def baseIndex (stack : List Route) : ℕ :=
  match stack.reverse.findIdx? isPage with
  | some depth => stack.length - 1 - depth
  | none => 0

def above (stack : List Route) : List Route :=
  stack.drop (baseIndex isPage stack + 1)

def toBase (stack : List Route) : List Route :=
  stack.take (baseIndex isPage stack + 1)

variable {isPage} {stack rest : List Route} {top route : Route}

theorem baseIndex_concat_page
    (stack : List Route) (htop : isPage top = true) :
    baseIndex isPage (stack ++ [top]) = stack.length := by
  simp [baseIndex, List.findIdx?_cons, htop]

theorem baseIndex_concat_overlay
    (stack : List Route) (htop : isPage top = false) :
    baseIndex isPage (stack ++ [top]) = baseIndex isPage stack := by
  unfold baseIndex
  rw [List.reverse_append, List.reverse_singleton, List.singleton_append,
    List.findIdx?_cons, htop]
  cases stack.reverse.findIdx? isPage with
  | none => rfl
  | some depth =>
      simp only [Bool.false_eq_true, if_false, Option.map_some,
        List.length_append, List.length_singleton]
      omega

theorem baseIndex_lt (hstack : stack ≠ []) :
    baseIndex isPage stack < stack.length := by
  have hpos := List.length_pos_iff.mpr hstack
  unfold baseIndex
  split <;> omega

theorem above_concat_page
    (stack : List Route) (htop : isPage top = true) :
    above isPage (stack ++ [top]) = [] := by
  rw [above, baseIndex_concat_page stack htop]
  simp

theorem above_concat_overlay
    (hstack : stack ≠ []) (htop : isPage top = false) :
    above isPage (stack ++ [top]) = above isPage stack ++ [top] := by
  have hlt : baseIndex isPage stack < stack.length := baseIndex_lt hstack
  rw [above, baseIndex_concat_overlay stack htop,
    List.drop_append_of_le_length (by omega)]
  rfl

/-- The base is the last one of the pages. -/
theorem getElem?_baseIndex
    (hpages : stack.filter isPage ≠ []) :
    stack[baseIndex isPage stack]? = (stack.filter isPage).getLast? := by
  induction stack using List.reverseRecOn with
  | nil => exact absurd rfl hpages
  | append_singleton below top ih =>
      cases htop : isPage top with
      | true =>
          rw [baseIndex_concat_page below htop, List.filter_append]
          simp [htop]
      | false =>
          have hsame : (below ++ [top]).filter isPage = below.filter isPage := by
            simp [htop]
          rw [hsame] at hpages ⊢
          have hbelow : below ≠ [] := by
            rintro rfl
            exact hpages rfl
          rw [baseIndex_concat_overlay below htop,
            List.getElem?_append_left (baseIndex_lt hbelow)]
          exact ih hpages

/-- A page on top is the base, and an overlay on top covers it. -/
theorem above_eq_nil_iff
    (hpages : stack.filter isPage ≠ []) :
    above isPage stack = [] ↔ ∃ top, stack.getLast? = some top ∧
      isPage top = true := by
  induction stack using List.reverseRecOn with
  | nil => exact absurd rfl hpages
  | append_singleton below top ih =>
      cases htop : isPage top with
      | true =>
          rw [above_concat_page below htop]
          simp [htop]
      | false =>
          have hbelow : below ≠ [] := by
            rintro rfl
            simp [htop] at hpages
          rw [above_concat_overlay hbelow htop]
          simp [htop]

/-- The base of a stack with a page on top. -/
theorem getLast?_filter_of_page
    (hlast : stack.getLast? = some top) (htop : isPage top = true) :
    (stack.filter isPage).getLast? = some top := by
  obtain ⟨below, rfl⟩ := List.getLast?_eq_some_iff.mp hlast
  simp [htop]

/-- A stack with a page on top loses a page whenever it is lowered. -/
theorem eq_of_prefix_of_page
    (hlower : rest <+: stack)
    (hpages : rest.filter isPage = stack.filter isPage)
    (hlast : stack.getLast? = some top) (htop : isPage top = true) :
    rest = stack := by
  obtain ⟨closed, rfl⟩ := hlower
  have hnone : closed.filter isPage = [] := by
    simpa using hpages
  rcases List.eq_nil_or_concat closed with rfl | ⟨front, last, rfl⟩
  · exact (List.append_nil rest).symm
  · obtain rfl : last = top := by simpa using hlast
    simp [htop] at hnone

theorem toBase_prefix (stack : List Route) :
    toBase isPage stack <+: stack :=
  List.take_prefix _ _

theorem toBase_ne_nil (hstack : stack ≠ []) :
    toBase isPage stack ≠ [] := by
  simp [toBase, hstack]

end SoulonWallet.PageStack
