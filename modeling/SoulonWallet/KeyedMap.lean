import Mathlib.Data.List.AList
import Mathlib.Algebra.Order.BigOperators.Group.List
import Mathlib.Tactic

/-!
# Keyed maps with a default value

A finite map is Mathlib's `AList`: a list of entries whose keys are
distinct.  Reading an absent key gives a default value, as in languages whose
maps have zero values.  The weight of a map is the sum of an integer weight
over its entries; a write changes it by the weight of the new entry minus
that of the entry it replaces.
-/

namespace SoulonWallet

abbrev KeyedMap (Key Value : Type*) := AList fun _ : Key => Value

namespace KeyedMap

variable {Key Value : Type*} [DecidableEq Key]

def get (map : KeyedMap Key Value) (key : Key) (default : Value) : Value :=
  (map.lookup key).getD default

theorem lookup_insert_eq
    (map : KeyedMap Key Value) (key other : Key) (value : Value) :
    (map.insert key value).lookup other =
      if other = key then some value else map.lookup other := by
  split_ifs with heq
  · rw [heq, AList.lookup_insert]
  · exact AList.lookup_insert_ne heq

theorem lookup_erase_eq
    (map : KeyedMap Key Value) (key other : Key) :
    (map.erase key).lookup other =
      if other = key then none else map.lookup other := by
  split_ifs with heq
  · rw [heq, AList.lookup_erase]
  · exact AList.lookup_erase_ne heq

theorem get_insert_self
    (map : KeyedMap Key Value) (key : Key) (value default : Value) :
    get (map.insert key value) key default = value := by
  simp [get]

theorem get_insert_of_ne
    (map : KeyedMap Key Value) {key other : Key} (value default : Value)
    (hne : other ≠ key) :
    get (map.insert key value) other default = get map other default := by
  simp [get, AList.lookup_insert_ne hne]

theorem get_empty (key : Key) (default : Value) :
    get (∅ : KeyedMap Key Value) key default = default := rfl

theorem mem_entries_iff
    {map : KeyedMap Key Value} {key : Key} {value : Value} :
    (⟨key, value⟩ : Sigma fun _ : Key => Value) ∈ map.entries ↔
      map.lookup key = some value :=
  AList.mem_lookup_iff.symm

theorem mem_keys_iff {map : KeyedMap Key Value} {key : Key} :
    key ∈ map.keys ↔ (map.lookup key).isSome :=
  AList.lookup_isSome.symm

theorem eq_empty_of_lookup
    {map : KeyedMap Key Value} (hlookup : ∀ key, map.lookup key = none) :
    map = ∅ := by
  apply AList.ext
  apply List.eq_nil_iff_forall_not_mem.mpr
  rintro ⟨key, value⟩ hentry
  have hsome := mem_entries_iff.mp hentry
  rw [hlookup key] at hsome
  cases hsome

/-- Two maps that read the same at every key have equally many entries. -/
theorem length_entries_congr
    {Other Reading : Type*} {left : KeyedMap Key Value}
    {right : KeyedMap Key Other} (read : Value → Reading)
    (read' : Other → Reading)
    (hsame : ∀ key,
      (left.lookup key).map read = (right.lookup key).map read') :
    left.entries.length = right.entries.length := by
  have hkeys : ∀ key, key ∈ left.keys ↔ key ∈ right.keys := by
    intro key
    have hsome := congrArg Option.isSome (hsame key)
    rw [Option.isSome_map, Option.isSome_map] at hsome
    rw [mem_keys_iff, mem_keys_iff, hsome]
  have hperm : left.keys.Perm right.keys :=
    (List.perm_ext_iff_of_nodup left.keys_nodup right.keys_nodup).mpr hkeys
  simpa [AList.keys, List.keys] using hperm.length_eq

/-! ## Deleting by key -/

/-- The loop that deletes every entry whose key is to be dropped. -/
def eraseKeys (drop : Key → Prop) [DecidablePred drop]
    (map : KeyedMap Key Value) : KeyedMap Key Value :=
  map.entries.foldl
    (fun kept entry => if drop entry.1 then kept.erase entry.1 else kept) map

private theorem lookup_foldl_erase
    (drop : Key → Prop) [DecidablePred drop] (key : Key)
    (entries : List (Sigma fun _ : Key => Value))
    (map : KeyedMap Key Value) :
    (entries.foldl
        (fun kept entry => if drop entry.1 then kept.erase entry.1 else kept)
        map).lookup key =
      if drop key ∧ key ∈ entries.map Sigma.fst then none
      else map.lookup key := by
  induction entries generalizing map with
  | nil => simp
  | cons entry rest ih =>
      rw [List.foldl_cons, ih]
      simp only [List.map_cons, List.mem_cons]
      by_cases hkey : key = entry.1
      · subst hkey
        by_cases hdrop : drop entry.1
        · simp [hdrop]
        · simp [hdrop]
      · have hsame :
            (if drop entry.1 then map.erase entry.1 else map).lookup key =
              map.lookup key := by
          split_ifs
          · exact AList.lookup_erase_ne hkey
          · rfl
        rw [hsame]
        simp only [hkey, false_or]

@[simp] theorem lookup_eraseKeys
    (drop : Key → Prop) [DecidablePred drop] (map : KeyedMap Key Value)
    (key : Key) :
    (map.eraseKeys drop).lookup key =
      if drop key then none else map.lookup key := by
  unfold eraseKeys
  rw [lookup_foldl_erase]
  by_cases hmem : key ∈ map.entries.map Sigma.fst
  · simp [hmem]
  · have hnone : map.lookup key = none := AList.lookup_eq_none.mpr hmem
    simp [hmem, hnone]

/-! ## The greatest key -/

section Greatest

variable {Order Reading : Type*} [LinearOrder Order]

/-- One turn of the loop that looks for the entry with the greatest key. -/
def higher (read : Value → Reading) (best : Order × Reading)
    (entry : Sigma fun _ : Order => Value) : Order × Reading :=
  if best.1 ≤ entry.1 then (entry.1, read entry.2) else best

/-- The loop ends at its start value when that is above every key, and
otherwise at the greatest key. -/
theorem foldl_higher
    (read : Value → Reading) (entries : List (Sigma fun _ : Order => Value))
    (best : Order × Reading) :
    let result := entries.foldl (higher read) best
    (result = best ∧ ∀ entry ∈ entries, entry.1 < best.1) ∨
      (∃ entry ∈ entries,
        result = (entry.1, read entry.2) ∧ best.1 ≤ entry.1 ∧
          ∀ other ∈ entries, other.1 ≤ entry.1) := by
  induction entries generalizing best with
  | nil => simp
  | cons entry rest ih =>
      simp only [List.foldl_cons, higher]
      by_cases hle : best.1 ≤ entry.1
      · right
        rw [if_pos hle]
        rcases ih (entry.1, read entry.2) with
          ⟨hresult, hbelow⟩ | ⟨last, hmem, hresult, hstart, hbest⟩
        · refine ⟨entry, List.mem_cons_self, hresult, hle, ?_⟩
          intro other hother
          rcases List.mem_cons.mp hother with rfl | hrest
          · exact le_rfl
          · exact (hbelow other hrest).le
        · refine ⟨last, List.mem_cons_of_mem entry hmem, hresult,
            hle.trans hstart, ?_⟩
          intro other hother
          rcases List.mem_cons.mp hother with rfl | hrest
          · exact hstart
          · exact hbest other hrest
      · rw [if_neg hle]
        have hlt : entry.1 < best.1 := lt_of_not_ge hle
        rcases ih best with
          ⟨hresult, hbelow⟩ | ⟨last, hmem, hresult, hstart, hbest⟩
        · left
          refine ⟨hresult, ?_⟩
          intro other hother
          rcases List.mem_cons.mp hother with rfl | hrest
          · exact hlt
          · exact hbelow other hrest
        · right
          refine ⟨last, List.mem_cons_of_mem entry hmem, hresult, hstart,
            ?_⟩
          intro other hother
          rcases List.mem_cons.mp hother with rfl | hrest
          · exact (hlt.trans_le hstart).le
          · exact hbest other hrest

/-- The loop depends on a map only through what it reads at each key, not on
the order of the entries. -/
theorem foldl_higher_congr
    {Other : Type*} {left : KeyedMap Order Value}
    {right : KeyedMap Order Other} {read : Value → Reading}
    {read' : Other → Reading}
    (hsame : ∀ key,
      (left.lookup key).map read = (right.lookup key).map read')
    (best : Order × Reading) :
    left.entries.foldl (higher read) best =
      right.entries.foldl (higher read') best := by
  have hright : ∀ key value, left.lookup key = some value →
      ∃ other, right.lookup key = some other ∧ read' other = read value := by
    intro key value hvalue
    have hkey := hsame key
    rw [hvalue] at hkey
    simpa [eq_comm] using hkey
  have hleft : ∀ key other, right.lookup key = some other →
      ∃ value, left.lookup key = some value ∧ read value = read' other := by
    intro key other hother
    have hkey := hsame key
    rw [hother] at hkey
    simpa using hkey
  rcases foldl_higher read left.entries best with
    ⟨hresult, hbelow⟩ | ⟨entry, hmem, hresult, hstart, hbest⟩
  · rcases foldl_higher read' right.entries best with
      ⟨hresult', _⟩ | ⟨entry', hmem', _, hstart', _⟩
    · rw [hresult, hresult']
    · obtain ⟨value, hvalue, _⟩ :=
        hleft entry'.1 entry'.2 (mem_entries_iff.mp hmem')
      have hlt := hbelow ⟨entry'.1, value⟩ (mem_entries_iff.mpr hvalue)
      exact absurd hstart' (not_le_of_gt hlt)
  · obtain ⟨other, hother, hread⟩ :=
      hright entry.1 entry.2 (mem_entries_iff.mp hmem)
    have hotherMem := mem_entries_iff.mpr hother
    rcases foldl_higher read' right.entries best with
      ⟨_, hbelow'⟩ | ⟨entry', hmem', hresult', _, hbest'⟩
    · have hlt := hbelow' ⟨entry.1, other⟩ hotherMem
      exact absurd hstart (not_le_of_gt hlt)
    · obtain ⟨value, hvalue, _⟩ :=
        hleft entry'.1 entry'.2 (mem_entries_iff.mp hmem')
      have hle := hbest ⟨entry'.1, value⟩ (mem_entries_iff.mpr hvalue)
      have hge := hbest' ⟨entry.1, other⟩ hotherMem
      have hkey : entry'.1 = entry.1 := le_antisymm hle hge
      have hlookup := mem_entries_iff.mp hmem'
      rw [hkey, hother, Option.some.injEq] at hlookup
      rw [hresult, hresult', hkey, ← hlookup, hread]

end Greatest

/-! ## Weights -/

def weight (weigh : Value → ℤ) (map : KeyedMap Key Value) : ℤ :=
  (map.entries.map fun entry => weigh entry.2).sum

omit [DecidableEq Key] in
@[simp] theorem weight_empty (weigh : Value → ℤ) :
    weight weigh (∅ : KeyedMap Key Value) = 0 := by
  simp [weight]

private theorem sum_kerase
    (weigh : Value → ℤ) (key : Key) (default : Value)
    (hdefault : weigh default = 0)
    (entries : List (Sigma fun _ : Key => Value)) :
    ((entries.kerase key).map fun entry => weigh entry.2).sum +
        weigh ((entries.dlookup key).getD default) =
      (entries.map fun entry => weigh entry.2).sum := by
  induction entries with
  | nil => simp [hdefault]
  | cons entry rest ih =>
      rcases entry with ⟨other, value⟩
      by_cases hkey : key = other
      · subst other
        simp [List.kerase_cons_eq, add_comm]
      · have hkerase :
            List.kerase key (⟨other, value⟩ :: rest) =
              ⟨other, value⟩ :: List.kerase key rest :=
          List.kerase_cons_ne hkey
        rw [hkerase, List.dlookup_cons_ne _ _ hkey]
        simp only [List.map_cons, List.sum_cons]
        rw [add_assoc, ih]

/-- A write exchanges the weight of the replaced value for that of the new
one. -/
theorem weight_insert
    (weigh : Value → ℤ) (map : KeyedMap Key Value)
    (key : Key) (value default : Value) (hdefault : weigh default = 0) :
    weight weigh (map.insert key value) + weigh (get map key default) =
      weight weigh map + weigh value := by
  have hsum := sum_kerase weigh key default hdefault map.entries
  have hget :
      get map key default = (map.entries.dlookup key).getD default := rfl
  unfold weight
  rw [AList.entries_insert, List.map_cons, List.sum_cons, hget]
  linarith

end KeyedMap

end SoulonWallet
