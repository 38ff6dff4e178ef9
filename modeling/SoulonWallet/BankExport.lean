import Mathlib.Data.List.Sort
import Mathlib.Data.List.TakeWhile
import Mathlib.Data.String.Basic
import SoulonWallet.GenesisAtomicity

/-!
# The balances that the bank exports

`ExportBalances` lists the balances in the order of their addresses, and a
genesis adds the listed amounts up.  Every address is listed once, so that the
genesis of an export has the balances of the exporting keeper.  Go compares
strings byte by byte, which is the order of their characters.
-/

namespace SoulonWallet.Chain.Bank

def Keeper.exportBalances (keeper : Keeper) : List Balance :=
  let addresses := keeper.balances.keys.insertionSort (· ≤ ·)
  addresses.map fun address => ⟨address, keeper.balance address⟩

/-- What a genesis asks of its balances. -/
structure Keeper.Valid (keeper : Keeper) : Prop where
  address_ne : "" ∉ keeper.balances.keys
  amount_nonneg : ∀ address, 0 ≤ keeper.balance address

/-! ## The list -/

theorem exportBalances_addresses (keeper : Keeper) :
    keeper.exportBalances.map Balance.address =
      keeper.balances.keys.insertionSort (· ≤ ·) := by
  simp [Keeper.exportBalances, Function.comp_def]

theorem exportBalances_increasing (keeper : Keeper) :
    (keeper.exportBalances.map Balance.address).Pairwise (· < ·) := by
  have hnodup : (keeper.balances.keys.insertionSort (· ≤ ·)).Nodup :=
    (List.perm_insertionSort _ _).nodup_iff.mpr keeper.balances.keys_nodup
  have hsorted := List.pairwise_insertionSort (· ≤ ·) keeper.balances.keys
  rw [exportBalances_addresses]
  exact (hsorted.and hnodup).imp fun hpair => lt_of_le_of_ne hpair.1 hpair.2

theorem mem_exportBalances_iff (keeper : Keeper) (balance : Balance) :
    balance ∈ keeper.exportBalances ↔
      balance.address ∈ keeper.balances.keys ∧
        balance.amount = keeper.balance balance.address := by
  simp only [Keeper.exportBalances, List.mem_map, List.mem_insertionSort]
  constructor
  · rintro ⟨address, hmem, rfl⟩
    exact ⟨hmem, rfl⟩
  · rintro ⟨hmem, hamount⟩
    exact ⟨balance.address, hmem, by rw [← hamount]⟩

/-- The list does not depend on the order in which a map is walked. -/
theorem exportBalances_congr
    {keeper other : Keeper}
    (hlookup : ∀ address,
      keeper.balances.lookup address = other.balances.lookup address) :
    keeper.exportBalances = other.exportBalances := by
  have hkeys : keeper.balances.keys.Perm other.balances.keys := by
    rw [List.perm_ext_iff_of_nodup keeper.balances.keys_nodup
      other.balances.keys_nodup]
    intro address
    rw [KeyedMap.mem_keys_iff, KeyedMap.mem_keys_iff, hlookup]
  have hsorted : keeper.balances.keys.insertionSort (· ≤ ·) =
      other.balances.keys.insertionSort (· ≤ ·) := by
    have hperm := ((List.perm_insertionSort (· ≤ ·) _).trans hkeys).trans
      (List.perm_insertionSort (· ≤ ·) _).symm
    exact hperm.eq_of_sortedLE List.sortedLE_insertionSort
      List.sortedLE_insertionSort
  have hbalance : ∀ address, keeper.balance address = other.balance address := by
    intro address
    rw [Keeper.balance, Keeper.balance, KeyedMap.get, KeyedMap.get, hlookup]
  simp only [Keeper.exportBalances, hsorted, hbalance]

/-! ## Its genesis -/

def Keeper.exportGenesis (keeper : Keeper) : GenesisState where
  params := keeper.params
  balances := keeper.exportBalances

theorem exportGenesis_accepted
    {keeper : Keeper} (hvalid : keeper.Valid) :
    keeper.exportGenesis.Accepted := by
  intro balance hmem
  obtain ⟨hkey, hamount⟩ := (mem_exportBalances_iff keeper balance).mp hmem
  constructor
  · intro hempty
    exact hvalid.address_ne (hempty ▸ hkey)
  · rw [hamount, Int64.not_lt]
    exact hvalid.amount_nonneg balance.address

/-- The lines of an address are its single entry. -/
theorem filter_exportBalances
    {keeper : Keeper} {address : String}
    (hmem : address ∈ keeper.balances.keys) :
    keeper.exportBalances.filter (fun balance => balance.address = address) =
      [⟨address, keeper.balance address⟩] := by
  let addresses := keeper.balances.keys.insertionSort (· ≤ ·)
  have hnodup : addresses.Nodup :=
    (List.perm_insertionSort _ _).nodup_iff.mpr keeper.balances.keys_nodup
  have hsingle : addresses.filter (fun other => other = address) =
      [address] := by
    have hcount : addresses.count address = 1 :=
      List.count_eq_one_of_mem hnodup ((List.mem_insertionSort _).mpr hmem)
    rw [List.filter_eq, hcount]
    rfl
  let line (other : String) : Balance := ⟨other, keeper.balance other⟩
  rw [Keeper.exportBalances, List.filter_map]
  exact congrArg (List.map line) hsingle

theorem listedEntry_exportBalances (keeper : Keeper) (address : String) :
    listedEntry address keeper.exportBalances =
      keeper.balances.lookup address := by
  have hlisted : (∃ balance ∈ keeper.exportBalances,
      balance.address = address) ↔ address ∈ keeper.balances.keys := by
    rw [← List.mem_map, exportBalances_addresses, List.mem_insertionSort]
  unfold listedEntry
  by_cases hmem : address ∈ keeper.balances.keys
  · obtain ⟨amount, hlookup⟩ :=
      Option.isSome_iff_exists.mp (KeyedMap.mem_keys_iff.mp hmem)
    have hbalance : keeper.balance address = amount := by
      rw [Keeper.balance, KeyedMap.get, hlookup, Option.getD_some]
    rw [if_pos (hlisted.mpr hmem), credited, filter_exportBalances hmem, hlookup, hbalance]
    simp
  · rw [if_neg (mt hlisted.mp hmem)]
    exact (AList.lookup_eq_none.mpr hmem).symm

theorem initGenesis_exportGenesis_lookup
    {keeper : Keeper} (hvalid : keeper.Valid) (importer : Keeper)
    (address : String) :
    (importer.initGenesis keeper.exportGenesis).1.balances.lookup address =
      keeper.balances.lookup address := by
  have haccepted := exportGenesis_accepted hvalid
  have hwritten : keeper.exportGenesis.written = keeper.exportBalances := by
    refine List.takeWhile_eq_self_iff.mpr fun balance hmem => ?_
    exact decide_eq_true (haccepted balance hmem)
  have hcontents := initGenesis_contents importer keeper.exportGenesis
  rw [hwritten] at hcontents
  have hlookup := congrFun (congrArg Prod.snd hcontents) address
  exact hlookup.trans (listedEntry_exportBalances keeper address)

/-- The export of a keeper is the genesis of a keeper with the same balances
and the same export. -/
theorem initGenesis_exportBalances
    {keeper : Keeper} (hvalid : keeper.Valid) (importer : Keeper) :
    (keeper.exportBalances.map Balance.address).Pairwise (· < ·) ∧
      (∀ address, address ∈ keeper.exportBalances.map Balance.address ↔
        address ∈ keeper.balances.keys) ∧
      ∃ imported, importer.initGenesis
          { params := keeper.params, balances := keeper.exportBalances } =
            (imported, .ok ()) ∧
        (∀ address, imported.balance address = keeper.balance address) ∧
        imported.exportBalances = keeper.exportBalances := by
  refine ⟨exportBalances_increasing keeper, ?_, ?_⟩
  · intro address
    rw [exportBalances_addresses, List.mem_insertionSort]
  · have hlookup := initGenesis_exportGenesis_lookup hvalid importer
    have haccepted := (initGenesis_ok_iff importer keeper.exportGenesis).mpr
      (exportGenesis_accepted hvalid)
    refine ⟨(importer.initGenesis keeper.exportGenesis).1, ?_, ?_, ?_⟩
    · rw [← haccepted]
      rfl
    · intro address
      rw [Keeper.balance, Keeper.balance, KeyedMap.get, KeyedMap.get,
        hlookup address]
    · exact exportBalances_congr hlookup

/-- An empty account is exported and imported as well. -/
def threeAccounts : Keeper :=
  ((newKeeper.setBalance "carol" 7).setBalance "alice" 5).setBalance "bob" 0

theorem threeAccounts_valid : threeAccounts.Valid where
  address_ne := by decide
  amount_nonneg := by
    intro address
    simp only [threeAccounts, Keeper.setBalance, Keeper.balance,
      KeyedMap.get, KeyedMap.lookup_insert_eq]
    split_ifs
    · decide
    · decide
    · decide
    · exact Int64.le_refl 0

theorem initGenesis_exportBalances_threeAccounts :
    (newKeeper.initGenesis
      { params := threeAccounts.params
        balances := threeAccounts.exportBalances }).2 = .ok () := by
  obtain ⟨-, -, imported, hgenesis, -, -⟩ :=
    initGenesis_exportBalances threeAccounts_valid newKeeper
  rw [hgenesis]

end SoulonWallet.Chain.Bank
