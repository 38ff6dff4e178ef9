import Mathlib.Data.List.MinMax
import SoulonWallet.KeyedMap

/-!
# Tables with a primary key and unique columns

A table is a keyed map from the primary key to the other columns of a row.
Some of these columns are declared unique: an insert fails when a row with
another key has the same value there.  Inserts come with one of the two
clauses for a row that has the key already, to replace it or to do nothing.
-/

namespace SoulonWallet

abbrev SqlTable (Key Row : Type*) := KeyedMap Key Row

/-- A unique column and the name of its constraint. -/
structure UniqueColumn (Row : Type*) where
  constraint : String
  read : Row → String

namespace SqlTable

variable {Key Row : Type*} [DecidableEq Key]

/-- The first constraint that the row would violate under the key. -/
def violated (columns : List (UniqueColumn Row)) (table : SqlTable Key Row)
    (key : Key) (row : Row) : Option (UniqueColumn Row) :=
  columns.find? fun column =>
    table.entries.any fun entry =>
      decide (entry.1 ≠ key) && decide (column.read entry.2 = column.read row)

/-- `INSERT ... ON CONFLICT(key) DO UPDATE` of all columns. -/
def insertOrUpdate (columns : List (UniqueColumn Row))
    (table : SqlTable Key Row) (key : Key) (row : Row) :
    Except String (SqlTable Key Row) :=
  match table.violated columns key row with
  | some column =>
      .error ("duplicate key value violates unique constraint " ++
        column.constraint)
  | none => .ok (table.insert key row)

/-- `INSERT ... ON CONFLICT(key) DO NOTHING`. -/
def insertMissing (columns : List (UniqueColumn Row))
    (table : SqlTable Key Row) (entry : Sigma fun _ : Key => Row) :
    Except String (SqlTable Key Row) :=
  match table.lookup entry.1 with
  | some _ => .ok table
  | none => table.insertOrUpdate columns entry.1 entry.2

/-- `INSERT ... SELECT ... ON CONFLICT(key) DO NOTHING`. -/
def insertAllMissing (columns : List (UniqueColumn Row))
    (table : SqlTable Key Row) (entries : List (Sigma fun _ : Key => Row)) :
    Except String (SqlTable Key Row) :=
  entries.foldlM (insertMissing columns) table

variable {columns : List (UniqueColumn Row)} {table result : SqlTable Key Row}
variable {key : Key} {row : Row}

/-- No other row has the value of this one in a unique column. -/
def Fits (columns : List (UniqueColumn Row)) (table : SqlTable Key Row)
    (key : Key) (row : Row) : Prop :=
  ∀ column ∈ columns, ∀ other stored, table.lookup other = some stored →
    other ≠ key → column.read stored ≠ column.read row

theorem violated_eq_none_iff :
    table.violated columns key row = none ↔ table.Fits columns key row := by
  unfold violated Fits
  rw [List.find?_eq_none]
  constructor
  · intro h column hcolumn other stored hstored hother hsame
    apply h column hcolumn
    rw [List.any_eq_true]
    exact ⟨⟨other, stored⟩, KeyedMap.mem_entries_iff.mpr hstored,
      by simp [hother, hsame]⟩
  · intro h column hcolumn hany
    rw [List.any_eq_true] at hany
    rcases hany with ⟨entry, hentry, hclash⟩
    simp only [Bool.and_eq_true, decide_eq_true_eq] at hclash
    exact h column hcolumn entry.1 entry.2
      (KeyedMap.mem_entries_iff.mp hentry) hclash.1 hclash.2

theorem insertOrUpdate_eq_ok_iff :
    table.insertOrUpdate columns key row = .ok result ↔
      table.Fits columns key row ∧ result = table.insert key row := by
  rw [← violated_eq_none_iff]
  unfold insertOrUpdate
  cases table.violated columns key row with
  | none => simp [eq_comm]
  | some column => simp

/-- A row that is missing is added, the others stay. -/
theorem lookup_insertMissing
    {entry : Sigma fun _ : Key => Row}
    (hinsert : table.insertMissing columns entry = .ok result) (key : Key) :
    result.lookup key =
      (table.lookup key).or (if key = entry.1 then some entry.2 else none) := by
  unfold insertMissing at hinsert
  cases hlookup : table.lookup entry.1 with
  | some stored =>
      rw [hlookup, Except.ok.injEq] at hinsert
      subst hinsert
      by_cases hkey : key = entry.1
      · subst hkey
        simp [hlookup]
      · simp [hkey]
  | none =>
      rw [hlookup] at hinsert
      rcases insertOrUpdate_eq_ok_iff.mp hinsert with ⟨_, rfl⟩
      rw [KeyedMap.lookup_insert_eq]
      by_cases hkey : key = entry.1
      · subst hkey
        simp [hlookup]
      · simp [hkey]

theorem lookup_insertAllMissing
    {entries : List (Sigma fun _ : Key => Row)}
    (hinsert : table.insertAllMissing columns entries = .ok result)
    (key : Key) :
    result.lookup key = (table.lookup key).or (entries.dlookup key) := by
  unfold insertAllMissing at hinsert
  induction entries generalizing table with
  | nil =>
      simp only [List.foldlM_nil, pure, Except.pure, Except.ok.injEq] at hinsert
      subst hinsert
      simp
  | cons entry rest ih =>
      rw [List.foldlM_cons] at hinsert
      cases hfirst : table.insertMissing columns entry with
      | error err => simp [hfirst, bind, Except.bind] at hinsert
      | ok next =>
          simp only [hfirst, bind, Except.bind] at hinsert
          rw [ih hinsert, lookup_insertMissing hfirst]
          by_cases hkey : key = entry.1
          · subst hkey
            have hself : List.dlookup entry.1 (entry :: rest) =
                some entry.2 :=
              List.dlookup_cons_eq rest entry.1 entry.2
            rw [hself]
            cases table.lookup entry.1 <;> simp
          · have hrest : List.dlookup key (entry :: rest) =
                List.dlookup key rest :=
              List.dlookup_cons_ne _ _ hkey
            simp [hkey, hrest]

/-- `SELECT ... WHERE` with a condition on the key. -/
theorem dlookup_filter
    (keep : Key → Prop) [DecidablePred keep]
    (entries : List (Sigma fun _ : Key => Row)) (key : Key) :
    (entries.filter fun entry => decide (keep entry.1)).dlookup key =
      if keep key then entries.dlookup key else none := by
  induction entries with
  | nil => simp
  | cons entry rest ih =>
      rcases entry with ⟨other, row⟩
      by_cases hkey : key = other
      · subst hkey
        by_cases hkeep : keep key
        · simp [hkeep]
        · simp [hkeep, ih]
      · have hrest :
            List.dlookup key (⟨other, row⟩ :: rest) = List.dlookup key rest :=
          List.dlookup_cons_ne _ _ hkey
        by_cases hkeep : keep other
        · have hfiltered :
              List.dlookup key (⟨other, row⟩ ::
                  rest.filter fun entry => decide (keep entry.1)) =
                List.dlookup key
                  (rest.filter fun entry => decide (keep entry.1)) :=
            List.dlookup_cons_ne _ _ hkey
          simp only [List.filter_cons, hkeep, decide_true, if_true]
          rw [hfiltered, hrest, ih]
        · simp only [List.filter_cons, hkeep, decide_false]
          rw [hrest]
          exact ih

/-! ## The last row -/

section Last

variable {Order : Type*} [LinearOrder Order]

/-- `SELECT ... ORDER BY key DESC LIMIT 1`. -/
def last? (table : SqlTable Order Row) : Option (Sigma fun _ : Order => Row) :=
  table.entries.argmax Sigma.fst

variable {table : SqlTable Order Row}

theorem last?_eq_none_iff :
    table.last? = none ↔ ∀ key, table.lookup key = none := by
  unfold last?
  rw [List.argmax_eq_none]
  constructor
  · intro h key
    rw [AList.lookup_eq_none]
    intro hmem
    simp [AList.mem_keys, AList.keys, h] at hmem
  · intro h
    by_contra hne
    obtain ⟨entry, hentry⟩ := List.exists_mem_of_ne_nil _ hne
    have hlookup := KeyedMap.mem_entries_iff.mp hentry
    rw [h] at hlookup
    contradiction

theorem last?_spec
    {entry : Sigma fun _ : Order => Row} (hlast : table.last? = some entry) :
    table.lookup entry.1 = some entry.2 ∧
      ∀ key row, table.lookup key = some row → key ≤ entry.1 := by
  constructor
  · exact KeyedMap.mem_entries_iff.mp (List.argmax_mem hlast)
  · intro key row hrow
    exact List.le_of_mem_argmax (KeyedMap.mem_entries_iff.mpr hrow) hlast

end Last

end SqlTable

end SoulonWallet
