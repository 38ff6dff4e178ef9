import Mathlib.Data.List.Basic

/-!
# Texts of JSON values

A value is written without white space, and `read` reads it back.  How texts
and numbers are spelled is a parameter: a `Spelling` has a writer and a reader
of each, and the facts about them that the reader of values needs.

The reader gives each nested value one unit of fuel less.  What was written is
read with any fuel above its length, since a nested value is shorter than the
value around it.
-/

namespace SoulonWallet.JsonText

abbrev Units := List UInt16

abbrev Reader (α : Type*) := Units → Option (α × Units)

inductive Value (Text Number : Type) where
  | null
  | bool (value : Bool)
  | number (value : Number)
  | text (value : Text)
  | list (items : List (Value Text Number))
  | map (entries : List (Text × Value Text Number))

variable {Text Number : Type} {α : Type*}

/-- Induction with the hypothesis for every item and for every entry. -/
@[elab_as_elim]
theorem Value.inductOn
    {motive : Value Text Number → Prop} (value : Value Text Number)
    (null : motive .null) (bool : ∀ value, motive (.bool value))
    (number : ∀ value, motive (.number value))
    (text : ∀ value, motive (.text value))
    (list : ∀ items, (∀ item ∈ items, motive item) → motive (.list items))
    (map : ∀ entries, (∀ entry ∈ entries, motive entry.2) →
      motive (.map entries)) :
    motive value :=
  @Value.rec Text Number motive
    (fun items => ∀ item ∈ items, motive item)
    (fun entries => ∀ entry ∈ entries, motive entry.2)
    (fun entry => motive entry.2)
    null bool number text list map
    (fun _ hnil => absurd hnil List.not_mem_nil)
    (fun _ _ hitem hrest => List.forall_mem_cons.mpr ⟨hitem, hrest⟩)
    (fun _ hnil => absurd hnil List.not_mem_nil)
    (fun _ _ hentry hrest => List.forall_mem_cons.mpr ⟨hentry, hrest⟩)
    (fun _ _ hvalue => hvalue) value

/-! ## Marks -/

def quote : UInt16 := 0x22
def comma : UInt16 := 0x2C
def colon : UInt16 := 0x3A
def openList : UInt16 := 0x5B
def closeList : UInt16 := 0x5D
def openMap : UInt16 := 0x7B
def closeMap : UInt16 := 0x7D

def nullText : Units := [0x6E, 0x75, 0x6C, 0x6C]
def trueText : Units := [0x74, 0x72, 0x75, 0x65]
def falseText : Units := [0x66, 0x61, 0x6C, 0x73, 0x65]

def boolText (value : Bool) : Units :=
  if value then trueText else falseText

/-- A sign or a digit. -/
def IsNumberHead (unit : UInt16) : Prop :=
  unit = 0x2D ∨ (0x30 ≤ unit ∧ unit ≤ 0x39)

instance : DecidablePred IsNumberHead :=
  fun unit => inferInstanceAs (Decidable (unit = 0x2D ∨ _))

/-- What can stand behind a value. -/
def Ends (rest : Units) : Prop :=
  ∀ unit ∈ rest.head?, unit = comma ∨ unit = closeList ∨ unit = closeMap

theorem ends_nil : Ends [] :=
  fun _ hnone => nomatch hnone

theorem ends_cons
    {unit : UInt16}
    (hunit : unit = comma ∨ unit = closeList ∨ unit = closeMap)
    (rest : Units) : Ends (unit :: rest) := by
  intro head hhead
  cases hhead
  exact hunit

/-- A text is spelled with its closing quotation mark; the opening one is
written by `write`. -/
structure Spelling (Text Number : Type) where
  text : Text → Units
  readText : Reader Text
  readText_text : ∀ value rest, readText (text value ++ rest) =
    some (value, rest)
  number : Number → Units
  readNumber : Reader Number
  readNumber_number : ∀ value rest, Ends rest →
    readNumber (number value ++ rest) = some (value, rest)
  number_head : ∀ value, ∃ unit tail,
    number value = unit :: tail ∧ IsNumberHead unit

variable (spelling : Spelling Text Number)

/-! ## Writing -/

def writeKey (key : Text) : Units :=
  quote :: spelling.text key ++ [colon]

mutual

def write : Value Text Number → Units
  | .null => nullText
  | .bool value => boolText value
  | .number value => spelling.number value
  | .text value => quote :: spelling.text value
  | .list items =>
      openList :: [comma].intercalate (writeItems items) ++ [closeList]
  | .map entries =>
      openMap :: [comma].intercalate (writeEntries entries) ++ [closeMap]

def writeItems : List (Value Text Number) → List Units
  | [] => []
  | item :: rest => write item :: writeItems rest

def writeEntries : List (Text × Value Text Number) → List Units
  | [] => []
  | (key, value) :: rest =>
      (writeKey spelling key ++ write value) :: writeEntries rest

end

theorem writeItems_eq (items : List (Value Text Number)) :
    writeItems spelling items = items.map (write spelling) := by
  induction items with
  | nil => rw [writeItems, List.map_nil]
  | cons item rest ih => rw [writeItems, ih, List.map_cons]

def writeEntry (entry : Text × Value Text Number) : Units :=
  writeKey spelling entry.1 ++ write spelling entry.2

theorem writeEntries_eq (entries : List (Text × Value Text Number)) :
    writeEntries spelling entries = entries.map (writeEntry spelling) := by
  induction entries with
  | nil => rw [writeEntries, List.map_nil]
  | cons entry rest ih =>
      rw [writeEntries, ih, List.map_cons]
      rfl

/-! ## Reading -/

def expect (mark : UInt16) : Units → Option Units
  | [] => none
  | unit :: rest => if unit = mark then some rest else none

@[simp] theorem expect_cons_self (mark : UInt16) (rest : Units) :
    expect mark (mark :: rest) = some rest :=
  if_pos rfl

/-- One or more, with commas between them, and the closing mark. -/
def separated (close : UInt16) (one : Reader α) : ℕ → Reader (List α)
  | 0, _ => none
  | fuel + 1, units =>
      (one units).bind fun first =>
        match first.2 with
        | [] => none
        | mark :: rest =>
            if mark = comma then
              (separated close one fuel rest).map fun others =>
                (first.1 :: others.1, others.2)
            else if mark = close then some ([first.1], rest)
            else none

def bracketed (close : UInt16) (one : Reader α) : Reader (List α)
  | [] => none
  | mark :: rest =>
      if mark = close then some ([], rest)
      else separated close one rest.length (mark :: rest)

def readEntry (one : Reader (Value Text Number)) :
    Reader (Text × Value Text Number) := fun units => do
  let text ← expect quote units
  let key ← spelling.readText text
  let value ← expect colon key.2
  let read ← one value
  some ((key.1, read.1), read.2)

def readLiteral (units : Units) : Option (Value Text Number × Units) :=
  if nullText <+: units then some (.null, units.drop 4)
  else if trueText <+: units then some (.bool true, units.drop 4)
  else if falseText <+: units then some (.bool false, units.drop 5)
  else none

def readValue : ℕ → Reader (Value Text Number)
  | 0, _ => none
  | _ + 1, [] => none
  | fuel + 1, unit :: rest =>
      if unit = quote then
        (spelling.readText rest).map fun read => (.text read.1, read.2)
      else if unit = openList then
        (bracketed closeList (readValue fuel) rest).map fun read =>
          (.list read.1, read.2)
      else if unit = openMap then
        (bracketed closeMap (readEntry spelling (readValue fuel)) rest).map
          fun read => (.map read.1, read.2)
      else if IsNumberHead unit then
        (spelling.readNumber (unit :: rest)).map fun read =>
          (.number read.1, read.2)
      else readLiteral (unit :: rest)

/-- The value of a whole text. -/
def read (units : Units) : Option (Value Text Number) :=
  match readValue spelling (units.length + 1) units with
  | some (value, []) => some value
  | _ => none

/-! ## Reading what was written -/

theorem length_le_intercalate
    {pieces : List Units} {piece : Units} (hpiece : piece ∈ pieces)
    (separator : Units) :
    piece.length ≤ (separator.intercalate pieces).length := by
  induction pieces with
  | nil => exact absurd hpiece List.not_mem_nil
  | cons first rest ih =>
      cases rest with
      | nil =>
          simp [List.mem_singleton.mp hpiece]
      | cons second rest =>
          rw [List.intercalate_cons_cons, List.length_append,
            List.length_append]
          rcases List.mem_cons.mp hpiece with rfl | hrest
          · omega
          · have hle := ih hrest
            omega

theorem length_le_length_intercalate
    {pieces : List Units} (hne : ∀ piece ∈ pieces, piece ≠ [])
    (separator : Units) :
    pieces.length ≤ (separator.intercalate pieces).length := by
  induction pieces with
  | nil => exact Nat.zero_le _
  | cons first rest ih =>
      obtain ⟨hfirst, hrest⟩ := List.forall_mem_cons.mp hne
      have hpos := List.length_pos_of_ne_nil hfirst
      cases rest with
      | nil =>
          rw [List.intercalate_singleton]
          exact hpos
      | cons second rest =>
          have hle := ih hrest
          rw [List.intercalate_cons_cons, List.length_append,
            List.length_append, List.length_cons]
          omega

/-- Reading one item before a comma or the closing mark. -/
def ReadsOne (close : UInt16) (one : Reader α) (item : α) (units : Units) :
    Prop :=
  ∀ mark rest, mark = comma ∨ mark = close →
    one (units ++ mark :: rest) = some (item, mark :: rest)

theorem separated_intercalate
    {close : UInt16} (hclose : close ≠ comma) {one : Reader α}
    {written : α → Units} {items : List α} (hne : items ≠ [])
    (hreads : ∀ item ∈ items, ReadsOne close one item (written item))
    {fuel : ℕ} (hfuel : items.length ≤ fuel) (rest : Units) :
    separated close one fuel
        ([comma].intercalate (items.map written) ++ close :: rest) =
      some (items, rest) := by
  induction items generalizing fuel with
  | nil => exact absurd rfl hne
  | cons item others ih =>
      obtain ⟨hitem, hothers⟩ := List.forall_mem_cons.mp hreads
      cases fuel with
      | zero => exact absurd hfuel (by simp)
      | succ fuel =>
          cases others with
          | nil =>
              rw [List.map_singleton, List.intercalate_singleton, separated,
                hitem close rest (Or.inr rfl)]
              simp [hclose]
          | cons second others =>
              have hih := ih (List.cons_ne_nil _ _) hothers
                (Nat.le_of_succ_le_succ hfuel)
              rw [List.map_cons, List.map_cons, List.intercalate_cons_cons,
                ← List.map_cons, List.append_assoc, List.append_assoc,
                List.singleton_append, separated,
                hitem comma _ (Or.inl rfl)]
              simp only [Option.bind_some, if_pos]
              rw [hih]
              rfl

theorem bracketed_intercalate
    {close : UInt16} (hclose : close ≠ comma) {one : Reader α}
    {written : α → Units} {items : List α}
    (hreads : ∀ item ∈ items, ReadsOne close one item (written item))
    (hheads : ∀ item ∈ items, ∃ unit tail,
      written item = unit :: tail ∧ unit ≠ close)
    (rest : Units) :
    bracketed close one
        ([comma].intercalate (items.map written) ++ close :: rest) =
      some (items, rest) := by
  cases items with
  | nil => simp [bracketed]
  | cons item others =>
      obtain ⟨unit, tail, hitem, hunit⟩ := hheads item List.mem_cons_self
      have hopens : ∃ after,
          [comma].intercalate ((item :: others).map written) =
            unit :: after := by
        cases others with
        | nil => exact ⟨tail, by simp [hitem]⟩
        | cons second others =>
            rw [List.map_cons, List.map_cons, List.intercalate_cons_cons,
              hitem]
            exact ⟨_, rfl⟩
      obtain ⟨after, hafter⟩ := hopens
      have hlength : (item :: others).length ≤
          (after ++ close :: rest).length := by
        have hnonempty : ∀ piece ∈ (item :: others).map written,
            piece ≠ [] := by
          intro piece hpiece
          obtain ⟨other, hother, rfl⟩ := List.mem_map.mp hpiece
          obtain ⟨head, rest, hwritten, -⟩ := hheads other hother
          rw [hwritten]
          exact List.cons_ne_nil _ _
        have hcount := length_le_length_intercalate hnonempty [comma]
        rw [hafter, List.length_map] at hcount
        simp only [List.length_cons, List.length_append] at hcount ⊢
        omega
      have hread := separated_intercalate hclose (List.cons_ne_nil _ _) hreads
        hlength rest
      rw [hafter, List.cons_append] at hread ⊢
      rw [bracketed, if_neg hunit]
      exact hread

/-- What a value can begin with. -/
def IsHead (unit : UInt16) : Prop :=
  unit ≠ comma ∧ unit ≠ closeList ∧ unit ≠ closeMap

instance : DecidablePred IsHead :=
  fun _ => inferInstanceAs (Decidable (_ ∧ _))

theorem IsNumberHead.isHead
    {unit : UInt16} (hunit : IsNumberHead unit) : IsHead unit := by
  refine ⟨?_, ?_, ?_⟩ <;> rintro rfl <;> revert hunit <;> decide

theorem IsNumberHead.ne_marks
    {unit : UInt16} (hunit : IsNumberHead unit) :
    unit ≠ quote ∧ unit ≠ openList ∧ unit ≠ openMap := by
  refine ⟨?_, ?_, ?_⟩ <;> rintro rfl <;> revert hunit <;> decide

theorem write_head (value : Value Text Number) :
    ∃ unit tail, write spelling value = unit :: tail ∧ IsHead unit := by
  cases value with
  | null => exact ⟨_, _, by rw [write]; rfl, by decide⟩
  | bool value =>
      rw [write]
      cases value with
      | false => exact ⟨_, _, rfl, by decide⟩
      | true => exact ⟨_, _, rfl, by decide⟩
  | number value =>
      obtain ⟨unit, tail, hnumber, hunit⟩ := spelling.number_head value
      exact ⟨unit, tail, by rw [write, hnumber], hunit.isHead⟩
  | text value => exact ⟨_, _, by rw [write], by decide⟩
  | list items => exact ⟨_, _, by rw [write]; rfl, by decide⟩
  | map entries => exact ⟨_, _, by rw [write]; rfl, by decide⟩

/-- Reading an entry, by what reading its value does. -/
theorem readsOne_writeEntry
    {one : Reader (Value Text Number)} {entry : Text × Value Text Number}
    (hvalue : ReadsOne closeMap one entry.2 (write spelling entry.2)) :
    ReadsOne closeMap (readEntry spelling one) entry
      (writeEntry spelling entry) := by
  intro mark rest hmark
  simp only [readEntry, writeEntry, writeKey, List.cons_append,
    List.append_assoc, expect_cons_self, Option.bind_eq_bind,
    Option.bind_some, spelling.readText_text, List.nil_append,
    hvalue mark rest hmark]

theorem readValue_write
    {fuel : ℕ} (value : Value Text Number)
    (hfuel : (write spelling value).length < fuel)
    {rest : Units} (hrest : Ends rest) :
    readValue spelling fuel (write spelling value ++ rest) =
      some (value, rest) := by
  -- The value inside is shorter, so the induction is on the fuel.
  induction fuel generalizing value rest with
  | zero => exact absurd hfuel (Nat.not_lt_zero _)
  | succ fuel ih =>
      cases value with
      | null => simp [write, readValue, readLiteral, nullText, quote,
          openList, openMap, IsNumberHead]
      | bool value =>
          cases value with
          | false => simp [write, boolText, readValue, readLiteral, nullText,
              trueText, falseText, quote, openList, openMap, IsNumberHead]
          | true => simp [write, boolText, readValue, readLiteral, nullText,
              trueText, quote, openList, openMap, IsNumberHead]
      | number value =>
          obtain ⟨unit, tail, hnumber, hunit⟩ := spelling.number_head value
          obtain ⟨hquote, hlist, hmap⟩ := hunit.ne_marks
          have hread := spelling.readNumber_number value rest hrest
          rw [hnumber, List.cons_append] at hread
          rw [write, hnumber, List.cons_append, readValue, if_neg hquote,
            if_neg hlist, if_neg hmap, if_pos hunit, hread]
          rfl
      | text value =>
          rw [write, List.cons_append, readValue, if_pos rfl,
            spelling.readText_text]
          rfl
      | list items =>
          rw [write, writeItems_eq] at hfuel ⊢
          have hread :
              bracketed closeList (readValue spelling fuel)
                  ([comma].intercalate (items.map (write spelling)) ++
                    closeList :: rest) =
                some (items, rest) := by
            apply bracketed_intercalate (by decide)
            · intro item hitem mark rest hmark
              apply ih
              · have hle := length_le_intercalate
                  (List.mem_map_of_mem (f := write spelling) hitem) [comma]
                simp only [List.length_cons, List.length_append] at hfuel
                omega
              · exact ends_cons (hmark.imp_right Or.inl) rest
            · intro item _
              obtain ⟨unit, tail, hitem, -, hunit, -⟩ :=
                write_head spelling item
              exact ⟨unit, tail, hitem, hunit⟩
          rw [List.cons_append, List.cons_append, List.append_assoc,
            List.singleton_append, readValue, if_neg (by decide), if_pos rfl,
            hread]
          rfl
      | map entries =>
          rw [write, writeEntries_eq] at hfuel ⊢
          have hread :
              bracketed closeMap
                  (readEntry spelling (readValue spelling fuel))
                  ([comma].intercalate (entries.map (writeEntry spelling)) ++
                    closeMap :: rest) =
                some (entries, rest) := by
            apply bracketed_intercalate (by decide)
            · intro entry hentry
              apply readsOne_writeEntry
              intro mark rest hmark
              apply ih
              · have hle := length_le_intercalate
                  (List.mem_map_of_mem (f := writeEntry spelling) hentry)
                  [comma]
                simp only [writeEntry, List.length_cons,
                  List.length_append] at hfuel hle
                omega
              · exact ends_cons (hmark.imp_right Or.inr) rest
            · intro entry _
              exact ⟨quote, _, rfl, by decide⟩
          rw [List.cons_append, List.cons_append, List.append_assoc,
            List.singleton_append, readValue, if_neg (by decide),
            if_neg (by decide), if_pos rfl, hread]
          rfl

theorem read_write (value : Value Text Number) :
    read spelling (write spelling value) = some value := by
  have hvalue := readValue_write spelling value (Nat.lt_succ_self _) ends_nil
  rw [List.append_nil] at hvalue
  rw [read, hvalue]

/-! ## What holds of every text -/

/-- A predicate that is kept by joining holds of every text when it holds of
the marks and of what is spelled. -/
theorem write_induction
    {P : Units → Prop} (hmark : ∀ unit < 0x80, P [unit]) (hnil : P [])
    (happend : ∀ front back, P front → P back → P (front ++ back))
    (htext : ∀ value, P (spelling.text value))
    (hnumber : ∀ value, P (spelling.number value))
    (value : Value Text Number) : P (write spelling value) := by
  have hcons : ∀ unit < 0x80, ∀ units, P units → P (unit :: units) :=
    fun unit hunit units hunits => happend [unit] units (hmark unit hunit) hunits
  have hascii : ∀ units : Units, units.all (· < 0x80) = true → P units := by
    intro units hunits
    induction units with
    | nil => exact hnil
    | cons unit units ih =>
        rw [List.all_cons, Bool.and_eq_true, decide_eq_true_eq] at hunits
        exact hcons unit hunits.1 units (ih hunits.2)
  have hjoined : ∀ pieces : List Units, (∀ piece ∈ pieces, P piece) →
      P ([comma].intercalate pieces) := by
    intro pieces hpieces
    induction pieces with
    | nil => exact hnil
    | cons piece pieces ih =>
        obtain ⟨hpiece, hpieces⟩ := List.forall_mem_cons.mp hpieces
        cases pieces with
        | nil =>
            rw [List.intercalate_singleton]
            exact hpiece
        | cons second pieces =>
            rw [List.intercalate_cons_cons]
            exact happend _ _ (happend _ _ hpiece (hmark comma (by decide)))
              (ih hpieces)
  induction value using Value.inductOn with
  | null =>
      rw [write]
      exact hascii _ (by decide)
  | bool value =>
      rw [write]
      cases value with
      | false => exact hascii _ (by decide)
      | true => exact hascii _ (by decide)
  | number value =>
      rw [write]
      exact hnumber value
  | text value =>
      rw [write]
      exact hcons quote (by decide) _ (htext value)
  | list items ih =>
      rw [write, writeItems_eq]
      apply happend _ _ (hcons openList (by decide) _ (hjoined _ ?_))
        (hmark closeList (by decide))
      intro piece hpiece
      obtain ⟨item, hitem, rfl⟩ := List.mem_map.mp hpiece
      exact ih item hitem
  | map entries ih =>
      rw [write, writeEntries_eq]
      apply happend _ _ (hcons openMap (by decide) _ (hjoined _ ?_))
        (hmark closeMap (by decide))
      intro piece hpiece
      obtain ⟨entry, hentry, rfl⟩ := List.mem_map.mp hpiece
      exact happend _ _
        (happend _ _ (hcons quote (by decide) _ (htext entry.1))
          (hmark colon (by decide)))
        (ih entry hentry)

end SoulonWallet.JsonText
