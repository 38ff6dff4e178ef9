import Mathlib.Data.List.Basic
import Mathlib.Tactic

/-!
# Comma-separated values

The format of RFC 4180 over an arbitrary alphabet: records of fields, where a
field is plain or stands between quotes, with its own quotes doubled.  Records
end with a line feed or a carriage return and a line feed, the last one also
at the end of the text.  Reading takes the text one symbol at a time, and a
quote in a plain field or a symbol after the closing quote refuses the text.
-/

namespace SoulonWallet.Csv

structure Dialect (α : Type*) where
  quote : α
  separator : α
  carriageReturn : α
  lineFeed : α
  distinct : [quote, separator, carriageReturn, lineFeed].Nodup

inductive Kind where
  | quote
  | separator
  | carriageReturn
  | lineFeed
  | text
  deriving DecidableEq

inductive Mode where
  | fieldStart
  | plain
  | quoted
  | closed
  | carriageReturn
  deriving DecidableEq

/-- What reading gives: the rest of the current field, the fields after it in
its record, and the records after that one. -/
structure Reading (α : Type*) where
  field : List α
  fields : List (List α)
  records : List (List (List α))

namespace Reading

variable {α : Type*}

def file (reading : Reading α) : List (List (List α)) :=
  (reading.field :: reading.fields) :: reading.records

def push (symbols : List α) (reading : Reading α) : Reading α :=
  { reading with field := symbols ++ reading.field }

/-- The field ends, and the reading of what follows goes on in its record. -/
def afterField (next : Reading α) : Reading α where
  field := []
  fields := next.field :: next.fields
  records := next.records

def beforeRecords (records : List (List (List α))) : Reading α where
  field := []
  fields := []
  records := records

/-- The record ends, and so does the file when nothing follows. -/
def afterRecord (last : Bool) (next : Option (Reading α)) :
    Option (Reading α) :=
  if last then some (beforeRecords [])
  else next.map fun next => beforeRecords next.file

@[simp] theorem map_push_nil (reading : Option (Reading α)) :
    reading.map (push []) = reading := by
  cases reading <;> simp [push]

theorem map_push_cons
    (symbol : α) (symbols : List α) (reading : Option (Reading α)) :
    (reading.map (push symbols)).map (push [symbol]) =
      reading.map (push (symbol :: symbols)) := by
  cases reading <;> simp [push]

theorem field_of_afterRecord
    {last : Bool} {next : Option (Reading α)} {reading : Reading α}
    (hread : afterRecord last next = some reading) : reading.field = [] := by
  cases last <;> cases next <;> simp [afterRecord] at hread <;>
    simp [← hread, beforeRecords]

end Reading

namespace Dialect

/-! ## Joining -/

section Joining

variable {α : Type*} (dialect : Dialect α)

def joinFields (fields : List (List α)) : List α :=
  [dialect.separator].intercalate fields

def joinRecords (records : List (List (List α))) : List α :=
  [dialect.lineFeed].intercalate (records.map dialect.joinFields)

theorem joinFields_cons_cons (first second : List α) (fields : List (List α)) :
    dialect.joinFields (first :: second :: fields) =
      first ++ dialect.separator :: dialect.joinFields (second :: fields) := by
  simp [joinFields, List.intercalate_cons_cons]

theorem joinRecords_singleton (record : List (List α)) :
    dialect.joinRecords [record] = dialect.joinFields record := by
  simp [joinRecords]

theorem joinRecords_cons_cons
    (first second : List (List α)) (records : List (List (List α))) :
    dialect.joinRecords (first :: second :: records) =
      dialect.joinFields first ++
        dialect.lineFeed :: dialect.joinRecords (second :: records) := by
  simp [joinRecords, List.intercalate_cons_cons]

/-- What may follow a field. -/
def Ends (rest : List α) : Prop :=
  ∀ symbol ∈ rest.head?,
    symbol = dialect.separator ∨ symbol = dialect.lineFeed

variable {dialect}

theorem joinFields_ne_nil
    (first second : List α) (fields : List (List α)) :
    dialect.joinFields (first :: second :: fields) ≠ [] := by
  simp [joinFields_cons_cons]

theorem joinRecords_ne_nil
    {record : List (List α)} (records : List (List (List α)))
    (hrecord : dialect.joinFields record ≠ []) :
    dialect.joinRecords (record :: records) ≠ [] := by
  cases records with
  | nil => rwa [joinRecords_singleton]
  | cons second records => simp [joinRecords_cons_cons]

theorem ends_lineFeed (rest : List α) :
    dialect.Ends (dialect.lineFeed :: rest) := by
  simp [Ends]

theorem ends_separator (rest : List α) :
    dialect.Ends (dialect.separator :: rest) := by
  simp [Ends]

theorem ends_nil : dialect.Ends [] := by
  simp [Ends]

end Joining

variable {α : Type*} [DecidableEq α] (dialect : Dialect α)

def kind (symbol : α) : Kind :=
  if symbol = dialect.quote then .quote
  else if symbol = dialect.separator then .separator
  else if symbol = dialect.carriageReturn then .carriageReturn
  else if symbol = dialect.lineFeed then .lineFeed
  else .text

/-! ## Reading -/

def read : Mode → List α → Option (Reading α)
  | .quoted, [] => none
  | .carriageReturn, [] => none
  | _, [] => some (Reading.beforeRecords [])
  | mode, symbol :: rest =>
      match mode, dialect.kind symbol with
      | .quoted, .quote => read .closed rest
      | .quoted, _ => (read .quoted rest).map (Reading.push [symbol])
      | .closed, .quote => (read .quoted rest).map (Reading.push [symbol])
      | .fieldStart, .quote => read .quoted rest
      | .fieldStart, .text => (read .plain rest).map (Reading.push [symbol])
      | .plain, .text => (read .plain rest).map (Reading.push [symbol])
      | .carriageReturn, .lineFeed =>
          Reading.afterRecord rest.isEmpty (read .fieldStart rest)
      | .carriageReturn, _ => none
      | _, .separator => (read .fieldStart rest).map Reading.afterField
      | _, .lineFeed =>
          Reading.afterRecord rest.isEmpty (read .fieldStart rest)
      | _, .carriageReturn => read .carriageReturn rest
      | _, _ => none

def parse (text : List α) : Option (List (List (List α))) :=
  (dialect.read .fieldStart text).map Reading.file

/-! ## Writing -/

/-- Every quote is doubled. -/
def escape (value : List α) : List α :=
  value.flatMap fun symbol =>
    if symbol = dialect.quote then [dialect.quote, dialect.quote]
    else [symbol]

def quoteField (value : List α) : List α :=
  dialect.quote :: (dialect.escape value ++ [dialect.quote])

/-- The texts that stand for a field as they are. -/
def IsPlain (value : List α) : Prop :=
  ∀ symbol ∈ value, dialect.kind symbol = .text

instance (value : List α) : Decidable (dialect.IsPlain value) :=
  inferInstanceAs (Decidable (∀ symbol ∈ value, dialect.kind symbol = .text))

/-- The texts that may be written for a field. -/
inductive Written (dialect : Dialect α) : List α → List α → Prop where
  | plain {value : List α} (hplain : dialect.IsPlain value) :
      Written dialect value value
  | quoted (value : List α) : Written dialect (dialect.quoteField value) value

/-! ## Symbols -/

@[simp] theorem kind_quote : dialect.kind dialect.quote = .quote := by
  simp [kind]

@[simp] theorem kind_separator :
    dialect.kind dialect.separator = .separator := by
  have hdistinct := dialect.distinct
  simp only [List.nodup_cons, List.mem_cons, not_or] at hdistinct
  simp [kind, Ne.symm hdistinct.1.1]

@[simp] theorem kind_carriageReturn :
    dialect.kind dialect.carriageReturn = .carriageReturn := by
  have hdistinct := dialect.distinct
  simp only [List.nodup_cons, List.mem_cons, not_or] at hdistinct
  simp [kind, Ne.symm hdistinct.1.2.1, Ne.symm hdistinct.2.1.1]

@[simp] theorem kind_lineFeed :
    dialect.kind dialect.lineFeed = .lineFeed := by
  have hdistinct := dialect.distinct
  simp only [List.nodup_cons, List.mem_cons, not_or] at hdistinct
  simp [kind, Ne.symm hdistinct.1.2.2.1, Ne.symm hdistinct.2.1.2.1,
    Ne.symm hdistinct.2.2.1.1]

theorem kind_eq_quote_iff (symbol : α) :
    dialect.kind symbol = .quote ↔ symbol = dialect.quote := by
  constructor
  · intro hkind
    by_contra hne
    simp only [kind, if_neg hne] at hkind
    split_ifs at hkind
  · rintro rfl
    exact dialect.kind_quote

/-! ## One symbol at a time -/

section Steps

variable {dialect} {symbol : α} (rest : List α)

attribute [local simp] read

theorem read_separator
    {mode : Mode} (hkind : dialect.kind symbol = .separator)
    (hquoted : mode ≠ .quoted) (hreturn : mode ≠ .carriageReturn) :
    dialect.read mode (symbol :: rest) =
      (dialect.read .fieldStart rest).map Reading.afterField := by
  cases mode <;> simp_all

theorem read_lineFeed
    {mode : Mode} (hkind : dialect.kind symbol = .lineFeed)
    (hquoted : mode ≠ .quoted) :
    dialect.read mode (symbol :: rest) =
      Reading.afterRecord rest.isEmpty (dialect.read .fieldStart rest) := by
  cases mode <;> simp_all

theorem read_plain
    {mode : Mode} (hkind : dialect.kind symbol = .text)
    (hmode : mode = .fieldStart ∨ mode = .plain) :
    dialect.read mode (symbol :: rest) =
      (dialect.read .plain rest).map (Reading.push [symbol]) := by
  rcases hmode with rfl | rfl <;> simp [hkind]

theorem read_quoted
    (hkind : dialect.kind symbol ≠ .quote) :
    dialect.read .quoted (symbol :: rest) =
      (dialect.read .quoted rest).map (Reading.push [symbol]) := by
  cases hother : dialect.kind symbol <;> simp_all

@[simp] theorem read_quoted_quote :
    dialect.read .quoted (dialect.quote :: rest) =
      dialect.read .closed rest := by
  simp

@[simp] theorem read_closed_quote :
    dialect.read .closed (dialect.quote :: rest) =
      (dialect.read .quoted rest).map
        (Reading.push [dialect.quote]) := by
  simp

@[simp] theorem read_fieldStart_quote :
    dialect.read .fieldStart (dialect.quote :: rest) =
      dialect.read .quoted rest := by
  simp

/-- A carriage return ends the field, whatever follows it. -/
theorem field_of_read_carriageReturn
    {mode : Mode} {reading : Reading α}
    (hkind : dialect.kind symbol = .carriageReturn)
    (hquoted : mode ≠ .quoted)
    (hread : dialect.read mode (symbol :: rest) = some reading) :
    reading.field = [] := by
  have hend : ∃ last next,
      Reading.afterRecord last next = some reading := by
    cases mode with
    | quoted => exact absurd rfl hquoted
    | carriageReturn => simp [hkind] at hread
    | fieldStart | plain | closed =>
        simp only [read, hkind] at hread
        cases rest with
        | nil => simp at hread
        | cons next rest =>
            cases hnext : dialect.kind next with
            | lineFeed =>
                simp only [read, hnext] at hread
                exact ⟨_, _, hread⟩
            | quote | separator | carriageReturn | text =>
                simp [hnext] at hread
  obtain ⟨last, next, hend⟩ := hend
  exact Reading.field_of_afterRecord hend

end Steps

/-! ## Fields that are written -/

section Fields

variable {dialect} {rest : List α}

theorem read_of_ends
    (hends : dialect.Ends rest) {mode : Mode} (hquoted : mode ≠ .quoted)
    (hreturn : mode ≠ .carriageReturn) :
    dialect.read mode rest = dialect.read .fieldStart rest := by
  cases rest with
  | nil => cases mode <;> simp_all [read]
  | cons symbol rest =>
      rcases hends symbol (by simp) with rfl | rfl
      · rw [read_separator rest dialect.kind_separator hquoted hreturn,
          read_separator rest dialect.kind_separator (by simp) (by simp)]
      · rw [read_lineFeed rest dialect.kind_lineFeed hquoted,
          read_lineFeed rest dialect.kind_lineFeed (by simp)]

theorem read_plain_append
    {value : List α} (hplain : dialect.IsPlain value) (rest : List α) :
    dialect.read .plain (value ++ rest) =
      (dialect.read .plain rest).map (Reading.push value) := by
  induction value with
  | nil => simp
  | cons symbol value ih =>
      have hsymbol : dialect.kind symbol = .text :=
        hplain symbol List.mem_cons_self
      have hrest : dialect.IsPlain value := by
        intro other hmem
        exact hplain other (List.mem_cons_of_mem _ hmem)
      rw [List.cons_append, read_plain _ hsymbol (.inr rfl), ih hrest,
        Reading.map_push_cons]

theorem read_quoted_escape (value rest : List α) :
    dialect.read .quoted
        (dialect.escape value ++ dialect.quote :: rest) =
      (dialect.read .closed rest).map (Reading.push value) := by
  induction value with
  | nil => simp [escape]
  | cons symbol value ih =>
      have hescape : dialect.escape (symbol :: value) =
          (if symbol = dialect.quote then [dialect.quote, dialect.quote]
            else [symbol]) ++ dialect.escape value := by
        simp [escape]
      by_cases hquote : symbol = dialect.quote
      · subst hquote
        rw [hescape, if_pos rfl]
        simp only [List.cons_append, List.nil_append, read_quoted_quote,
          read_closed_quote, ih, Reading.map_push_cons]
      · have hkind : dialect.kind symbol ≠ .quote := by
          rwa [Ne, kind_eq_quote_iff]
        rw [hescape, if_neg hquote]
        simp only [List.cons_append, List.nil_append, read_quoted _ hkind,
          ih, Reading.map_push_cons]

/-- A field is read back from every text that may be written for it. -/
theorem read_written
    {text value : List α} (hwritten : Written dialect text value)
    (hends : dialect.Ends rest) :
    dialect.read .fieldStart (text ++ rest) =
      (dialect.read .fieldStart rest).map (Reading.push value) := by
  cases hwritten with
  | plain hplain =>
      cases text with
      | nil => simp
      | cons symbol text =>
          have hsymbol : dialect.kind symbol = .text :=
            hplain symbol List.mem_cons_self
          have hstart : dialect.read .fieldStart (symbol :: text ++ rest) =
              dialect.read .plain (symbol :: text ++ rest) := by
            rw [List.cons_append, read_plain _ hsymbol (.inl rfl),
              read_plain _ hsymbol (.inr rfl)]
          rw [hstart, read_plain_append hplain,
            read_of_ends hends (by simp) (by simp)]
  | quoted value =>
      rw [quoteField, List.cons_append, List.append_assoc,
        read_fieldStart_quote, List.singleton_append, read_quoted_escape,
        read_of_ends hends (by simp) (by simp)]

end Fields

/-! ## Records that are written -/

section Records

variable {dialect}

/-- A record is read back in front of the records that follow it. -/
theorem read_joinFields
    {text value : List α} {texts values : List (List α)}
    {rest : List α} {records : List (List (List α))}
    (hfirst : Written dialect text value)
    (hwritten : List.Forall₂ (Written dialect) texts values)
    (hends : dialect.Ends rest)
    (hrest : dialect.read .fieldStart rest =
      some (Reading.beforeRecords records)) :
    dialect.read .fieldStart (dialect.joinFields (text :: texts) ++ rest) =
      some { field := value, fields := values, records := records } := by
  induction hwritten generalizing text value with
  | nil =>
      rw [joinFields, List.intercalate_singleton, read_written hfirst hends, hrest]
      simp [Reading.push, Reading.beforeRecords]
  | cons hsecond hwritten ih =>
      rw [joinFields_cons_cons, List.append_assoc, List.cons_append,
        read_written hfirst (ends_separator _),
        read_separator _ dialect.kind_separator (by simp) (by simp),
        ih hsecond]
      simp [Reading.push, Reading.afterField]

/-- Records are read back from every text in which their fields are written,
unless an empty text stands for one of the records. -/
theorem parse_joinRecords
    {texts values : List (List (List α))}
    (hwritten : List.Forall₂ (List.Forall₂ (Written dialect)) texts values)
    (hsome : texts ≠ [])
    (hfilled : ∀ record ∈ texts, dialect.joinFields record ≠ []) :
    dialect.parse (dialect.joinRecords texts) = some values := by
  induction hwritten with
  | nil => exact absurd rfl hsome
  | @cons record fields texts values hrecord hwritten ih =>
      cases hrecord with
      | nil => exact absurd rfl (hfilled [] List.mem_cons_self)
      | @cons text value record fields hfirst hrecord =>
          cases hwritten with
          | nil =>
              rw [parse, joinRecords_singleton,
                ← List.append_nil (dialect.joinFields _),
                read_joinFields hfirst hrecord ends_nil rfl]
              rfl
          | @cons second others texts values hsecond hwritten =>
              have hnext := ih (by simp) fun record hmem =>
                hfilled record (List.mem_cons_of_mem _ hmem)
              have hnonempty : dialect.joinRecords (second :: texts) ≠ [] :=
                joinRecords_ne_nil texts (hfilled second (by simp))
              obtain ⟨reading, hread, hfile⟩ := Option.map_eq_some_iff.mp hnext
              have hrest : dialect.read .fieldStart
                  (dialect.lineFeed :: dialect.joinRecords
                    (second :: texts)) =
                  some (Reading.beforeRecords (others :: values)) := by
                rw [read_lineFeed _ dialect.kind_lineFeed (by simp), hread,
                  Reading.afterRecord,
                  if_neg (by simpa using hnonempty), ← hfile]
                rfl
              rw [parse, joinRecords_cons_cons,
                read_joinFields hfirst hrecord (ends_lineFeed _) hrest]
              rfl

end Records

/-! ## Fields that are not quoted -/

section Unquoted

variable {dialect} {rest : List α} {reading : Reading α}

theorem isPlain_cons
    {symbol : α} {value : List α} (hsymbol : dialect.kind symbol = .text)
    (hvalue : dialect.IsPlain value) : dialect.IsPlain (symbol :: value) := by
  intro other hmem
  rcases List.mem_cons.mp hmem with rfl | hmem
  · exact hsymbol
  · exact hvalue other hmem

/-- Only text takes a symbol into the field when it is read outside of
quotes. -/
theorem kind_of_read_field
    {mode : Mode} {symbol : α} {tail : List α}
    (hmode : mode = .fieldStart ∨ mode = .plain)
    (hquote : mode = .fieldStart → symbol ≠ dialect.quote)
    (hread : dialect.read mode (symbol :: rest) = some reading)
    (hfield : reading.field = symbol :: tail) :
    dialect.kind symbol = .text := by
  have hquoted : mode ≠ .quoted := by rcases hmode with rfl | rfl <;> simp
  have hreturn : mode ≠ .carriageReturn := by
    rcases hmode with rfl | rfl <;> simp
  have hnonempty : reading.field ≠ [] := by simp [hfield]
  cases hkind : dialect.kind symbol with
  | text => rfl
  | quote =>
      rcases hmode with rfl | rfl
      · exact absurd ((dialect.kind_eq_quote_iff symbol).mp hkind)
          (hquote rfl)
      · simp [read, hkind] at hread
  | separator =>
      rw [read_separator _ hkind hquoted hreturn,
        Option.map_eq_some_iff] at hread
      obtain ⟨next, -, rfl⟩ := hread
      exact absurd rfl hnonempty
  | lineFeed =>
      rw [read_lineFeed _ hkind hquoted] at hread
      exact absurd (Reading.field_of_afterRecord hread) hnonempty
  | carriageReturn =>
      exact absurd (field_of_read_carriageReturn _ hkind hquoted hread)
        hnonempty

theorem isPlain_of_read_plain
    {value : List α}
    (hread : dialect.read .plain (value ++ rest) = some reading)
    (hfield : reading.field = value) : dialect.IsPlain value := by
  induction value generalizing reading with
  | nil => simp [IsPlain]
  | cons symbol value ih =>
      have hkind : dialect.kind symbol = .text :=
        kind_of_read_field (.inr rfl) (by simp) hread hfield
      rw [List.cons_append, read_plain _ hkind (.inr rfl),
        Option.map_eq_some_iff] at hread
      obtain ⟨next, hnext, rfl⟩ := hread
      exact isPlain_cons hkind (ih hnext (List.cons_inj_right _ |>.mp hfield))

theorem field_of_read_closed
    (hquote : ∀ symbol ∈ rest.head?, symbol ≠ dialect.quote)
    (hread : dialect.read .closed rest = some reading) :
    reading.field = [] := by
  cases rest with
  | nil =>
      simp only [read, Option.some.injEq] at hread
      rw [← hread]
      rfl
  | cons symbol rest =>
      cases hkind : dialect.kind symbol with
      | quote =>
          exact absurd ((dialect.kind_eq_quote_iff symbol).mp hkind)
            (hquote symbol (by simp))
      | text => simp [read, hkind] at hread
      | separator =>
          rw [read_separator _ hkind (by simp) (by simp),
            Option.map_eq_some_iff] at hread
          obtain ⟨next, -, rfl⟩ := hread
          rfl
      | lineFeed =>
          rw [read_lineFeed _ hkind (by simp)] at hread
          exact Reading.field_of_afterRecord hread
      | carriageReturn =>
          exact field_of_read_carriageReturn _ hkind (by simp) hread

theorem field_of_read_quoted
    (hquote : ∀ symbol ∈ rest.head?, symbol ≠ dialect.quote)
    (hread : dialect.read .quoted rest = some reading) (tail : List α) :
    reading.field ≠ dialect.quote :: tail := by
  cases rest with
  | nil => simp [read] at hread
  | cons symbol rest =>
      have hne : symbol ≠ dialect.quote := hquote symbol (by simp)
      have hkind : dialect.kind symbol ≠ .quote := by
        rwa [Ne, kind_eq_quote_iff]
      rw [read_quoted _ hkind, Option.map_eq_some_iff] at hread
      obtain ⟨next, -, rfl⟩ := hread
      simp [Reading.push, hne]

theorem Ends.ne_quote
    (hends : dialect.Ends rest) :
    ∀ symbol ∈ rest.head?, symbol ≠ dialect.quote := by
  rintro symbol hmem rfl
  have hkind := dialect.kind_quote
  rcases hends _ hmem with hsame | hsame <;> simp [hsame] at hkind

/-- Reading the quotes in front of a text takes two of them for one, so that
the field read is never the text with its opening quote. -/
theorem field_ne_of_read_quoted
    {value : List α} (quotes : ℕ) (hends : dialect.Ends rest)
    (hread : dialect.read .quoted (value ++ rest) = some reading) :
    reading.field ≠
      List.replicate (quotes + 1) dialect.quote ++ value := by
  induction value using List.twoStepInduction generalizing reading quotes with
  | nil =>
      rw [List.replicate_succ]
      exact field_of_read_quoted hends.ne_quote hread _
  | singleton symbol =>
      by_cases hquote : symbol = dialect.quote
      · subst hquote
        rw [List.singleton_append, read_quoted_quote] at hread
        simp [field_of_read_closed hends.ne_quote hread]
      · rw [List.replicate_succ]
        exact field_of_read_quoted (by simpa using hquote) hread _
  | cons_cons symbol second value ih _ =>
      by_cases hquote : symbol = dialect.quote
      · subst hquote
        rw [List.cons_append, read_quoted_quote] at hread
        by_cases hsecond : second = dialect.quote
        · subst hsecond
          rw [List.cons_append, read_closed_quote,
            Option.map_eq_some_iff] at hread
          obtain ⟨next, hnext, rfl⟩ := hread
          have hnextField := ih (quotes + 1) hnext
          intro hfield
          apply hnextField
          rw [List.replicate_succ] at hfield
          simpa [Reading.push, List.replicate_succ'] using hfield
        · have hempty := field_of_read_closed (by simpa using hsecond) hread
          simp [hempty]
      · rw [List.replicate_succ]
        exact field_of_read_quoted (by simpa using hquote) hread _

theorem isPlain_of_read
    {value : List α} (hends : dialect.Ends rest)
    (hread : dialect.read .fieldStart (value ++ rest) = some reading)
    (hfield : reading.field = value) : dialect.IsPlain value := by
  cases value with
  | nil => simp [IsPlain]
  | cons symbol value =>
      by_cases hquote : symbol = dialect.quote
      · subst hquote
        rw [List.cons_append, read_fieldStart_quote] at hread
        exact absurd hfield
          (field_ne_of_read_quoted 0 hends hread)
      · have hkind : dialect.kind symbol = .text :=
          kind_of_read_field (.inl rfl) (fun _ => hquote) hread hfield
        rw [List.cons_append, read_plain _ hkind (.inl rfl),
          Option.map_eq_some_iff] at hread
        obtain ⟨next, hnext, rfl⟩ := hread
        exact isPlain_cons hkind
          (isPlain_of_read_plain hnext (List.cons_inj_right _ |>.mp hfield))

/-- A record of unquoted fields that is read back as it is has plain fields
only, and what follows it is read as the records after it. -/
theorem isPlain_of_read_joinFields
    {field : List α} {fields : List (List α)}
    {records : List (List (List α))} (hends : dialect.Ends rest)
    (hread : dialect.read .fieldStart
        (dialect.joinFields (field :: fields) ++ rest) =
      some { field := field, fields := fields, records := records }) :
    (∀ plain ∈ field :: fields, dialect.IsPlain plain) ∧
      dialect.read .fieldStart rest =
        some (Reading.beforeRecords records) := by
  induction fields generalizing field with
  | nil =>
      rw [joinFields, List.intercalate_singleton] at hread
      have hplain := isPlain_of_read hends hread rfl
      rw [read_written (.plain hplain) hends,
        Option.map_eq_some_iff] at hread
      obtain ⟨next, hnext, hpush⟩ := hread
      have hnone : next = Reading.beforeRecords records := by
        cases next
        simpa [Reading.push, Reading.beforeRecords] using hpush
      rw [hnext, hnone]
      simpa using hplain
  | cons second fields ih =>
      rw [joinFields_cons_cons, List.append_assoc, List.cons_append] at hread
      have hplain := isPlain_of_read (ends_separator _) hread rfl
      rw [read_written (.plain hplain) (ends_separator _),
        read_separator _ dialect.kind_separator (by simp) (by simp),
        Option.map_map, Option.map_eq_some_iff] at hread
      obtain ⟨next, hnext, hpush⟩ := hread
      have hsame : next =
          { field := second, fields := fields, records := records } := by
        cases next
        simpa [Reading.push, Reading.afterField, and_assoc] using hpush
      obtain ⟨hfields, hrest⟩ := ih (hsame ▸ hnext)
      refine ⟨?_, hrest⟩
      rintro plain (_ | ⟨_, hmem⟩)
      · exact hplain
      · exact hfields plain hmem

theorem isPlain_of_parse
    {records : List (List (List α))} (hfilled : ∀ record ∈ records, record ≠ [])
    (hparse : dialect.parse (dialect.joinRecords records) = some records) :
    ∀ record ∈ records, ∀ field ∈ record, dialect.IsPlain field := by
  induction records with
  | nil => simp
  | cons record records ih =>
      obtain ⟨field, fields, rfl⟩ :=
        List.exists_cons_of_ne_nil (hfilled record List.mem_cons_self)
      obtain ⟨reading, hread, hfile⟩ := Option.map_eq_some_iff.mp hparse
      obtain ⟨⟨hfield, hfields⟩, hrecords⟩ :
          (reading.field = field ∧ reading.fields = fields) ∧
            reading.records = records := by
        simpa [Reading.file] using hfile
      have hreading : reading =
          { field := field, fields := fields, records := records } := by
        rw [← hfield, ← hfields, ← hrecords]
      subst hreading
      cases records with
      | nil =>
          rw [joinRecords_singleton,
            ← List.append_nil (dialect.joinFields _)] at hread
          simpa using (isPlain_of_read_joinFields ends_nil hread).1
      | cons second records =>
          rw [joinRecords_cons_cons] at hread
          obtain ⟨hplain, hrest⟩ :=
            isPlain_of_read_joinFields (ends_lineFeed _) hread
          have hnext : dialect.parse
              (dialect.joinRecords (second :: records)) =
              some (second :: records) := by
            rw [read_lineFeed _ dialect.kind_lineFeed (by simp)] at hrest
            cases hlast : (dialect.joinRecords
                (second :: records)).isEmpty with
            | true =>
                simp [Reading.afterRecord, hlast,
                  Reading.beforeRecords] at hrest
            | false =>
                simpa [Reading.afterRecord, hlast, Reading.beforeRecords,
                  parse, Reading.file] using hrest
          intro other hmem
          rcases List.mem_cons.mp hmem with rfl | hmem
          · exact hplain
          · have hfilled' : ∀ record ∈ second :: records, record ≠ [] := by
              intro record hmem
              exact hfilled record (List.mem_cons_of_mem _ hmem)
            exact ih hfilled' hnext other hmem

/-- Unquoted fields are read back exactly when all of them are plain. -/
theorem parse_joinRecords_iff
    {records : List (List (List α))} (hsome : records ≠ [])
    (hfilled : ∀ record ∈ records, dialect.joinFields record ≠ []) :
    dialect.parse (dialect.joinRecords records) = some records ↔
      ∀ record ∈ records, ∀ field ∈ record, dialect.IsPlain field := by
  constructor
  · intro hparse
    apply isPlain_of_parse _ hparse
    rintro record hmem rfl
    exact hfilled [] hmem rfl
  · intro hplain
    have hwritten : List.Forall₂ (List.Forall₂ (Written dialect))
        records records := by
      refine List.forall₂_same.mpr fun record hrecord => ?_
      refine List.forall₂_same.mpr fun field hfield => ?_
      exact .plain (hplain record hrecord field hfield)
    exact parse_joinRecords hwritten hsome hfilled

end Unquoted

end Dialect

end SoulonWallet.Csv
