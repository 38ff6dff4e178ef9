import Mathlib.Data.List.DropRight
import Mathlib.Data.List.Infix
import Mathlib.Tactic

/-!
# Texts of sixteen-bit code units

JavaScript and Dart strings are sequences of UTF-16 code units, not
necessarily well formed.  A Lean string denotes the text of its UTF-16
encoding.
-/

namespace SoulonWallet

structure Utf16 where
  units : List UInt16
  deriving DecidableEq

namespace Utf16

def ofChar (char : Char) : List UInt16 :=
  if char.toNat < 0x10000 then [char.toNat.toUInt16]
  else
    [(0xD800 + (char.toNat - 0x10000) / 0x400).toUInt16,
      (0xDC00 + (char.toNat - 0x10000) % 0x400).toUInt16]

def ofString (text : String) : Utf16 :=
  ⟨text.toList.flatMap ofChar⟩

instance : Coe String Utf16 := ⟨ofString⟩

instance : Append Utf16 :=
  ⟨fun left right => ⟨left.units ++ right.units⟩⟩

def isEmpty (text : Utf16) : Bool :=
  text.units.isEmpty

def length (text : Utf16) : ℕ :=
  text.units.length

def take (text : Utf16) (count : ℕ) : Utf16 :=
  ⟨text.units.take count⟩

/-- The Unicode white space and the byte order mark, which `trim` of Dart
removes; each of them is one code unit. -/
def isWhiteSpace (unit : UInt16) : Bool :=
  (0x9 ≤ unit && unit ≤ 0xD) || unit == 0x20 || unit == 0x85 ||
    unit == 0xA0 || unit == 0x1680 || (0x2000 ≤ unit && unit ≤ 0x200A) ||
    unit == 0x2028 || unit == 0x2029 || unit == 0x202F || unit == 0x205F ||
    unit == 0x3000 || unit == 0xFEFF

def trim (text : Utf16) : Utf16 :=
  ⟨(text.units.dropWhile isWhiteSpace).rdropWhile isWhiteSpace⟩

def split (text : Utf16) (separator : UInt16) : List Utf16 :=
  (text.units.splitOn separator).map Utf16.mk

/-- The pieces between the line feeds; a carriage return just before a line
feed belongs to the separator. -/
def lineUnits : List UInt16 → List (List UInt16)
  | [] => [[]]
  | unit :: rest =>
      if unit = 10 then [] :: lineUnits rest
      else if unit = 13 ∧ rest.head? = some 10 then lineUnits rest
      else (lineUnits rest).modifyHead (unit :: ·)

def splitLines (text : Utf16) : List Utf16 :=
  (lineUnits text.units).map Utf16.mk

def padLeft (text : Utf16) (width : ℕ) (unit : UInt16) : Utf16 :=
  ⟨text.units.leftpad width unit⟩

def padRight (text : Utf16) (width : ℕ) (unit : UInt16) : Utf16 :=
  ⟨text.units.rightpad width unit⟩

def ofNat (number : ℕ) : Utf16 :=
  ofString (toString number)

/-- The hexadecimal digits of a number, letters in upper case. -/
def ofNatHex (number : ℕ) : Utf16 :=
  ofString (String.ofList ((Nat.toDigits 16 number).map Char.toUpper))

def includes (text keyword : Utf16) : Bool :=
  decide (keyword.units <:+: text.units)

/-- The place of the last occurrence of a code unit. -/
def lastIndexOf (text : Utf16) (unit : UInt16) : Option ℕ :=
  (text.units.reverse.idxOf? unit).map (text.length - 1 - ·)

def lowerUnit (unit : UInt16) : UInt16 :=
  if 0x41 ≤ unit ∧ unit ≤ 0x5A then unit + 0x20 else unit

/-- In texts beyond ASCII the case mapping of Unicode, which is a parameter,
is applied. -/
def toLowerCase (unicode : Utf16 → Utf16) (text : Utf16) : Utf16 :=
  if text.units.all (· < 0x80) then ⟨text.units.map lowerUnit⟩
  else unicode text

def upperUnit (unit : UInt16) : UInt16 :=
  if 0x61 ≤ unit ∧ unit ≤ 0x7A then unit - 0x20 else unit

def toUpperCase (unicode : Utf16 → Utf16) (text : Utf16) : Utf16 :=
  if text.units.all (· < 0x80) then ⟨text.units.map upperUnit⟩
  else unicode text

end Utf16

end SoulonWallet
