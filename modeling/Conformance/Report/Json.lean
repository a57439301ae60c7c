import Conformance.Decimal.Layout
import Conformance.Text.Ascii

/-!
# `Report.Json`: JSON values and how they are printed

A value is printed over several lines, each level of it two columns further to the right. Lists and
records without content take no line of their own. Numbers that are not finite have no JSON form and
are printed as nothing.
-/

namespace Conformance

/-- A JSON value. Records keep the order of their fields. -/
inductive Json where
  | null
  | bool (b : Bool)
  | count (n : Nat)
  | number (x : Float)
  | text (s : String)
  | list (items : List Json)
  | record (fields : List (String × Json))
  deriving Inhabited

namespace Json

/-! ## Texts -/

/-- A number in hexadecimal with four digits. -/
def fourDigits (n : Nat) : String :=
  let digits := Nat.toDigits 16 n
  String.ofList (List.replicate (4 - digits.length) '0' ++ digits)

/-- How a character stands in a text. -/
def escapeChar (c : Char) : String :=
  if c == '"' then "\\\""
  else if c == '\\' then "\\\\"
  else if c == '\n' then "\\n"
  else if c == '\r' then "\\r"
  else if c == '\t' then "\\t"
  else if c == '\x08' then "\\b"
  else if c == '\x0c' then "\\f"
  else if c.toNat < 0x20 then "\\u" ++ fourDigits c.toNat
  else String.singleton c

/-- A text in quotes. -/
def quote (s : String) : String :=
  "\"" ++ String.join (s.toList.map escapeChar) ++ "\""

/-! ## Values -/

/-- A new line at a level. -/
def newLine (level : Nat) : String :=
  "\n" ++ String.ofList (List.replicate (2 * level) ' ')

/-- Puts items between brackets, each on a line of its own. -/
def bracket (opening closing : String) (level : Nat) (items : List String) : String :=
  if items.isEmpty then opening ++ closing
  else
    opening ++ newLine (level + 1) ++ String.intercalate ("," ++ newLine (level + 1)) items
      ++ newLine level ++ closing

/-- Prints a number. -/
def numberText (x : Float) : String :=
  if x.isFinite then Decimal.Layout.report.write x else "null"

/-- Prints a value that stands at a level. -/
def print (level : Nat) : Json → String
  | null => "null"
  | bool b => if b then "true" else "false"
  | count n => toString n
  | number x => numberText x
  | text s => quote s
  | list items => bracket "[" "]" level (printItems (level + 1) items)
  | record fields => bracket "\x7b" "\x7d" level (printFields (level + 1) fields)
where
  /-- Prints the items of a list. -/
  printItems (level : Nat) : List Json → List String
    | [] => []
    | v :: rest => v.print level :: printItems level rest
  /-- Prints the fields of a record. -/
  printFields (level : Nat) : List (String × Json) → List String
    | [] => []
    | (name, v) :: rest => (quote name ++ ": " ++ v.print level) :: printFields level rest

end Json
end Conformance
