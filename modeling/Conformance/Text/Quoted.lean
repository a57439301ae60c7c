import Conformance.Unicode.GeneralCategory

/-!
# `Text.Quoted`: texts in quotes, as messages show them

Messages quote names and patterns so that every character of them can be seen. Quotes and
backslashes are escaped, and so is all that leaves no mark of its own on paper.
-/

namespace Conformance
namespace Text

/-- A number in hexadecimal, without zeros in front. -/
def hexText (n : Nat) : String :=
  String.ofList (Nat.toDigits 16 n)

/-- How a character stands between quotes. -/
def quoteChar (c : Char) : String :=
  if c == '"' then "\\\""
  else if c == '\\' then "\\\\"
  else if c == '\n' then "\\n"
  else if c == '\t' then "\\t"
  else if c == '\r' then "\\r"
  else if c.toNat == 0 then "\\0"
  else if Unicode.isPrintable c && !Unicode.isGraphemeExtend c then String.singleton c
  else "\\u\x7b" ++ hexText c.toNat ++ "\x7d"

/-- The text in double quotes. -/
def quote (s : String) : String :=
  "\"" ++ String.join (s.toList.map quoteChar) ++ "\""

/-- How a character of a path stands between quotes: single quotes are escaped as well. -/
def quotePathChar (c : Char) : String :=
  if c == '\'' then "\\'" else quoteChar c

/-- The path in double quotes. -/
def quotePath (path : String) : String :=
  "\"" ++ String.join (path.toList.map quotePathChar) ++ "\""

end Text
end Conformance
