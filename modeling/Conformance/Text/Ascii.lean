/-!
# `Text.Ascii`: comparison that ignores the case of the letters A to Z

Names of types, keywords, methods and file extensions are compared without regard to the case of
ASCII letters. All of it goes through one folded form: two texts agree when their folded forms
are equal, so agreement is an equivalence by construction.
-/

namespace Conformance
namespace Text

/-- Replaces each of the letters `A` to `Z` by its small letter and keeps everything else. -/
def foldCase (s : String) : String :=
  String.ofList (s.toList.map Char.toLower)

/-- Agreement up to the case of ASCII letters. -/
def sameFolded (a b : String) : Bool :=
  foldCase a == foldCase b

/-- Whether `s` begins with `start`, up to the case of ASCII letters. -/
def startsFolded (start s : String) : Bool :=
  (foldCase start).toList.isPrefixOf (foldCase s).toList

theorem sameFolded_iff {a b : String} : sameFolded a b = true ↔ foldCase a = foldCase b := by
  simp [sameFolded]

@[simp] theorem toList_foldCase (s : String) : (foldCase s).toList = s.toList.map Char.toLower := by
  simp [foldCase]

/-! ## Pieces of a text -/

/-- Whether `s` begins with `start`. -/
def startsWith (start s : String) : Bool :=
  start.toList.isPrefixOf s.toList

/-- Whether `s` ends with `ending`. -/
def endsWith (ending s : String) : Bool :=
  ending.toList.isSuffixOf s.toList

/-- The part of `s` before the first line break, without a carriage return at its end. -/
def firstLine (s : String) : String :=
  let line := s.toList.takeWhile (· != '\n')
  let broken := line.length < s.toList.length
  String.ofList (if broken && line.getLast? == some '\r' then line.dropLast else line)

/-- Fills `s` with spaces on the right up to `width` characters. -/
def padRight (width : Nat) (s : String) : String :=
  s ++ String.ofList (List.replicate (width - s.length) ' ')

/-- Fills `s` with spaces on the left up to `width` characters. -/
def padLeft (width : Nat) (s : String) : String :=
  String.ofList (List.replicate (width - s.length) ' ') ++ s

end Text
end Conformance
