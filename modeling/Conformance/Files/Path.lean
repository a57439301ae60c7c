/-!
# `Files.Path`: paths as texts

A path is kept as the text it was given as, because reports show it so. A slash stands between its
segments; empty segments and single dots mean nothing, except a dot that comes first. A path that
starts with a slash is absolute. Paths are taken to be UTF-8, so the text of a path is the path itself:
where the text is a key, files under different paths have different keys.
-/

namespace Conformance

/-- A path, as it was written. -/
structure Path where
  text : String
  deriving DecidableEq, Repr, Inhabited

namespace Path

/-- The texts between the slashes of a text; at least one. -/
def splitSlashes : List Char → List (List Char)
  | [] => [[]]
  | '/' :: cs => [] :: splitSlashes cs
  | c :: cs =>
    match splitSlashes cs with
    | [] => [[c]]
    | segment :: rest => (c :: segment) :: rest

/-- Whether the path starts at the root of all files. -/
def isAbsolute (p : Path) : Bool := p.text.toList.head? == some '/'

/-- The texts between slashes, without the slash that makes a path absolute. -/
def segments (p : Path) : List String :=
  (splitSlashes (if p.isAbsolute then p.text.toList.drop 1 else p.text.toList)).map String.ofList

/-- The path `q` seen from the directory `p`: an absolute path stays as it is. -/
def join (p : Path) (q : String) : Path :=
  if (⟨q⟩ : Path).isAbsolute then ⟨q⟩
  else if p.text.isEmpty || p.text.toList.getLast? == some '/' then ⟨p.text ++ q⟩
  else ⟨p.text ++ "/" ++ q⟩

/-- Joins segments by slashes. -/
def slashed (segments : List String) : String := String.intercalate "/" segments

/-! ## The last segment -/

/-- Removes segments that mean nothing from the end of a list that has the last segment first. A
dot that is the first segment of a relative path means something. -/
def trimReversed (absolute : Bool) : List String → List String
  | [] => []
  | s :: rest =>
    if s.isEmpty then trimReversed absolute rest
    else if s == "." && (absolute || !rest.isEmpty) then trimReversed absolute rest
    else s :: rest

/-- The segments up to the last one that means something, that one first. -/
def reversedSegments (p : Path) : List String :=
  trimReversed p.isAbsolute p.segments.reverse

/-- The path without its last segment, as it was written; `none` for an empty path and a root. -/
def parent? (p : Path) : Option Path :=
  match p.reversedSegments with
  | [] => none
  | _ :: rest =>
    let text := slashed (trimReversed p.isAbsolute rest).reverse
    some ⟨if p.isAbsolute then "/" ++ text else text⟩

/-- The path, its parent, the parent of that and so on. -/
def ancestorsUpTo : Nat → Path → List Path
  | 0, p => [p]
  | fuel + 1, p =>
    match p.parent? with
    | some q => p :: ancestorsUpTo fuel q
    | none => [p]

/-- The path, its parent, the parent of that and so on. -/
def ancestors (p : Path) : List Path := ancestorsUpTo p.text.length p

/-- The name of the file or directory that the path ends with. -/
def fileName? (p : Path) : Option String :=
  match p.reversedSegments with
  | [] => none
  | s :: _ => if s == "." || s == ".." then none else some s

/-- The text behind the last dot of a name; empty when there is none, or none but at the start. -/
def extensionOf (name : String) : String :=
  let cs := name.toList.reverse
  let ending := cs.takeWhile (· != '.')
  if (cs.drop ending.length).length ≤ 1 then "" else String.ofList ending.reverse

/-- The extension of the file name. -/
def extension (p : Path) : String := (p.fileName?.map extensionOf).getD ""

end Path
end Conformance
