import Conformance.Files.Path

/-!
# `Files.Tree`: files and directories as a value

The files that the program sees are one value: a tree of directories and the directory it works
in. Looking at a path and changing what stands there follow the rules of a file system: every
segment but the last has to name a directory, two dots go up, and each way to fail has its cause.
Entries of a directory are kept in the order of their names.

Names are texts. A disk may also hold names that are not UTF-8; reports and the ledger can show such
names only with replacement characters, so that two of them may look alike. There are none here, and
what is said of files under different paths is said of files with names in UTF-8.
-/

namespace Conformance

/-- Why a path cannot be used. -/
inductive FileError where
  | notFound
  | alreadyThere
  | notDirectory
  | isDirectory
  | nameTooLong
  /-- The path holds the character of number zero. -/
  | zeroCharacter
  /-- The content is not UTF-8. -/
  | notText
  deriving DecidableEq, Repr, Inhabited

/-- How the system words the cause. -/
def FileError.message : FileError → String
  | notFound => "No such file or directory (os error 2)"
  | alreadyThere => "File exists (os error 17)"
  | notDirectory => "Not a directory (os error 20)"
  | isDirectory => "Is a directory (os error 21)"
  | nameTooLong => "File name too long (os error 36)"
  | zeroCharacter => "file name contained an unexpected NUL byte"
  | notText => "stream did not contain valid UTF-8"

/-- A file with its content, or a directory with its entries. -/
inductive Tree where
  | file (content : ByteArray)
  | directory (entries : List (String × Tree))
  deriving Inhabited

namespace Tree

/-- Whether the tree is a directory. -/
def isDirectory : Tree → Bool
  | file _ => false
  | directory _ => true

/-- Puts an entry into a directory, in the place of its name. -/
def setEntry (name : String) (t : Tree) : List (String × Tree) → List (String × Tree)
  | [] => [(name, t)]
  | (n, u) :: rest =>
    if name = n then (name, t) :: rest
    else if name < n then (name, t) :: (n, u) :: rest
    else (n, u) :: setEntry name t rest

/-- What stands below a directory under some names. -/
def below? (names : List String) (entries : List (String × Tree)) : Option Tree :=
  match names with
  | [] => some (directory entries)
  | name :: rest =>
    match entries.lookup name with
    | some (directory inner) => below? rest inner
    | some (file content) => if rest.isEmpty then some (file content) else none
    | none => none

/-- Changes the entries of the directory below some names, if there is one. -/
def changeBelow (f : List (String × Tree) → List (String × Tree)) (names : List String)
    (entries : List (String × Tree)) : List (String × Tree) :=
  match names with
  | [] => f entries
  | name :: rest =>
    entries.map fun (n, t) =>
      match t with
      | directory inner => if n = name then (n, directory (changeBelow f rest inner)) else (n, t)
      | file _ => (n, t)

/-- The files of a tree, each with the names that lead to it; `enters` says which directories are
gone into. -/
def files (enters : String → Bool) : Tree → List (List String × ByteArray)
  | file content => [([], content)]
  | directory entries => filesOfAll entries
where
  /-- The files of the entries of a directory. -/
  filesOfAll : List (String × Tree) → List (List String × ByteArray)
    | [] => []
    | (name, t) :: rest =>
      (if t.isDirectory && !enters name then []
        else (t.files enters).map fun (names, content) => (name :: names, content))
        ++ filesOfAll rest

/-- Everything below a tree, a directory before what is in it, each with the names that lead to it.
Directories have no content. -/
def parts : Tree → List (List String × Option ByteArray)
  | file content => [([], some content)]
  | directory entries => ([], none) :: partsOfAll entries
where
  /-- Everything below the entries of a directory. -/
  partsOfAll : List (String × Tree) → List (List String × Option ByteArray)
    | [] => []
    | (name, t) :: rest =>
      t.parts.map (fun (names, content) => (name :: names, content)) ++ partsOfAll rest

end Tree

/-- All files, and the names that lead to the directory that relative paths start from. -/
structure FileSystem where
  root : List (String × Tree) := []
  workingDirectory : List String := []
  deriving Inhabited

namespace FileSystem

/-! ## Looking up paths -/

/-- Names of files are not longer than this many bytes. -/
def maxName : Nat := 255

/-- Paths are not longer than this many bytes. -/
def maxPath : Nat := 4095

/-- What stands at a place, given by the names from the root. -/
def nodeAt? (fs : FileSystem) (place : List String) : Option Tree :=
  Tree.below? place fs.root

/-- Goes on by one segment from a place. -/
def enter (fs : FileSystem) (place : List String) (segment : String) :
    Except FileError (List String) :=
  match fs.nodeAt? place with
  | some (.directory entries) =>
    if segment.isEmpty || segment == "." then .ok place
    else if segment == ".." then .ok place.dropLast
    else if maxName < segment.utf8ByteSize then .error .nameTooLong
    else if (entries.lookup segment).isSome then .ok (place ++ [segment])
    else .error .notFound
  | some (.file _) => .error .notDirectory
  | none => .error .notFound

/-- Goes on by some segments from a place. -/
def enterAll (fs : FileSystem) (place : List String) :
    List String → Except FileError (List String)
  | [] => .ok place
  | s :: rest =>
    match fs.enter place s with
    | .ok place => fs.enterAll place rest
    | .error e => .error e

/-- What keeps a text from being a path at all. -/
def checkPath (p : Path) : Except FileError Unit :=
  if p.text.toList.contains '\x00' then .error .zeroCharacter
  else if p.text.isEmpty then .error .notFound
  else if maxPath < p.text.utf8ByteSize then .error .nameTooLong
  else .ok ()

/-- The place that a path starts from. -/
def startOf (fs : FileSystem) (p : Path) : List String :=
  if p.isAbsolute then [] else fs.workingDirectory

/-- The place that a path leads to, by names from the root without dots. -/
def locate (fs : FileSystem) (p : Path) : Except FileError (List String) := do
  checkPath p
  fs.enterAll (fs.startOf p) p.segments

/-- The absolute path of a place. -/
def absolute (place : List String) : Path := ⟨"/" ++ Path.slashed place⟩

/-- What a path leads to. -/
def node (fs : FileSystem) (p : Path) : Except FileError Tree := do
  let place ← fs.locate p
  match fs.nodeAt? place with
  | some t => pure t
  | none => throw .notFound

/-- The tree at a path, if there is one. -/
def node? (fs : FileSystem) (p : Path) : Option Tree := (fs.node p).toOption

/-- Whether anything stands at a path. -/
def has (fs : FileSystem) (p : Path) : Bool := (fs.node? p).isSome

/-- Whether a directory stands at a path. -/
def isDirectory (fs : FileSystem) (p : Path) : Bool := (fs.node? p).any Tree.isDirectory

/-- Whether a file stands at a path. -/
def isFile (fs : FileSystem) (p : Path) : Bool := (fs.node? p).any (!·.isDirectory)

/-- The absolute path without dots that leads to the same place. -/
def canonical (fs : FileSystem) (p : Path) : Except FileError Path :=
  (fs.locate p).map absolute

/-- The text in a file. -/
def readText (fs : FileSystem) (p : Path) : Except FileError String := do
  match ← fs.node p with
  | .directory _ => throw .isDirectory
  | .file content =>
    match String.fromUTF8? content with
    | some text => pure text
    | none => throw .notText

/-! ## Changes -/

/-- Puts a tree into the directory at a place. -/
def put (fs : FileSystem) (place : List String) (name : String) (t : Tree) : FileSystem :=
  { fs with root := Tree.changeBelow (Tree.setEntry name t) place fs.root }

/-- The entries of the directory that some segments lead to. -/
def directoryAt (fs : FileSystem) (p : Path) (segments : List String) :
    Except FileError (List String × List (String × Tree)) := do
  let place ← fs.enterAll (fs.startOf p) segments
  match fs.nodeAt? place with
  | some (.directory entries) => pure (place, entries)
  | some (.file _) => throw .notDirectory
  | none => throw .notFound

/-- Creates a directory. The one it goes into has to be there, and nothing in its place. -/
def createDirectory (fs : FileSystem) (p : Path) : Except FileError FileSystem := do
  checkPath p
  match p.segments.reverse.dropWhile String.isEmpty with
  | [] => throw .alreadyThere
  | last :: before =>
    let (place, entries) ← fs.directoryAt p before.reverse
    if last == "." || last == ".." then throw .alreadyThere
    if maxName < last.utf8ByteSize then throw .nameTooLong
    if (entries.lookup last).isSome then throw .alreadyThere
    pure (fs.put place last (.directory []))

/-- What came of a change that may fail halfway. -/
structure Change where
  files : FileSystem
  result : Except FileError Unit

/-- Finds which of some ancestors, nearest first, are missing. Directories that are there end the
search, and creating one that is not may show that its own parent is missing. -/
def createMissing (fs : FileSystem) (missing : List Path) : List Path → Change × List Path
  | [] => (⟨fs, .ok ()⟩, missing)
  | p :: rest =>
    if p.text.isEmpty then (⟨fs, .ok ()⟩, missing)
    else
      match fs.createDirectory p with
      | .ok fs => (⟨fs, .ok ()⟩, missing)
      | .error .notFound => fs.createMissing (p :: missing) rest
      | .error e =>
        if e = .alreadyThere ∧ fs.isDirectory p then (⟨fs, .ok ()⟩, missing)
        else (⟨fs, .error e⟩, missing)

/-- Creates directories, each inside one that was there or comes before it. -/
def createInOrder (fs : FileSystem) : List Path → Change
  | [] => ⟨fs, .ok ()⟩
  | p :: rest =>
    match fs.createDirectory p with
    | .ok fs => fs.createInOrder rest
    | .error e =>
      if e = .alreadyThere ∧ fs.isDirectory p then fs.createInOrder rest else ⟨fs, .error e⟩

/-- Creates a directory with all its missing ancestors. -/
def createDirectories (fs : FileSystem) (p : Path) : Change :=
  match fs.createMissing [] p.ancestors with
  | (⟨fs, .ok ()⟩, missing) => fs.createInOrder missing
  | (failed, _) => failed

/-- Writes a file, which is created if it is not there. A path with a slash at its end cannot lead
to a file. -/
def writeFile (fs : FileSystem) (p : Path) (content : ByteArray) :
    Except FileError FileSystem := do
  checkPath p
  let reversed := p.segments.reverse
  match reversed.dropWhile String.isEmpty with
  | [] => throw .isDirectory
  | last :: before =>
    let (place, entries) ← fs.directoryAt p before.reverse
    if reversed.head? == some "" || last == "." || last == ".." then throw .isDirectory
    if maxName < last.utf8ByteSize then throw .nameTooLong
    match entries.lookup last with
    | some (.directory _) => throw .isDirectory
    | _ => pure (fs.put place last (.file content))

/-- Writes a text to a file, which is created if it is not there. -/
def writeText (fs : FileSystem) (p : Path) (text : String) : Except FileError FileSystem :=
  fs.writeFile p text.toUTF8

end FileSystem
end Conformance
