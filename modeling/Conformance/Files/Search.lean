import Conformance.Files.Tree
import Conformance.Glob.Basic
import Conformance.Text.Ascii

/-!
# `Files.Search`: the source files below a root

A search goes through a directory in the order of names and gives the files with one of the wanted
extensions, unless a path pattern excludes them. Hidden directories and those of installed packages
are not gone into. A root that is a file itself is given if its extension is wanted.
-/

namespace Conformance

/-- A file that was found, with the path that leads to it. -/
structure SourceFile where
  path : Path
  content : ByteArray
  deriving Inhabited

/-- The content as a text, if it is one. -/
def SourceFile.text? (f : SourceFile) : Option String :=
  String.fromUTF8? f.content

/-- Which files are sources. -/
structure Search where
  /-- The extensions without the dot; the case of ASCII letters does not matter. -/
  extensions : List String := ["php"]
  excluded : List Glob := []
  deriving Inhabited

namespace Search

/-- Directories of installed packages. -/
def packageDirectories : List String := ["vendor", "node_modules"]

/-- Whether a directory below a root is gone into. -/
def enters (name : String) : Bool :=
  name.toList.head? != some '.' && !packageDirectories.contains name

/-- Whether the extension of a path is wanted. -/
def wants (s : Search) (p : Path) : Bool :=
  s.extensions.any (Text.sameFolded · p.extension)

/-- Whether a pattern fits the path of a file, in full or as seen from the root. -/
def excludes (s : Search) (p : Path) (fromRoot : String) : Bool :=
  s.excluded.any (·.fits p.text) || s.excluded.any (·.fits fromRoot)

/-- The sources in a tree that stands at a root. -/
def filesIn (s : Search) (root : Path) (t : Tree) : List SourceFile :=
  (t.files enters).filterMap fun (names, content) =>
    let fromRoot := Path.slashed names
    let path := root.join fromRoot
    if s.wants path && !s.excludes path fromRoot then some { path, content } else none

/-- The sources at or below a root. Where nothing stands there are none. -/
def filesAt (s : Search) (fs : FileSystem) (root : Path) : List SourceFile :=
  match fs.node? root with
  | some (.file content) => if s.wants root then [{ path := root, content }] else []
  | some (.directory entries) => s.filesIn root (.directory entries)
  | none => []

/-- The sources at or below some roots, root by root. -/
def files (s : Search) (fs : FileSystem) (roots : List Path) : List SourceFile :=
  roots.flatMap (s.filesAt fs)

end Search
end Conformance
