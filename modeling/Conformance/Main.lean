import Conformance.Command.Run

/-!
# `Main`: the program

The files that a command may look at are read first, the command runs on them as a value, and what
it has added is written back.
-/

namespace Conformance
namespace Program

/-- Reads a file or a directory with everything in it. What cannot be read is left out. -/
partial def loadTree (path : String) : IO (Option Tree) := do
  try
    let place ← IO.FS.realPath path
    if ← place.isDir then
      let mut entries : List (String × Tree) := []
      for entry in ← place.readDir do
        if let some t ← loadTree entry.path.toString then
          entries := Tree.setEntry entry.fileName t entries
      return some (.directory entries)
    else
      return some (.file (← IO.FS.readBinFile place))
  catch _ => return none

/-- The entries of a directory that lead to a tree at some place. -/
def graft : List String → Tree → List (String × Tree) → List (String × Tree)
  | [], .directory inner, _ => inner
  | [], .file _, entries => entries
  | [name], t, entries => Tree.setEntry name t entries
  | name :: rest, t, entries =>
    let inner := match entries.lookup name with
      | some (.directory inner) => inner
      | _ => []
    Tree.setEntry name (.directory (graft rest t inner)) entries

/-- Reads what stands at one of some absolute paths, the first at which anything does. -/
def loadFirst (fs : FileSystem) : List Path → IO FileSystem
  | [] => return fs
  | p :: rest => do
    match ← loadTree p.text with
    | some t =>
      let names := p.segments.filter fun s => !s.isEmpty && s != "."
      return { fs with root := graft names t fs.root }
    | none => loadFirst fs rest

/-- Reads the working directory, and what the given paths lead to. -/
def loadFiles (paths : List String) : IO FileSystem := do
  let here : Path := ⟨(← IO.FS.realPath ".").toString⟩
  let start : FileSystem :=
    { workingDirectory := here.segments.filter (fun s => !s.isEmpty) }
  let mut fs ← loadFirst start [here]
  for p in paths do
    if (⟨p⟩ : Path).isAbsolute then
      fs ← loadFirst fs (Path.ancestors ⟨p⟩)
  return fs

/-- Writes what a command has added. -/
def saveAdditions (before after : FileSystem) : IO Unit := do
  for (names, content) in (Tree.directory after.root).parts do
    if (before.nodeAt? names).isNone then
      let path := (FileSystem.absolute names).text
      match content with
      | some bytes => IO.FS.writeBinFile path bytes
      | none => IO.FS.createDirAll path

/-- Prints the response of a command and gives its exit code. -/
def respond (r : Command.Response) : IO UInt32 := do
  IO.print r.output
  IO.eprint r.errors
  return r.exitCode.toUInt32

/-- How the program is used. -/
def usage : String :=
  "Usage: archcheck check [PATH] [--contract FILE] [--format FORMAT] [--min-coverage PERCENT]\n"
    ++ "       archcheck init [--output FILE] [--template NAME] [--list]\n"

end Program
end Conformance

open Conformance in
/-- Runs the command that the arguments ask for. -/
def main (args : List String) : IO UInt32 := do
  match Command.Request.ofArguments args with
  | .information =>
    IO.print ("archcheck " ++ programVersion ++ "\n" ++ Program.usage)
    return 0
  | .misuse =>
    IO.eprint Program.usage
    return 2
  | .check a =>
    let fs ← Program.loadFiles (a.path :: a.contract.toList)
    let colored ← (← IO.getStdout).isTty
    Program.respond (Command.runCheck colored fs a)
  | .init a =>
    let fs ← Program.loadFiles [a.output]
    let (after, response) := Command.runInit fs a
    Program.saveAdditions fs after
    Program.respond response
