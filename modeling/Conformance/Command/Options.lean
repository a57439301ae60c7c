import Conformance.Text.Ascii

/-!
# `Command.Options`: reading options from a command line

Options have a long name behind two dashes and may have a short one of one letter behind a single
dash. Some take a value: behind an equals sign, behind the short name, or as the next argument,
which then must not look like an option. Short names of options without values can be joined.
Arguments are read from left to right, and the first one that asks for information or means nothing
decides.
-/

namespace Conformance
namespace Command

/-- What an option does to the arguments read so far. A change may be refused. -/
inductive Effect (σ : Type) where
  | flag (change : σ → Option σ)
  | value (change : String → σ → Option σ)
  /-- Ends with some information instead of a command. -/
  | information

/-- An option. -/
structure OptionSpec (σ : Type) where
  long : String
  short : Option Char := none
  effect : Effect σ

/-- What comes of reading arguments. -/
inductive Reading (σ : Type) where
  | goesOn (state : σ) (rest : List String)
  | information
  | misuse
  deriving Inhabited

namespace Reading

/-- Goes on with a change unless it is refused. -/
def ofChange {σ : Type} (rest : List String) : Option σ → Reading σ
  | some state => goesOn state rest
  | none => misuse

end Reading

/-- Whether an argument looks like an option. A lone dash does not. -/
def looksLikeOption (arg : String) : Bool :=
  arg.toList.head? == some '-' && arg != "-"

/-- The next argument as a value. -/
def nextValue {σ : Type} (change : String → σ → Option σ) (state : σ) :
    List String → Reading σ
  | [] => .misuse
  | arg :: rest =>
    if looksLikeOption arg then .misuse else .ofChange rest (change arg state)

/-- The text before the first equals sign, and the text behind it if there is one. -/
def splitEquals (cs : List Char) : String × Option String :=
  let name := cs.takeWhile (· != '=')
  let rest := cs.drop name.length
  (String.ofList name, if rest.isEmpty then none else some (String.ofList (rest.drop 1)))

/-- Reads an option by its long name. -/
def readLong {σ : Type} (specs : List (OptionSpec σ)) (state : σ) (cs : List Char)
    (rest : List String) : Reading σ :=
  let (name, value) := splitEquals cs
  match (specs.find? (fun s => s.long == name)).map OptionSpec.effect, value with
  | some (.flag change), none => .ofChange rest (change state)
  | some (.value change), some v => .ofChange rest (change v state)
  | some (.value change), none => nextValue change state rest
  | some .information, none => .information
  | _, _ => .misuse

/-- Reads joined short names. What stands behind one that takes a value is the value. -/
def readShort {σ : Type} (specs : List (OptionSpec σ)) (rest : List String) :
    σ → List Char → Reading σ
  | state, [] => .goesOn state rest
  | state, c :: cs =>
    match (specs.find? (fun s => s.short == some c)).map OptionSpec.effect with
    | some (.flag change) =>
      match change state with
      | some state => readShort specs rest state cs
      | none => .misuse
    | some (.value change) =>
      match cs with
      | [] => nextValue change state rest
      | '=' :: v => .ofChange rest (change (String.ofList v) state)
      | v => .ofChange rest (change (String.ofList v) state)
    | some .information => .information
    | none => .misuse

/-- Reads an argument that looks like an option. -/
def readOption {σ : Type} (specs : List (OptionSpec σ)) (state : σ) (arg : String)
    (rest : List String) : Reading σ :=
  match arg.toList with
  | '-' :: '-' :: cs => readLong specs state cs rest
  | '-' :: cs => readShort specs rest state cs
  | _ => .misuse

/-- Reads all arguments; `operand` takes those that are no options. Behind two dashes none is. -/
def readAll {σ : Type} (specs : List (OptionSpec σ)) (operand : String → σ → Option σ) :
    (fuel : Nat) → (optionsOver : Bool) → σ → List String → Reading σ
  | _, _, state, [] => .goesOn state []
  | 0, _, _, _ :: _ => .misuse
  | fuel + 1, optionsOver, state, arg :: rest =>
    if !optionsOver && arg == "--" then readAll specs operand fuel true state rest
    else if !optionsOver && looksLikeOption arg then
      match readOption specs state arg rest with
      | .goesOn state rest => readAll specs operand fuel false state rest
      | stop => stop
    else
      match operand arg state with
      | some state => readAll specs operand fuel optionsOver state rest
      | none => .misuse

end Command
end Conformance
