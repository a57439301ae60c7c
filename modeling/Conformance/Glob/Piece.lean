/-!
# `Glob.Piece`: the grammar of path patterns

A path pattern is a list of pieces. Stars take any characters, separators included. Two stars that
stand between separators, or between a separator and an end, take whole directories; anywhere else
they are two single stars. Braces list alternatives, which may themselves hold braces.

The reader goes through the text once. It keeps the pieces of the current alternative and a stack
of the braces that are open, and remembers the last character that was taken, because the meaning
of two stars depends on what stands before them.
-/

namespace Conformance
namespace Glob

/-- Why a text is no path pattern. -/
inductive Fault where
  | unclosedClass
  | rangeOutOfOrder
  | unopenedBrace
  | unclosedBrace
  | danglingEscape
  deriving DecidableEq, Repr, Inhabited

/-- All reasons are reported alike. -/
def Fault.message (_ : Fault) : String := "glob error"

/-- A piece of a path pattern. -/
inductive Piece where
  | literal (c : Char)
  /-- One byte of a path. -/
  | any
  /-- Anything. -/
  | star
  /-- Any leading directories. -/
  | leading
  /-- Anything below a directory. -/
  | trailing
  /-- Any directories between two separators. -/
  | between
  | set (negated : Bool) (ranges : List (Char × Char))
  | alternatives (branches : List (List Piece))
  deriving Repr, Inhabited

/-- Stands between the components of a path. -/
def separator : Char := '/'

/-- A reading in progress. -/
structure Progress where
  /-- The pieces of the current alternative, the latest one first. -/
  current : List Piece := []
  /-- For each open brace, its finished alternatives and the pieces before it, latest first. -/
  stack : List (List (List Piece) × List Piece) := []
  /-- The last character that was taken. -/
  last : Option Char := none
  deriving Repr, Inhabited

namespace Progress

/-- Adds a piece. -/
def push (p : Progress) (piece : Piece) : Progress :=
  { p with current := piece :: p.current }

/-- The same reading after the character `c` was taken. -/
def after (p : Progress) (c : Char) : Progress := { p with last := some c }

/-! ## Stars -/

/-- What follows two stars, as far as it decides what they mean. -/
inductive Following where
  | ending
  | directory (rest : List Char)
  | other

/-- What stands behind two stars: an end, which inside braces may be the end of an alternative, a
separator, or anything else. -/
def following (p : Progress) : List Char → Following
  | [] => .ending
  | c :: cs =>
    if c == separator then .directory cs
    else if !p.stack.isEmpty && (c == ',' || c == '\x7d') then .ending
    else .other

/-- Puts two stars that take whole directories in place of the piece before them. -/
def replaceLast (p : Progress) (piece : Piece) : Progress :=
  match p.current with
  | .leading :: _ | .trailing :: _ => p
  | _ :: rest => { p with current := piece :: rest }
  | [] => p

/-- Reads two stars; `before` is the character in front of them. -/
def twoStars (p : Progress) (before : Option Char) (cs : List Char) : Progress × List Char :=
  let single := (p.push .star).push .star
  if p.current.isEmpty then
    match cs with
    | [] => (p.push .leading, [])
    | c :: rest =>
      if c == separator then ((p.push .leading).after c, rest) else (single, cs)
  else
    let afterSeparator := before == some separator
    let atBranchStart := !p.stack.isEmpty && (before == some ',' || before == some '\x7b')
    if !afterSeparator && !atBranchStart then (single, cs)
    else
      match p.following cs with
      | .ending => (p.replaceLast .trailing, cs)
      | .directory rest => ((p.replaceLast .between).after separator, rest)
      | .other => (single, cs)

/-! ## Classes -/

/-- The members of a class that are being read. -/
structure Members where
  /-- The ranges, the latest one first. -/
  ranges : List (Char × Char) := []
  /-- A hyphen was read that may go on to a range. -/
  inRange : Bool := false

/-- Reads a class behind its opening bracket and its negation. A closing bracket or a hyphen at
the start stands for itself, and so does a hyphen at the end. -/
def classMembers (isFirst : Bool) (m : Members) :
    List Char → Except Fault (List (Char × Char) × List Char)
  | [] => .error .unclosedClass
  | c :: cs =>
    if c == ']' && !isFirst then
      .ok ((if m.inRange then ('-', '-') :: m.ranges else m.ranges).reverse, cs)
    else if c == '-' && !isFirst && !m.inRange then
      classMembers false { m with inRange := true } cs
    else
      match m.inRange, m.ranges with
      | true, (first, _) :: ranges =>
        if c < first then .error .rangeOutOfOrder
        else classMembers false { ranges := (first, c) :: ranges } cs
      | _, ranges => classMembers false { ranges := (c, c) :: ranges } cs

/-- Reads a class behind its opening bracket. -/
def class? (p : Progress) (cs : List Char) : Except Fault (Progress × List Char) := do
  let negated := cs.head? == some '!' || cs.head? == some '^'
  let (ranges, rest) ← classMembers true {} (if negated then cs.drop 1 else cs)
  pure ((p.push (.set negated ranges)).after ']', rest)

/-! ## Steps -/

/-- Closes the innermost brace. -/
def closeBrace (p : Progress) : Except Fault Progress :=
  match p.stack with
  | [] => .error .unopenedBrace
  | (branches, outer) :: stack =>
    .ok { p with
      current := .alternatives ((p.current.reverse :: branches).reverse) :: outer
      stack }

/-- Reads the next piece behind its first character `c`. -/
def step (p : Progress) (c : Char) (cs : List Char) : Except Fault (Progress × List Char) :=
  let before := p.last
  let p := p.after c
  match c with
  | '?' => .ok (p.push .any, cs)
  | '*' =>
    match cs with
    | '*' :: cs => .ok (p.twoStars before cs)
    | cs => .ok (p.push .star, cs)
  | '[' => p.class? cs
  | '\x7b' => .ok ({ p with current := [], stack := ([], p.current) :: p.stack }, cs)
  | '\x7d' => p.closeBrace.map (·, cs)
  | ',' =>
    match p.stack with
    | [] => .ok (p.push (.literal ','), cs)
    | (branches, outer) :: stack =>
      .ok ({ p with current := [], stack := (p.current.reverse :: branches, outer) :: stack }, cs)
  | '\\' =>
    match cs with
    | [] => .error .danglingEscape
    | c :: cs => .ok ((p.push (.literal c)).after c, cs)
  | c => .ok (p.push (.literal c), cs)

/-- Reads all pieces. Every step takes a character, so their number bounds the steps. -/
def run : Nat → Progress → List Char → Except Fault Progress
  | _, p, [] => .ok p
  | 0, p, _ => .ok p
  | fuel + 1, p, c :: cs => do
    let (p, rest) ← p.step c cs
    run fuel p rest

end Progress

/-- Reads a path pattern. -/
def pieces (text : String) : Except Fault (List Piece) := do
  let cs := text.toList
  let p ← Progress.run cs.length {} cs
  if p.stack.isEmpty then pure p.current.reverse else throw .unclosedBrace

end Glob
end Conformance
