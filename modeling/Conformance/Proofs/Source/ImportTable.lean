import Conformance.Proofs.Source.Imports

/-!
# `Proofs.Source.ImportTable`: the imports behind a statement

What an import statement does to the table of imports, key by key: the names that it gives to classes lead
to their targets, and every other key keeps its value. Marked entries of a group are no imports of classes,
but the reader enters them all the same, under names that begin with the mark or stand behind `as`. These
are the `strays` of the statement; `lookup_imports` speaks about all keys except those.
-/

namespace Conformance
namespace Source

namespace ImportStatement

/-- The names that marked entries get among the imports of classes. -/
def strays : ImportStatement → List Identifier
  | group _ _ _ entries _ _ => (entries.all.filter (·.mark.isSome)).map fun e => e.asRead.name
  | _ => []

end ImportStatement

/-- An entry without a mark is read as it is. -/
theorem GroupEntry.asRead_of_unmarked {e : GroupEntry} (h : e.mark.isNone = true) : e.asRead = e.entry := by
  unfold asRead
  rw [Option.isNone_iff_eq_none.1 h]

/-- Entries whose key is not the one that is looked for play no part. -/
theorem lookup_filter {α : Type} {row : α → String × String} {keep : α → Bool} {key : String}
    {as : List α}
    (h : ∀ a ∈ as, keep a = false → (row a).1 ≠ key) :
    ((as.filter keep).map row).lookup key = (as.map row).lookup key := by
  induction as with
  | nil => rfl
  | cons a as ih =>
    have hrest := ih fun b hb => h b (List.mem_cons_of_mem a hb)
    rw [List.map_cons, List.lookup_cons]
    cases hkeep : keep a with
    | true => rw [List.filter_cons_of_pos hkeep, List.map_cons, List.lookup_cons, hrest]
    | false =>
      have hkey : (key == (row a).1) = false :=
        beq_eq_false_iff_ne.2 (Ne.symm (h a List.mem_cons_self hkeep))
      rw [List.filter_cons_of_neg (by rw [hkeep]; exact Bool.false_ne_true), hrest, hkey]

/-- **What is read is what is imported**, except under the names of strays. -/
theorem ImportStatement.lookup_read (u : ImportStatement) {key : String}
    (hkey : ∀ i ∈ u.strays, Text.foldCase i.text ≠ key) :
    (importTable u.read.reverse).lookup key = (importTable u.imports.reverse).lookup key := by
  cases u with
  | other => rfl
  | list => rfl
  | group use rooted common entries trailingComma hfirst =>
    -- both tables have the same row for an entry, so they differ by the filter only
    let row (e : GroupEntry) : String × String :=
      (Text.foldCase e.asRead.name.text, joined (common.parts ++ e.asRead.target.parts))
    have hread : importTable (entries.all.map fun e => e.asRead.imported common.parts).reverse
        = entries.all.reverse.map row := by
      rw [importTable, ← List.map_reverse, List.map_map]
      rfl
    have himports : importTable ((entries.all.filter (·.mark.isNone)).map fun e =>
        e.entry.imported common.parts).reverse = (entries.all.reverse.filter (·.mark.isNone)).map row := by
      rw [importTable, ← List.map_reverse, List.map_map, List.filter_reverse]
      apply List.map_congr_left
      intro e he
      have hunmarked := (List.mem_filter.1 (List.mem_reverse.1 he)).2
      unfold row
      rw [GroupEntry.asRead_of_unmarked hunmarked]
      rfl
    unfold read imports
    dsimp only
    rw [hread, himports, lookup_filter]
    intro e he hmark
    apply hkey
    unfold strays
    refine List.mem_map.2 ⟨e, List.mem_filter.2 ⟨List.mem_reverse.1 he, ?_⟩, rfl⟩
    simpa using hmark

namespace Reader

/-- **What an import statement does.** Let the reader rest at declaration scope, with any imports, before the
tokens of a statement, perhaps with trivia among them, and what ends it. Behind them it rests again, with
what was read in front of its imports. A key that is no stray leads to the target of the last class with
this name in the statement, and where the statement imports no class under the name, to the same target as
before. -/
theorem lookup_imports {r : Reader} {p : Option Token} {u : ImportStatement} {ts : List Token} {stop : Token}
    (hidle : r.phase = .idle) (hscope : r.atDeclarationScope = true)
    (hts : (ts.filter (!·.isTrivia)).map Token.unplaced = u.tokens.map Token.unplaced)
    (hstop : stop.endsStatement = true) :
    let r' := walk none r p (ts.filter (!·.isTrivia) ++ [stop])
    r' = { r with pending := {}, imports := importTable u.read.reverse ++ r.imports }
      ∧ ∀ key, (∀ i ∈ u.strays, Text.foldCase i.text ≠ key) →
        r'.imports.lookup key
          = ((importTable u.imports.reverse).lookup key).or (r.imports.lookup key) := by
  intro r'
  have hwalk : r' = { r with pending := {} }.withImports u.read.reverse := by
    unfold r'
    rw [← walk_unplaced, List.map_append, hts, ← List.map_append, walk_unplaced]
    exact walk_statement hidle (atDeclarationScope_iff.1 hscope) u hstop
  rw [hwalk]
  refine ⟨rfl, ?_⟩
  intro key hkey
  show (importTable u.read.reverse ++ r.imports).lookup key = _
  rw [List.lookup_append, u.lookup_read hkey]

/-- The prefix `Shop` with two classes, one of them renamed, a function and a constant. -/
def mixedGroup : ImportStatement :=
  .group { text := "USE" } true { first := { text := "Shop" } }
    { first := { entry := { target := { first := { text := "Order" } } } }
      rest := [
        { mark := some { sort := .function, keyword := {} }
          entry := { target := { first := { text := "helper" } } } },
        { entry := {
            target := { first := { text := "Util" }, rest := [{ text := "Text" }] }
            rename := some ({ text := "AS" }, { text := "T" }) } },
        { mark := some { sort := .const, keyword := {} }
          entry := { target := { first := { text := "LIMIT" } } } }] }
    true (Or.inl rfl)

/-- The classes of the group are imported, and an older import under another name stays. -/
theorem lookup_imports_of_mixedGroup :
    let r : Reader := { file := "a.php", imports := [("t", "Old\\T"), ("name", "Old\\Name")] }
    let r' := walk none r none (mixedGroup.tokens.filter (!·.isTrivia) ++ [Token.ofMark ';'])
    r.phase = .idle ∧ r.atDeclarationScope = true
      ∧ (mixedGroup.tokens.filter (!·.isTrivia)).map Token.unplaced = mixedGroup.tokens.map Token.unplaced
      ∧ (Token.ofMark ';').endsStatement = true
      ∧ r'.imports.lookup "order" = some "Shop\\Order" ∧ r'.imports.lookup "t" = some "Shop\\Util\\Text"
      ∧ r'.imports.lookup "name" = some "Old\\Name" := by
  intro r r'
  have hts : (mixedGroup.tokens.filter (!·.isTrivia)).map Token.unplaced
      = mixedGroup.tokens.map Token.unplaced := by decide +kernel
  have hkey := (@lookup_imports r none mixedGroup mixedGroup.tokens (Token.ofMark ';') rfl rfl hts rfl).2
  refine ⟨rfl, rfl, hts, rfl, ?_, ?_, ?_⟩
  · exact (hkey "order" (by decide +kernel)).trans (by decide +kernel)
  · exact (hkey "t" (by decide +kernel)).trans (by decide +kernel)
  · exact (hkey "name" (by decide +kernel)).trans (by decide +kernel)

/-- A function of the prefix `Shop` that gets the name `Order`. -/
def renamedFunction : ImportStatement :=
  .group { text := "Use" } false { first := { text := "Shop" } }
    { first := {
        mark := some { sort := .function, keyword := {} }
        entry := {
          target := { first := { text := "make" } }
          rename := some ({ text := "AS" }, { text := "Order" }) } } }
    false (Or.inr rfl)

/-- The statement imports no class, and yet the class `Order` is taken for another one. -/
theorem marked_entry_enters_table :
    renamedFunction.imports = []
      ∧ (walk none { file := "a.php" } none
          (renamedFunction.tokens ++ [Token.ofMark ';'])).imports.lookup "order" = some "Shop\\functionmake"
      ∧ (Outline.ofSource "a.php"
          "<?php use Shop\\\x7bfunction make as Order\x7d; class User extends Order \x7b\x7d").toOption.map
            (·.types.map (·.parent)) = some [some "Shop\\functionmake"] := by
  decide +kernel

end Reader
end Source
end Conformance
