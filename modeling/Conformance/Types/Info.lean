import Conformance.Types.Name

/-!
# `Types.Info`: what is known about one type

A `TypeInfo` holds the static facts that rules speak about: the kind of the type, its modifiers,
the names of its direct supertypes and its method signatures. Supertypes are kept as names; the
catalog resolves them where that is needed.
-/

namespace Conformance

/-- The three kinds of declaration that are cataloged. -/
inductive TypeKind where
  | cls
  | interface
  | trait
  deriving DecidableEq, Repr, Inhabited

namespace TypeKind

/-- The keyword that declares a type of this kind. -/
def keyword : TypeKind → String
  | cls => "class"
  | interface => "interface"
  | trait => "trait"

/-- Every kind, in the order of the definition. -/
def all : List TypeKind := [cls, interface, trait]

/-- The kind that a keyword declares, in any ASCII case. -/
def ofKeyword? (word : String) : Option TypeKind :=
  all.find? (fun kind => Text.sameFolded kind.keyword word)

/-- The kind with exactly this keyword. -/
def ofWord? (word : String) : Option TypeKind :=
  all.find? (fun kind => kind.keyword == word)

end TypeKind

/-- Who may call a method: anyone, the class and its heirs, or the class alone. -/
inductive Visibility where
  | pub
  | prot
  | priv
  deriving DecidableEq, Repr, Inhabited

namespace Visibility

/-- The modifier that states this visibility. -/
def keyword : Visibility → String
  | pub => "public"
  | prot => "protected"
  | priv => "private"

/-- Every visibility, in the order of the definition. -/
def all : List Visibility := [pub, prot, priv]

/-- The visibility that a modifier states, in any ASCII case. -/
def ofKeyword? (word : String) : Option Visibility :=
  all.find? (fun visibility => Text.sameFolded visibility.keyword word)

/-- The visibility with exactly this modifier. -/
def ofWord? (word : String) : Option Visibility :=
  all.find? (fun visibility => visibility.keyword == word)

end Visibility

/-- The signature of a method that a type declares itself. -/
structure Method where
  name : String
  visibility : Visibility := .pub
  isStatic : Bool := false
  isAbstract : Bool := false
  isConstructor : Bool := false
  deriving DecidableEq, Repr, Inhabited

namespace Method

/-- The name that makes a method the constructor, in any ASCII case. -/
def constructorName : String := "__construct"

/-- A method that is neither static nor abstract; its name decides whether it constructs. -/
def named (name : String) (visibility : Visibility) : Method :=
  { name, visibility, isConstructor := Text.sameFolded name constructorName }

/-- Whether anyone may call the method. -/
def isPublic (m : Method) : Bool :=
  m.visibility == .pub

end Method

/-- The static facts about one type. -/
structure TypeInfo where
  /-- The qualified name, without a separator in front. -/
  name : String
  kind : TypeKind
  isAbstract : Bool := false
  isFinal : Bool := false
  /-- Supplied by the running environment: it can be named in rules but is never selected. -/
  isInternal : Bool := false
  /-- The path of the file that declares the type, if a file does. -/
  file : Option String := none
  parent : Option String := none
  /-- The interfaces it implements itself; for an interface, the ones it extends. -/
  interfaces : List String := []
  methods : List Method := []
  deriving DecidableEq, Repr, Inhabited

namespace TypeInfo

/-- A type of which only kind and name are known. -/
def named (kind : TypeKind) (name : String) : TypeInfo :=
  { name := TypeName.bare name, kind }

/-- The same type, declared in the file at `path`. -/
def inFile (t : TypeInfo) (path : String) : TypeInfo :=
  { t with file := some path }

/-- The same type with `parent` as its parent class. -/
def withParent (t : TypeInfo) (parent : String) : TypeInfo :=
  { t with parent := some (TypeName.bare parent) }

/-- Adds an interface behind the others, unless one of the same name is there already. -/
def addInterface (t : TypeInfo) (interface : String) : TypeInfo :=
  if t.interfaces.any (TypeName.same · interface) then t
  else { t with interfaces := t.interfaces ++ [TypeName.bare interface] }

/-- Adds a method behind the others. -/
def addMethod (t : TypeInfo) (m : Method) : TypeInfo :=
  { t with methods := t.methods ++ [m] }

/-- The name after the last separator. -/
def shortName (t : TypeInfo) : String :=
  TypeName.shortPart t.name

/-- The namespace around the type; empty for the global one. -/
def namespaceName (t : TypeInfo) : String :=
  TypeName.namespacePart t.name

/-- The methods that anyone may call. -/
def publicMethods (t : TypeInfo) : List Method :=
  t.methods.filter Method.isPublic

/-- How many public methods there are besides the constructor. -/
def publicMethodCount (t : TypeInfo) : Nat :=
  t.publicMethods.countP (fun m => !m.isConstructor)

/-- Whether a public method has this name, in any ASCII case. -/
def hasPublicMethod (t : TypeInfo) (name : String) : Bool :=
  t.publicMethods.any (fun m => Text.sameFolded m.name name)

/-- Whether the type names `interface` itself. -/
def implementsDirectly (t : TypeInfo) (interface : String) : Bool :=
  t.interfaces.any (TypeName.same · interface)

/-- Whether the type names `parent` as its parent class itself. -/
def extendsDirectly (t : TypeInfo) (parent : String) : Bool :=
  t.parent.any (TypeName.same · parent)

/-- Whether the type names any supertype. -/
def hasSupertypes (t : TypeInfo) : Bool :=
  t.parent.isSome || !t.interfaces.isEmpty

/-- The key under which usage of the type is kept; empty for a type without a file. -/
def fileKey (t : TypeInfo) : String :=
  t.file.getD ""

end TypeInfo
end Conformance
