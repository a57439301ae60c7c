import Conformance.Types.Info

/-!
# `Types.Environment`: the types that the language itself supplies

Source code extends and implements types that no source file declares. They are known from the
start, so that rules can name them, and they are marked as internal, so that no rule selects them.
-/

namespace Conformance
namespace Environment

/-- An interface of the environment with the interfaces it extends. -/
def interfaceOf (name : String) (extended : List String) : TypeInfo :=
  { name, kind := .interface, isInternal := true, interfaces := extended }

/-- A class of the environment with the interfaces it implements. -/
def classOf (name : String) (interfaces : List String) : TypeInfo :=
  { name, kind := .cls, isInternal := true, interfaces }

/-- A class of the environment that cannot be extended. -/
def finalClassOf (name : String) (interfaces : List String) : TypeInfo :=
  { classOf name interfaces with isFinal := true }

/-- A class of the environment that extends another one. -/
def heirOf (name parent : String) : TypeInfo :=
  { classOf name [] with parent := some parent }

/-- The interfaces. -/
def interfaces : List TypeInfo := [
  interfaceOf "Traversable" [],
  interfaceOf "Iterator" ["Traversable"],
  interfaceOf "IteratorAggregate" ["Traversable"],
  interfaceOf "ArrayAccess" [],
  interfaceOf "Countable" [],
  interfaceOf "Serializable" [],
  interfaceOf "Stringable" [],
  interfaceOf "JsonSerializable" [],
  interfaceOf "Throwable" ["Stringable"],
  interfaceOf "UnitEnum" [],
  interfaceOf "BackedEnum" ["UnitEnum"],
  interfaceOf "DateTimeInterface" []]

/-- The classes that are no errors. -/
def classes : List TypeInfo := [
  classOf "stdClass" [],
  finalClassOf "Closure" [],
  finalClassOf "Generator" ["Iterator"],
  classOf "ArrayObject" ["IteratorAggregate", "ArrayAccess", "Serializable", "Countable"],
  classOf "ArrayIterator" ["Iterator", "ArrayAccess", "Serializable", "Countable"],
  classOf "DateTime" ["DateTimeInterface"],
  classOf "DateTimeImmutable" ["DateTimeInterface"]]

/-- The classes of errors, each behind its parent. -/
def errors : List TypeInfo := [
  classOf "Exception" ["Throwable"],
  classOf "Error" ["Throwable"],
  heirOf "ErrorException" "Exception",
  heirOf "TypeError" "Error",
  heirOf "ValueError" "Error",
  heirOf "ArithmeticError" "Error",
  heirOf "DivisionByZeroError" "ArithmeticError",
  heirOf "LogicException" "Exception",
  heirOf "BadFunctionCallException" "LogicException",
  heirOf "BadMethodCallException" "BadFunctionCallException",
  heirOf "DomainException" "LogicException",
  heirOf "InvalidArgumentException" "LogicException",
  heirOf "LengthException" "LogicException",
  heirOf "OutOfRangeException" "LogicException",
  heirOf "RuntimeException" "Exception",
  heirOf "OutOfBoundsException" "RuntimeException",
  heirOf "OverflowException" "RuntimeException",
  heirOf "RangeException" "RuntimeException",
  heirOf "UnderflowException" "RuntimeException",
  heirOf "UnexpectedValueException" "RuntimeException"]

/-- All types of the environment. -/
def types : List TypeInfo := interfaces ++ classes ++ errors

end Environment
end Conformance
