/-!
# `Command.Template`: contracts to start from

A new contract is a copy of one of these texts. Each is a contract that can be read and is valid.
-/

namespace Conformance
namespace Command

/-- A contract to start from. -/
structure Template where
  name : String
  description : String
  content : String
  deriving DecidableEq, Repr, Inhabited

namespace Template

/-- Puts lines together. -/
def ofLines (lines : List String) : String := String.join (lines.map (· ++ "\n"))

/-- One naming rule for everything. -/
def minimal : Template where
  name := "minimal"
  description := "Catalog everything, one naming rule to start from"
  content := ofLines [
    "# archcheck contract: minimal",
    "#",
    "# Catalogs every PHP file under the checked path and applies one naming",
    "# rule. Add rules as the architecture takes shape.",
    "",
    "version: \"1\"",
    "name: \"Architecture\"",
    "",
    "# Roots to catalog, relative to the checked path",
    "sources: [\".\"]",
    "",
    "excluded_paths:",
    "  - \"**/tests/**\"",
    "",
    "rules:",
    "  - name: interfaces_are_named",
    "    message: \"interfaces must end with Interface\"",
    "    select:",
    "      matching: \"Interface$|Contract\"",
    "      exclude_traits: true",
    "    assert:",
    "      - name_suffix: \"Interface\""]

/-- Rules for controllers, services and repositories. -/
def layered : Template where
  name := "layered"
  description := "Controllers, services and repositories with naming and interface rules"
  content := ofLines [
    "# archcheck contract: layered application",
    "#",
    "# Controllers talk to services, services talk to repositories. Each layer",
    "# keeps its naming and its contracts.",
    "",
    "version: \"1\"",
    "name: \"Layered architecture\"",
    "",
    "sources: [\"src\"]",
    "excluded_paths:",
    "  - \"**/Legacy/**\"",
    "",
    "# Minimum overall coverage percentage",
    "coverage_threshold: 50.0",
    "",
    "rules:",
    "  - name: controllers_are_suffixed",
    "    message: \"controllers must end with Controller\"",
    "    select:",
    "      in_namespace: \"App\\\\Http\\\\Controller\"",
    "      exclude_abstract: true",
    "    assert:",
    "      - name_suffix: \"Controller\"",
    "",
    "  - name: services_are_final",
    "    message: \"services must be final and suffixed\"",
    "    select:",
    "      in_namespace: \"App\\\\Service\"",
    "      exclude_interfaces: true",
    "      exclude_traits: true",
    "    assert:",
    "      - name_suffix: \"Service\"",
    "      - final: true",
    "",
    "  - name: repositories_implement_contract",
    "    message: \"repositories must implement the repository contract\"",
    "    select:",
    "      in_namespace: \"App\\\\Repository\"",
    "      exclude_interfaces: true",
    "      exclude_abstract: true",
    "    assert:",
    "      - name_suffix: \"Repository\"",
    "      - implement: \"App\\\\Repository\\\\RepositoryInterface\"",
    "",
    "  - name: small_services",
    "    message: \"services must keep a small public surface\"",
    "    select:",
    "      in_namespace: \"App\\\\Service\"",
    "      exclude_interfaces: true",
    "    assert:",
    "      - max_public_methods: 7"]

/-- Rules for ports, adapters and use cases. -/
def hexagonal : Template where
  name := "hexagonal"
  description := "Ports as interfaces, final adapters, invokable use cases"
  content := ofLines [
    "# archcheck contract: ports and adapters",
    "#",
    "# Ports are interfaces in the domain, adapters implement them outside it,",
    "# and every use case exposes a single entry point.",
    "",
    "version: \"1\"",
    "name: \"Hexagonal architecture\"",
    "",
    "sources: [\"src\"]",
    "",
    "rules:",
    "  - name: ports_are_named",
    "    message: \"ports must be named *Port\"",
    "    select:",
    "      in_namespace: \"App\\\\Domain\\\\Port\"",
    "    assert:",
    "      - name_suffix: \"Port\"",
    "",
    "  - name: adapters_are_final",
    "    message: \"adapters must be final\"",
    "    select:",
    "      in_namespace: \"App\\\\Infrastructure\\\\Adapter\"",
    "      exclude_interfaces: true",
    "      exclude_abstract: true",
    "    assert:",
    "      - name_suffix: \"Adapter\"",
    "      - final: true",
    "",
    "  - name: use_cases_are_invokable",
    "    message: \"use cases must expose exactly one public entry point\"",
    "    select:",
    "      in_namespace: \"App\\\\Application\\\\UseCase\"",
    "      exclude_interfaces: true",
    "    assert:",
    "      - invokable: true",
    "      - exact_public_methods: 1",
    "",
    "  - name: domain_exceptions",
    "    message: \"domain exceptions must extend DomainException\"",
    "    select:",
    "      in_namespace: \"App\\\\Domain\"",
    "      matching: \"Exception$\"",
    "    assert:",
    "      - extend: \"DomainException\""]

/-- All templates; the first one is used unless another one is asked for. -/
def all : List Template := [minimal, layered, hexagonal]

/-- The template of some name. -/
def named? (name : String) : Option Template := all.find? (fun t => t.name == name)

end Template
end Command
end Conformance
