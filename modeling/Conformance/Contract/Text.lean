import Conformance.Contract.Record
import Conformance.Yaml.Document

/-!
# `Contract.Text`: contracts as YAML texts
-/

namespace Conformance

/-- Reads a contract from a YAML text. -/
def Contract.ofText (text : String) : Except Yaml.Fault Contract := do
  let v ← Yaml.read text
  match Contract.ofValue? v with
  | some c => pure c
  | none => throw .wrongShape

end Conformance
