import SolidityAudit.Finding.Basic
import SolidityAudit.SourceUnit.Basic

/-!
# Detectors

A detector looks for one kind of vulnerability in a source unit. It gives its findings or fails.
-/

namespace SolidityAudit

/-- Why a detector gave no findings: any error that it raises while it looks at a unit. What stops the
whole program, such as an interrupt, is not among these. -/
inductive Failure where
  /-- A number in the version pragma has too many digits. -/
  | oversizedNumber (digits : Nat)
  /-- A failure of another kind, with its message. -/
  | raised (kind message : String)
deriving DecidableEq

namespace Failure

def kind : Failure → String
  | oversizedNumber _ => "ValueError"
  | raised kind _ => kind

def message : Failure → String
  | oversizedNumber digits =>
    "Exceeds the limit (4300 digits) for integer string conversion: value has " ++
      toString digits ++ " digits; use sys.set_int_max_str_digits() to increase the limit"
  | raised _ message => message

def description (f : Failure) : String :=
  if f.message == "" then f.kind else f.message

end Failure

structure Profile where
  name : String
  description : String
  vulnerability : Vulnerability
  swcId : Option String := none
  /-- The name of the kind of detector. -/
  kindName : String

structure Detector extends Profile where
  analyze : SourceUnit → Except Failure (List Finding)

namespace Profile

def signature (p : Profile) : String :=
  p.kindName ++ "(vuln_type='" ++ p.vulnerability.tag ++ "')"

end Profile
end SolidityAudit
