import SolidityAudit.Digest.Sha256
import SolidityAudit.SourceUnit.Basic

/-!
# Size and digest of a source
-/

namespace SolidityAudit.SourceUnit

def byteSize (u : SourceUnit) : Nat := u.source.utf8ByteSize

def digest (u : SourceUnit) : String :=
  String.ofList (Sha256.hexDigest u.source.toUTF8.data.toList)

end SolidityAudit.SourceUnit
