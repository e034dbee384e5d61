import SpatialIde.Renderer.Canonical

/-! # Refusals of the permission boundary

`PermissionError` is about authority, `AuditError` about the record.
-/

namespace SpatialIde.Kernel.Permission

open Lib SpatialIde.Renderer

inductive RefusalReason where
  | notMatched
  | eof
  deriving DecidableEq, Repr

inductive PermissionError where
  | noGrant (operation : String)
  | grantScopeMismatch (detail : String)
  | grantExpired (lifetimeS elapsedS : Nat)
  | grantCeilingExceeded (ceiling : String) (limit : Nat)
  | grantLifetimeExceeded (requestedS limitS : Nat)
  | destinationUnresolvable (path detail : String)
  | approvalRefused (reason : RefusalReason) (expected : String)
  /-- The channel broke; nobody declined. -/
  | approvalUnavailable (detail : String)
  deriving DecidableEq, Repr

inductive AuditError where
  | unwritable (path detail : String)
  | logInsideDestination (log destination : String)
  | rotationFailed (path detail : String)
  | controlCharacterInField (field : String)
  | credentialInRecord (cls : String) (byteOffset : Nat)
  | canonical (e : CanonicalError)
  deriving DecidableEq, Repr

/-- The `Display` text.  `lowerExp` spells a double with an exponent. -/
def AuditError.message (lowerExp : F64 → String) : AuditError → String
  | unwritable path detail => "refused: the audit log \x60" ++ path ++ "\x60 cannot be written (" ++
      detail ++ "). A class-3 external side effect that cannot be recorded does not run — that is " ++
      "what the gate means (ADR-006; docs/09). Nothing has been created at the destination. This " ++
      "one refusal is necessarily absent from the log itself, because the log is what failed"
  | logInsideDestination log destination => "refused: the audit log \x60" ++ log ++
      "\x60 resolves inside the destination \x60" ++ destination ++ "\x60. The log audits this " ++
      "machine and ships nowhere; inside a bundle it would be redistributed to every recipient " ++
      "and would trip ADR-017 §13's own redaction scan. Point SPATIAL_IDE_AUDIT_LOG somewhere " ++
      "outside the bundle"
  | rotationFailed path detail => "refused: the audit log could not be rotated at \x60" ++ path ++
      "\x60 (" ++ detail ++ "), so its declared size ceiling cannot be honored (ADR-010 rule 6). " ++
      "Growing past a declared ceiling in silence would make the declaration untrue, so this " ++
      "refuses instead"
  | controlCharacterInField field => "refused: the audit field \x60" ++ field ++ "\x60 contains a " ++
      "control character. Records are one canonical-JSON object per line, and a field that can " ++
      "carry a newline is a field that can forge a record boundary"
  | credentialInRecord cls byteOffset => "refused: the docs/09 scan found a \x60" ++ cls ++
      "\x60 at byte " ++ toString byteOffset ++ " of the audit record about to be written. " ++
      "Credential redaction is unconditional — it is not excused by a field being deliberately " ++
      "supplied — so the record is not written and the operation does not run. Nothing has been " ++
      "created at the destination"
  | canonical e => "the audit record could not be serialized: " ++ e.message lowerExp

end SpatialIde.Kernel.Permission
