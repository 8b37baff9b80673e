import Axp.Path
import Axp.Proto

/-!
# Errors

The error type of `axp-core`, with the sandbox's own. The cause the operating
system or a library reports is kept as its text.
-/

namespace Axp

/-- The text of an `std::io::Error` or of a third-party error. -/
abbrev ErrorText := String

/-- Errors from configuring or applying a sandbox policy. -/
inductive SandboxError where
  | unavailable (tier : EnforcementTier) (reason : String)
  | apply (reason : String)
deriving DecidableEq, Repr

/-- The top-level error type of `axp-core`. -/
inductive Error where
  | notImplemented (feature : String)
  | capabilityParse (raw reason : String)
  | invalidWorkspace (path : PathBuf) (reason : String)
  | sessionNotFound (id : SessionId)
  | capabilityNotFound (name : String)
  | invalidCodePayload (reason : String)
  | duplicateProvider (id : String)
  | duplicateCapability (provider name : String)
  | descriptionQuality (provider capability reason : String)
  | capabilityDenied (required : String)
  | workspaceViolation (path : PathBuf)
  | jobNotFound (id : JobId)
  | jobSpawn (reason : String)
  | logBufferOverflow (cap : UInt64)
  | replayLogIo (path : PathBuf) (source : ErrorText)
  | replayLogCorrupt (path : PathBuf) (offset : Nat) (reason : String)
  | sandboxUnavailable (source : SandboxError)
  | sandboxApply (source : SandboxError)
  | entropy
deriving DecidableEq, Repr

abbrev Result (α : Type) := Except Error α

end Axp
