import NixSeal.Core.Text

/-!
# Authoring of canonical ciphertext

The modes and failures shared by the authoring operations.
-/

namespace NixSeal.Authoring

/-- `WriteMode`. -/
inductive WriteMode where
  /-- Refuse an existing destination. -/
  | create
  /-- Require and replace an existing regular destination. -/
  | replace
  deriving DecidableEq, Repr

/-- `AuthoringError`, without the payloads of its sources. -/
inductive AuthoringError where
  | unsafePath
  | destinationState
  | verificationIdentity
  | crypto
  | roundTrip
  | externalInput
  | sourceChanged
  | inputTooLarge
  | io
  | editor
  | invalidEditedContent
  | durabilityUnknown
  | batchRolledBack
  | batchRecoveryUnknown
  | tombstone
  deriving DecidableEq, Repr

end NixSeal.Authoring
