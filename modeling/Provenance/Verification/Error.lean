import Provenance.Rule.Pattern
import Provenance.Signature.Error
import Provenance.Key.PublicKey

/-!
# Why a run cannot be evaluated

A run is evaluated only if its layout can be trusted and used. `VerifyError` tells what is wrong
with the layout, its signatures or the approvals. An error is a matter of security when keys or
signatures are at fault.
-/

namespace Provenance

/-- What is wrong with a rule of a layout. -/
inductive RuleFault where
  | unusable (cause : RuleError)
  | noDestination (step : StepRef)
  deriving DecidableEq, Repr

/-- The wording of a fault. -/
def RuleFault.message : RuleFault → String
  | unusable cause => cause.message
  | noDestination step => s!"MATCH destination {step.describe} does not exist"

/-- What is wrong with the form of a layout. -/
inductive LayoutFault where
  | noSegments
  | repeatedKey
  | repeatedSegment (name : String)
  | emptySegment (name : String)
  | repeatedStep (step : StepRef)
  /-- The step can never have, or does not demand, that many signatures. -/
  | threshold (step : StepRef) (required authorized : Nat)
  | unknownKey (step : StepRef) (key : KeyId)
  | stepRule (step : StepRef) (fault : RuleFault)
  | endProductRule (fault : RuleFault)
  | unknownSigner (key : KeyId)
  deriving DecidableEq, Repr

/-- The wording of a fault. -/
def LayoutFault.message : LayoutFault → String
  | noSegments => "layout has no segments"
  | repeatedKey => "layout lists the same key twice"
  | repeatedSegment name => s!"duplicate segment {Text.quoted name}"
  | emptySegment name => s!"segment {Text.quoted name} has no steps"
  | repeatedStep step => s!"duplicate step {step.describe}"
  | threshold step required authorized =>
    s!"{step.describe}: requires {required} signatures from {authorized} authorized keys"
  | unknownKey step key => s!"{step.describe}: authorized key {key} is not in the layout"
  | stepRule step fault => s!"{step.describe}: {fault.message}"
  | endProductRule fault => s!"end products: {fault.message}"
  | unknownSigner key => s!"layout signer {key} is not in the layout keys"

/-- What is wrong with the signatures of a layout. -/
inductive SignatureFault where
  | unsigned
  | notAuthorized (key : KeyId)
  | unknownKey (key : KeyId)
  | mismatch (key : KeyId)
  deriving DecidableEq, Repr

/-- The wording of a fault. -/
def SignatureFault.message : SignatureFault → String
  | unsigned => "layout is not signed"
  | notAuthorized key => s!"key {key} may not sign the layout"
  | unknownKey key => s!"key {key} is not in the layout"
  | mismatch key => s!"signature by {key} does not match the layout"

/-- What is wrong with an approval. -/
inductive ApprovalFault where
  | noStep (step : StepRef)
  | notAuthorized (step : StepRef) (key : KeyId)
  deriving DecidableEq, Repr

/-- The wording of a fault. -/
def ApprovalFault.message : ApprovalFault → String
  | noStep step => s!"no step {step.describe}"
  | notAuthorized step key => s!"{step.describe}: key {key} is not authorized for the step"

/-- Why a run cannot be evaluated. -/
inductive VerifyError where
  | malformedLayout (fault : LayoutFault)
  | layoutSignature (fault : SignatureFault)
  | approval (fault : ApprovalFault)
  | crypto (cause : CryptoError)
  deriving DecidableEq, Repr

namespace VerifyError

/-- The wording of an error. -/
def message : VerifyError → String
  | malformedLayout fault => s!"malformed layout: {fault.message}"
  | layoutSignature fault => s!"layout signature rejected: {fault.message}"
  | approval fault => s!"invalid approval configuration: {fault.message}"
  | crypto cause => cause.message

/-- Keys or signatures are at fault. -/
def isSecurity : VerifyError → Bool
  | layoutSignature _ | crypto _ => true
  | malformedLayout _ | approval _ => false

end VerifyError

end Provenance
