import Provenance.Key.Ring
import Provenance.Layout.Approval
import Provenance.Layout.Basic
import Provenance.Verification.Error

/-!
# Which layouts and approvals are admitted

Before any step is looked at, the layout has to be signed, each signature by a key that may sign it,
and to be well formed: names do not repeat, every threshold can be met, every rule can be used.
Approvals have to be for steps that exist and for keys that may sign for them. Each check stops at
the first thing that is wrong.
-/

namespace Provenance

/-- The different texts of a list, in order. -/
def distinctTexts (texts : List String) : List String := (sortByText id texts).eraseDups

namespace Layout

/-- The ids of the layout's keys. -/
def keyIds (l : Layout) : List KeyId := l.keys.map PublicKey.keyId

/-- A rule can be used in the layout. -/
def checkRule (l : Layout) (r : Rule) : Except RuleFault Unit :=
  match r.check with
  | .error cause => .error (.unusable cause)
  | .ok () =>
    match r with
    | .matching m => if (l.step? m.destination).isSome then .ok () else .error (.noDestination m.destination)
    | _ => .ok ()

/-- All rules of a list can be used. -/
def checkRules (l : Layout) : List Rule → Except RuleFault Unit
  | [] => .ok ()
  | r :: rest => do
    l.checkRule r
    l.checkRules rest

/-- The threshold of a step can be met by keys of the layout, and its rules can be used. -/
def checkStep (l : Layout) (ref : StepRef) (s : Step) : Except LayoutFault Unit := do
  let authorized := distinctTexts s.authorizedKeyIds
  if s.threshold.val = 0 ∨ authorized.length < s.threshold.val then
    .error (.threshold ref s.threshold.val authorized.length)
  else
    match authorized.find? fun id => id ∉ l.keyIds with
    | some key => .error (.unknownKey ref key)
    | none => (l.checkRules (s.materialRules ++ s.productRules)).mapError (.stepRule ref)

/-- The steps of a segment, given the names of those before them. -/
def checkSteps (l : Layout) (segment : String) : (seen : List String) → List Step →
    Except LayoutFault Unit
  | _, [] => .ok ()
  | seen, s :: rest => do
    if s.name ∈ seen then .error (.repeatedStep ⟨segment, s.name⟩)
    else
      l.checkStep ⟨segment, s.name⟩ s
      l.checkSteps segment (s.name :: seen) rest

/-- The segments, given the names of those before them. -/
def checkSegments (l : Layout) : (seen : List String) → List Segment → Except LayoutFault Unit
  | _, [] => .ok ()
  | seen, s :: rest => do
    if s.name ∈ seen then .error (.repeatedSegment s.name)
    else if s.steps.isEmpty then .error (.emptySegment s.name)
    else
      l.checkSteps s.name [] s.steps
      l.checkSegments (s.name :: seen) rest

/-- The layout is well formed. -/
def check (l : Layout) : Except LayoutFault Unit := do
  if l.segments.isEmpty then .error .noSegments
  else if ¬l.keyIds.Nodup then .error .repeatedKey
  else
    l.checkSegments [] l.segments
    (l.checkRules l.endProductRules).mapError .endProductRule
    match l.authorizedKeyIds.find? fun id => id ∉ l.keyIds with
    | some key => .error (.unknownSigner key)
    | none => .ok ()

end Layout

/-- The layout is well formed. -/
def validateLayout (l : Layout) : Except VerifyError Unit := l.check.mapError .malformedLayout

/-- Tells whether a signature over a layout is by that key. -/
def Layout.isSignedBy (registry : Registry) (l : Layout) (s : Signature) (key : PublicKey) :
    Except CryptoError Bool := isValidText registry l.canonicalText s key

/-- A signature over a layout is by a key that may sign it. -/
def checkLayoutSignature (registry : Registry) (keys : KeyRing) (l : Layout) (s : Signature) :
    Except VerifyError Unit := do
  if s.keyId ∈ l.authorizedKeyIds then
    match keys.get? s.keyId with
    | none => .error (.layoutSignature (.unknownKey s.keyId))
    | some key =>
      let valid ← (l.isSignedBy registry s key).mapError .crypto
      if valid then .ok () else .error (.layoutSignature (.mismatch s.keyId))
  else .error (.layoutSignature (.notAuthorized s.keyId))

/-- `checkLayoutSignature` of each signature. -/
def checkLayoutSignatures (registry : Registry) (keys : KeyRing) (l : Layout) :
    List Signature → Except VerifyError Unit
  | [] => .ok ()
  | s :: rest => do
    checkLayoutSignature registry keys l s
    checkLayoutSignatures registry keys l rest

/-- The layout is signed, and each signature is by a key that may sign it. -/
def verifyLayoutSignatures (registry : Registry) (keys : KeyRing) (b : LayoutBlock) :
    Except VerifyError Unit :=
  if b.signatures.isEmpty then .error (.layoutSignature .unsigned)
  else checkLayoutSignatures registry keys b.layout b.signatures

/-- An approval is for a step of the layout and for keys that may sign for it. -/
def checkApproval (l : Layout) (a : Approval) : Except ApprovalFault Unit :=
  match l.step? a.step with
  | none => .error (.noStep a.step)
  | some step =>
    match a.requiredKeyIds.find? fun id => !step.isAuthorized id with
    | some key => .error (.notAuthorized a.step key)
    | none => .ok ()

/-- `checkApproval` of each approval. -/
def checkApprovals (l : Layout) : List Approval → Except ApprovalFault Unit
  | [] => .ok ()
  | a :: rest => do
    checkApproval l a
    checkApprovals l rest

/-- Every approval is for a step of the layout and for keys that may sign for it. -/
def validateApprovals (l : Layout) (approvals : List Approval) : Except VerifyError Unit :=
  (checkApprovals l approvals).mapError .approval

end Provenance
