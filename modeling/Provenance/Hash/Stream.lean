import Provenance.Algorithm
import Provenance.Hash.LineEnding
import Provenance.Text.Hex

/-!
# Hashing streams

Content is read piece by piece. A read hands out some bytes, is interrupted and tried again, or
fails; a read of no bytes is the end. `hashStream` hashes what the reads hand out, with normalized
line endings if asked, and fails only with the failure of a read. `reads` says what successive reads
of a content hand out to a reader that keeps to a plan.
-/

namespace Provenance

/-- What a read does. -/
inductive Read where
  | bytes (chunk : Bytes)
  | interrupted
  | failed (reason : String)
  deriving DecidableEq, Repr

/-- Why a stream could not be hashed. -/
structure HashError where
  label : String
  reason : String
  deriving DecidableEq, Repr

/-- The wording of an error. -/
def HashError.message (e : HashError) : String := s!"failed to read {e.label}: {e.reason}"

/-- The bytes that are to be hashed, given whether a CR waits. -/
def streamBytes (label : String) (normalize : Bool) : (waiting : Bool) → List Read →
    Except HashError Bytes
  | waiting, [] => .ok (LineEnding.flush waiting)
  | waiting, .interrupted :: rest => streamBytes label normalize waiting rest
  | _, .failed reason :: _ => .error ⟨label, reason⟩
  | waiting, .bytes [] :: _ => .ok (LineEnding.flush waiting)
  | waiting, .bytes chunk :: rest =>
    let (out, waiting) := if normalize then LineEnding.push waiting chunk else (chunk, false)
    (streamBytes label normalize waiting rest).map (out ++ ·)

/-- The hexadecimal digest of what the reads hand out. -/
def hashStream (algorithm : HashAlgorithm) (label : String) (normalize : Bool) (stream : List Read) :
    Except HashError String := do
  let content ← streamBytes label normalize false stream
  pure (Hex.encode (algorithm.digest content))

/-- The most that one read hands out. -/
def chunkSize : Nat := 8192

/-- How a read is going to turn out. -/
inductive PlannedRead where
  | atMost (count : Nat)
  | interrupted
  | failed (reason : String)
  deriving DecidableEq, Repr

/-- Reads of whole chunks to the end. -/
def chunks (content : Bytes) : List Read :=
  if _h : content = [] then []
  else .bytes (content.take chunkSize) :: chunks (content.drop chunkSize)
termination_by content.length
decreasing_by
  have := List.length_pos_iff.2 ‹¬content = []›
  simp [chunkSize]
  omega

/-- What successive reads hand out, first as planned and then whole chunks. -/
def reads : List PlannedRead → Bytes → List Read
  | [], content => chunks content
  | .interrupted :: plan, content => .interrupted :: reads plan content
  | .failed reason :: plan, content => .failed reason :: reads plan content
  | .atMost count :: plan, content =>
    let n := min count chunkSize
    .bytes (content.take n) :: reads plan (content.drop n)

end Provenance
