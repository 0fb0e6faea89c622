import Provenance.File.Hashing

/-!
# Hashing a content in parts

A reader gives a content in parts, of any size from one byte up to a whole chunk, and
may be interrupted in between. `HandsOut` says that some reads give a content in this
way. None of that shows in the digest:

> `hashStream_handsOut`: once the content is handed out, the digest at its end is that
> of the whole content, with its line endings normalized as a whole if asked; and if a
> read fails there instead, nothing is hashed and the failure is told.

A CR may be the last byte of a part, and then what it becomes is known only from the
next one. So the induction over the reads carries whether a CR waits, and says of any
reads whatever that what comes after them is hashed behind what they gave
(`streamBytes_append`).
-/

namespace Provenance

/-- The reads give the content and nothing else: parts of at least one byte and at most
a chunk, with interruptions anywhere. -/
inductive HandsOut : List Read → Bytes → Prop
  | nothing : HandsOut [] []
  | interrupted {reads content} : HandsOut reads content →
      HandsOut (.interrupted :: reads) content
  | bytes {reads content part} : part ≠ [] → part.length ≤ chunkSize → HandsOut reads content →
      HandsOut (.bytes part :: reads) (part ++ content)

/-- What is hashed of a content. -/
def hashedBytes (normalize : Bool) (content : Bytes) : Bytes :=
  if normalize then LineEnding.normalize content else content

/-! ## One part -/

/-- What a part adds to what is hashed, and whether a CR waits after it. -/
def hashedPart (normalize waiting : Bool) (part : Bytes) : Bytes × Bool :=
  if normalize then LineEnding.push waiting part else (part, false)

theorem hashedPart_append (normalize waiting : Bool) (part rest : Bytes) :
    hashedPart normalize waiting (part ++ rest) =
      ((hashedPart normalize waiting part).1 ++
          (hashedPart normalize (hashedPart normalize waiting part).2 rest).1,
        (hashedPart normalize (hashedPart normalize waiting part).2 rest).2) := by
  cases normalize with
  | false => rfl
  | true => exact LineEnding.push_append waiting part rest

theorem hashedPart_flush (normalize : Bool) (content : Bytes) :
    (hashedPart normalize false content).1 ++
        LineEnding.flush (hashedPart normalize false content).2 =
      hashedBytes normalize content := by
  cases normalize with
  | false => exact List.append_nil content
  | true => exact LineEnding.push_flush content

/-- A CR waits only where line endings are normalized. -/
def MayWait (normalize waiting : Bool) : Prop := normalize = false → waiting = false

theorem mayWait_hashedPart (normalize waiting : Bool) (part : Bytes) :
    MayWait normalize (hashedPart normalize waiting part).2 := by
  intro h
  subst h
  rfl

theorem hashedPart_nil {normalize waiting : Bool} (h : MayWait normalize waiting) :
    hashedPart normalize waiting [] = ([], waiting) := by
  cases normalize with
  | false => rw [h rfl]; rfl
  | true => rfl

theorem streamBytes_bytes {part : Bytes} (hpart : part ≠ []) (label : String)
    (normalize waiting : Bool) (rest : List Read) :
    streamBytes label normalize waiting (.bytes part :: rest) =
      (streamBytes label normalize (hashedPart normalize waiting part).2 rest).map
        ((hashedPart normalize waiting part).1 ++ ·) := by
  cases part with
  | nil => exact absurd rfl hpart
  | cons b part => cases normalize <;> rfl

/-! ## All parts -/

/-- What comes after a content is hashed behind what the content gave. -/
theorem streamBytes_append {reads : List Read} {content : Bytes} (h : HandsOut reads content)
    (label : String) {normalize waiting : Bool} (hwait : MayWait normalize waiting)
    (rest : List Read) :
    streamBytes label normalize waiting (reads ++ rest) =
      (streamBytes label normalize (hashedPart normalize waiting content).2 rest).map
        ((hashedPart normalize waiting content).1 ++ ·) := by
  induction h generalizing waiting with
  | nothing =>
    rw [hashedPart_nil hwait]
    cases hrest : streamBytes label normalize waiting rest <;> simp [hrest, Except.map]
  | interrupted _ ih =>
    rw [List.cons_append, streamBytes]
    exact ih hwait
  | @bytes reads content part hpart _ _ ih =>
    have hrest := ih (mayWait_hashedPart normalize waiting part)
    rw [List.cons_append, streamBytes_bytes hpart, hrest, hashedPart_append]
    -- the part, the content behind it and what comes after: grouped either way
    cases streamBytes label normalize _ rest with
    | error e => rfl
    | ok out => exact congrArg Except.ok (List.append_assoc _ _ _).symm

/-- The digest depends on the content alone, and a failure behind any part of it is told
under the label. -/
theorem hashStream_handsOut {reads : List Read} {content : Bytes} (h : HandsOut reads content)
    (algorithm : HashAlgorithm) (label : String) (normalize : Bool) :
    hashStream algorithm label normalize reads =
        .ok (Hex.encode (algorithm.digest (hashedBytes normalize content))) ∧
    (∀ rest, hashStream algorithm label normalize (reads ++ .bytes [] :: rest) =
        .ok (Hex.encode (algorithm.digest (hashedBytes normalize content)))) ∧
    ∀ reason rest, hashStream algorithm label normalize (reads ++ .failed reason :: rest) =
        .error ⟨label, reason⟩ := by
  have hread : ∀ rest, hashStream algorithm label normalize (reads ++ rest) =
      (streamBytes label normalize (hashedPart normalize false content).2 rest).map
        fun out => Hex.encode (algorithm.digest ((hashedPart normalize false content).1 ++ out)) := by
    intro rest
    rw [hashStream, streamBytes_append h label (fun _ => rfl) rest]
    cases streamBytes label normalize _ rest <;> rfl
  refine ⟨?_, fun rest => ?_, fun reason rest => ?_⟩
  · have hend := hread []
    rw [List.append_nil] at hend
    rw [hend, ← hashedPart_flush normalize content]
    rfl
  · rw [hread, ← hashedPart_flush normalize content]
    rfl
  · rw [hread]
    rfl

/-! ## Every content can be handed out -/

/-- Reads of whole chunks hand out the content. -/
theorem handsOut_chunks (content : Bytes) : HandsOut (chunks content) content := by
  fun_induction chunks content with
  | case1 => exact .nothing
  | case2 content hcontent ih =>
    have hpart : content.take chunkSize ≠ [] := by
      simp [hcontent, chunkSize]
    have hsize : (content.take chunkSize).length ≤ chunkSize := List.length_take_le _ _
    have hbytes := HandsOut.bytes hpart hsize ih
    rw [List.take_append_drop] at hbytes
    exact hbytes

/-- The digest of a file is that of its content, with normalized line endings if asked. -/
theorem FileView.hash_eq {v : FileView} {path : String} {content : Bytes}
    (h : v.read path = .ok content) (algorithm : HashAlgorithm) (normalize : Bool) :
    v.hash algorithm normalize path =
      .ok (Hex.encode (algorithm.digest (hashedBytes normalize content))) := by
  rw [FileView.hash, h]
  exact (hashStream_handsOut (handsOut_chunks content) algorithm path normalize).1

/-- A line end that is parted between two reads, with an interruption in between, and a CR at
the very end. -/
theorem parted_hashStream :
    HandsOut [.bytes [97, 13], .interrupted, .bytes [10, 13]] [97, 13, 10, 13] ∧
    hashStream .sha256 "notes" true [.bytes [97, 13], .interrupted, .bytes [10, 13]] =
      .ok (Hex.encode (HashAlgorithm.sha256.digest [97, 10, 10])) := by
  have hend : HandsOut [.bytes [10, 13]] [10, 13] :=
    @HandsOut.bytes [] [] [10, 13] (by decide) (by decide) .nothing
  have h : HandsOut [.bytes [97, 13], .interrupted, .bytes [10, 13]] [97, 13, 10, 13] :=
    @HandsOut.bytes _ _ [97, 13] (by decide) (by decide) (.interrupted hend)
  exact ⟨h, (hashStream_handsOut h .sha256 "notes" true).1⟩

end Provenance
