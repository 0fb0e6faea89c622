import Mathlib.Data.List.Forall2
import Provenance.Proofs.Glob.Acceptance
import Provenance.Proofs.Rule.Usable
import Provenance.Proofs.Text.Utf8

/-!
# Wildcards stay inside a segment

A pattern that is made of characters, question marks and single stars can be read without
tokens and shapes: pattern and path are cut at their separators, and `SegmentMatches` says
when a segment of the one matches a segment of the other.

> `ofGlob_segmentwise`: such a pattern is a glob, and it matches the paths that have as many
> segments as the pattern, each matching the one at its place; without a question mark or a
> star that is the path itself.

The matcher knows no segments. It goes on through pattern and path, and a wildcard stands
for bytes other than the separator's. So what a character of the pattern takes of the path
has no separator in it, and a cut in front of a separator of the pattern is a cut of the
path (`tokensShape_matches_iff`).
-/

namespace Provenance.Glob

/-! ## Reading the pattern -/

/-- The pattern is made of characters that stand for themselves, separators, question marks
and stars, and no two stars stand side by side. -/
structure Wildcards (pattern : List Char) : Prop where
  /-- There is no class, no group and no escape. -/
  plain : ∀ c ∈ pattern, c ∉ ['[', '\x7b', '\x7d', '\\']
  singleStars : ¬['*', '*'] <:+: pattern

/-- The token of a character. -/
def tokenOf : Char → Token
  | '?' => .anyByte
  | '*' => .anyBytes
  | c => .literal c

theorem tokenOf_of_ne {c : Char} (hany : c ≠ '?') (hstar : c ≠ '*') : tokenOf c = .literal c := by
  unfold tokenOf
  split
  · exact absurd rfl hany
  · exact absurd rfl hstar
  · rfl

theorem Wildcards.tail {c : Char} {rest : List Char} (h : Wildcards (c :: rest)) :
    Wildcards rest :=
  ⟨fun d hd => h.plain d (List.mem_cons_of_mem _ hd),
    fun hstars => h.singleStars (List.infix_cons hstars)⟩

theorem readFrom_cons {r : Reader} (hr : r.groups = []) {previous : Option Char} {c : Char}
    {rest : List Char} (h : Wildcards (c :: rest)) :
    readFrom r previous (c :: rest) = readFrom (r.push (tokenOf c)) (some c) rest := by
  have hplain := h.plain c List.mem_cons_self
  simp only [List.mem_cons, List.not_mem_nil, or_false, not_or] at hplain
  obtain ⟨hclass, hopen, hclose, hescape⟩ := hplain
  by_cases hany : c = '?'
  · subst hany
    rw [readFrom]
    rfl
  by_cases hstar : c = '*'
  · subst hstar
    -- what follows a star is no star
    cases rest with
    | nil =>
      rw [readFrom]
      rfl
    | cons d rest =>
      have hd : d ≠ '*' := by
        rintro rfl
        exact h.singleStars ⟨[], rest, rfl⟩
      rw [readFrom]
      · rfl
      all_goals simp [hd]
  rw [tokenOf_of_ne hany hstar]
  by_cases hcomma : c = ','
  · subst hcomma
    rw [readFrom, Reader.nextBranch, hr]
  · rw [readFrom] <;> simp_all

/-- Every character is read as a token of its own. -/
theorem readFrom_eq : ∀ {pattern : List Char} {r : Reader} {previous : Option Char},
    r.groups = [] → Wildcards pattern →
      readFrom r previous pattern = .ok (r.tokens.reverse ++ pattern.map tokenOf)
  | [], r, previous, hr, _ => by
    rw [readFrom, Reader.finish, Reader.inGroup, hr, List.map_nil, List.append_nil]
    rfl
  | c :: rest, r, previous, hr, h => by
    have hpush : (r.push (tokenOf c)).groups = [] := hr
    rw [readFrom_cons hr h, readFrom_eq hpush h.tail, List.map_cons, List.append_cons,
      Reader.push, List.reverse_cons]

theorem read_eq {pattern : String} (h : Wildcards pattern.toList) :
    read pattern = .ok (pattern.toList.map tokenOf) := readFrom_eq rfl h

theorem shape_map_tokenOf (pattern : List Char) :
    shape (pattern.map tokenOf) = tokensShape (pattern.map tokenOf) := by
  unfold shape
  split
  · next heq =>
    -- no character is read as a token for segments
    exfalso
    obtain ⟨c, _, _, hc, _⟩ := List.map_eq_cons_iff.mp heq
    unfold tokenOf at hc
    split at hc <;> exact nomatch hc
  · rfl

/-! ## What a character takes of a path -/

/-- The bytes that a character of a pattern stands for: a star for any number of bytes, a
question mark for one, and any other character for its own. -/
def StandsFor : Char → Bytes → Prop
  | '*', _ => True
  | '?', bytes => bytes.length = 1
  | c, bytes => bytes = charBytes c

theorem standsFor_iff_of_ne {c : Char} (hany : c ≠ '?') (hstar : c ≠ '*') {bytes : Bytes} :
    StandsFor c bytes ↔ bytes = charBytes c := by
  unfold StandsFor
  split
  · exact absurd rfl hstar
  · exact absurd rfl hany
  · rfl

/-- The characters stand for parts of the bytes, one after the other. -/
inductive SegmentMatches : List Char → Bytes → Prop where
  | nil : SegmentMatches [] []
  | cons {c rest front back} : StandsFor c front → SegmentMatches rest back →
      SegmentMatches (c :: rest) (front ++ back)

theorem segmentMatches_nil_iff {bytes : Bytes} : SegmentMatches [] bytes ↔ bytes = [] := by
  constructor
  · intro h
    cases h
    rfl
  · rintro rfl
    exact .nil

theorem segmentMatches_cons_iff {c : Char} {rest : List Char} {bytes : Bytes} :
    SegmentMatches (c :: rest) bytes ↔
      ∃ front back, bytes = front ++ back ∧ StandsFor c front ∧ SegmentMatches rest back := by
  constructor
  · intro h
    cases h with
    | cons hc hrest => exact ⟨_, _, rfl, hc, hrest⟩
  · intro h
    obtain ⟨front, back, rfl, hc, hrest⟩ := h
    exact .cons hc hrest

theorem Shape.matches_append_iff : ∀ {s t : List Piece} {bytes : Bytes},
    Shape.Matches (s ++ t) bytes ↔
      ∃ front back, bytes = front ++ back ∧ Shape.Matches s front ∧ Shape.Matches t back
  | [], t, bytes => by simp [Shape.matches_nil_iff]
  | p :: s, t, bytes => by
    simp only [List.cons_append, Shape.matches_cons_iff, Shape.matches_append_iff]
    constructor
    · intro h
      obtain ⟨first, _, rfl, hp, front, back, rfl, hs, ht⟩ := h
      exact ⟨first ++ front, back, (List.append_assoc _ _ _).symm, ⟨first, front, rfl, hp, hs⟩, ht⟩
    · intro h
      obtain ⟨_, back, rfl, ⟨first, front, rfl, hp, hs⟩, ht⟩ := h
      exact ⟨first, front ++ back, List.append_assoc _ _ _, hp, front, back, rfl, hs, ht⟩

theorem ByteSet.contains_only_iff {b own : UInt8} :
    (ByteSet.only own).contains b = true ↔ b = own := by
  simp only [ByteSet.contains, ByteSet.only, List.any_cons, List.any_nil, Bool.or_false,
    Bool.bne_false, Bool.and_eq_true, decide_eq_true_eq]
  exact ⟨fun h => UInt8.le_antisymm h.2 h.1, fun h => h ▸ ⟨UInt8.le_refl _, UInt8.le_refl _⟩⟩

/-- The byte between segments. -/
def slashByte : UInt8 := 0x2f

theorem ByteSet.contains_segment_iff {b : UInt8} :
    ByteSet.segment.contains b = true ↔ b ≠ slashByte := by
  have hslash : ByteSet.segment.contains b = !(ByteSet.only slashByte).contains b := by
    simp [ByteSet.contains, ByteSet.segment, ByteSet.only, slashByte]
  rw [hslash, Bool.not_eq_true', ← Bool.not_eq_true, ByteSet.contains_only_iff]

theorem matches_literal_iff : ∀ {own bytes : Bytes},
    Shape.Matches (own.map fun b => .one (.only b)) bytes ↔ bytes = own
  | [], bytes => Shape.matches_nil_iff
  | b :: own, bytes => by
    simp only [List.map_cons, Shape.matches_cons_iff, Piece.matches_one_iff, matches_literal_iff,
      ByteSet.contains_only_iff]
    simp

theorem charBytes_eq (c : Char) : charBytes c = String.utf8EncodeChar c := by
  have htext : String.singleton c = String.ofList [c] := rfl
  rw [charBytes, htext, textBytes_ofList, List.flatMap_singleton]

theorem charBytes_inj {c d : Char} : charBytes c = charBytes d ↔ c = d := by
  refine ⟨fun h => ?_, congrArg charBytes⟩
  have htext := congrArg String.toList (textBytes_inj.mp h)
  simpa using htext

theorem slashByte_mem_charBytes_iff {c : Char} : slashByte ∈ charBytes c ↔ c = '/' := by
  constructor
  · intro h
    rw [charBytes_eq] at h
    have hslash : charBytes '/' = [slashByte] := by decide
    rw [← charBytes_inj, hslash, charBytes_eq]
    exact utf8EncodeChar_eq_singleton_of_mem (by decide) h
  · rintro rfl
    decide

/-- A character that is no separator takes what it stands for, if there is no separator in it. -/
theorem matches_shape_tokenOf_iff {c : Char} (hc : c ≠ '/') {bytes : Bytes} :
    Shape.Matches (tokenOf c).shape bytes ↔ StandsFor c bytes ∧ slashByte ∉ bytes := by
  have hone : ∀ p : Piece, Shape.Matches [p] bytes ↔ p.Matches bytes := by
    intro p
    simp [Shape.matches_cons_iff, Shape.matches_nil_iff]
  by_cases hany : c = '?'
  · subst hany
    simp only [tokenOf, Token.shape, StandsFor, hone, Piece.matches_one_iff,
      ByteSet.contains_segment_iff, List.length_eq_one_iff]
    constructor
    · intro h
      obtain ⟨b, rfl, hb⟩ := h
      exact ⟨⟨b, rfl⟩, fun hmem => hb (List.mem_singleton.mp hmem).symm⟩
    · intro h
      obtain ⟨⟨b, rfl⟩, hb⟩ := h
      exact ⟨b, rfl, fun heq => hb (List.mem_singleton.mpr heq.symm)⟩
  by_cases hstar : c = '*'
  · subst hstar
    simp only [tokenOf, Token.shape, StandsFor, hone, Piece.matches_many_iff,
      ByteSet.contains_segment_iff, true_and]
    exact ⟨fun h hmem => h _ hmem rfl, fun h b hb heq => h (heq ▸ hb)⟩
  · rw [tokenOf_of_ne hany hstar, Token.shape, matches_literal_iff, standsFor_iff_of_ne hany hstar]
    refine (and_iff_left_of_imp ?_).symm
    rintro rfl hmem
    exact hc (slashByte_mem_charBytes_iff.mp hmem)

theorem matches_shape_slash_iff {bytes : Bytes} :
    Shape.Matches (tokenOf '/').shape bytes ↔ bytes = [slashByte] := matches_literal_iff

/-! ## Cuts -/

section Cuts

variable {α : Type} [DecidableEq α] {sep : α}

theorem splitOn_append_of_not_mem {front : List α} (h : sep ∉ front) (l : List α) :
    (front ++ l).splitOn sep = (l.splitOn sep).modifyHead (front ++ ·) := by
  induction front with
  | nil => simp only [List.nil_append, List.modifyHead_id, id_eq, ← Function.id_def]
  | cons a front ih =>
    rw [List.mem_cons, not_or] at h
    rw [List.cons_append, List.splitOn_cons_eq_if_modifyHead, if_neg (by simpa using Ne.symm h.1),
      ih h.2, List.modifyHead_modifyHead]
    rfl

theorem exists_of_splitOn_eq_append_cons {front : List α} :
    ∀ {l back : List α} {rest : List (List α)}, l.splitOn sep = (front ++ back) :: rest →
      ∃ l', l = front ++ l' ∧ sep ∉ front ∧ l'.splitOn sep = back :: rest := by
  induction front with
  | nil =>
    intro l back rest h
    exact ⟨l, rfl, List.not_mem_nil, h⟩
  | cons a front ih =>
    intro l back rest h
    cases l with
    | nil => simp at h
    | cons b l =>
      rw [List.splitOn_cons_eq_if_modifyHead] at h
      split at h
      · simp at h
      · next hb =>
        obtain ⟨head, tail, hl⟩ := List.exists_cons_of_ne_nil (List.splitOn_ne_nil sep l)
        rw [hl, List.modifyHead_cons, List.cons_append, List.cons.injEq, List.cons.injEq] at h
        obtain ⟨⟨rfl, rfl⟩, rfl⟩ := h
        obtain ⟨l', rfl, hfront, hl'⟩ := ih hl
        refine ⟨l', rfl, ?_, hl'⟩
        rw [List.mem_cons, not_or]
        exact ⟨fun heq => hb (by simp [heq]), hfront⟩

end Cuts

/-! ## Segments -/

/-- What the first character of a segment takes ends in front of the next separator. -/
theorem segmentsMatch_cons_iff {c : Char} {first : List Char} {rest : List (List Char)}
    {bytes : Bytes} :
    List.Forall₂ SegmentMatches ((c :: first) :: rest) (bytes.splitOn slashByte) ↔
      ∃ front back, bytes = front ++ back ∧ (StandsFor c front ∧ slashByte ∉ front) ∧
        List.Forall₂ SegmentMatches (first :: rest) (back.splitOn slashByte) := by
  constructor
  · intro h
    obtain ⟨_, parts, hfirst, hrest, hparts⟩ := List.forall₂_cons_left_iff.mp h
    obtain ⟨front, part, rfl, hc, hpart⟩ := segmentMatches_cons_iff.mp hfirst
    obtain ⟨back, rfl, hfront, hback⟩ := exists_of_splitOn_eq_append_cons hparts
    exact ⟨front, back, rfl, ⟨hc, hfront⟩, hback ▸ .cons hpart hrest⟩
  · intro h
    obtain ⟨front, back, rfl, ⟨hc, hfront⟩, hmatch⟩ := h
    obtain ⟨part, parts, hpart, hrest, hparts⟩ := List.forall₂_cons_left_iff.mp hmatch
    rw [splitOn_append_of_not_mem hfront, hparts, List.modifyHead_cons]
    exact .cons (.cons hc hpart) hrest

/-- An empty segment is behind a separator. -/
theorem segmentsMatch_nil_cons_iff {rest : List (List Char)} (hrest : rest ≠ []) {bytes : Bytes} :
    List.Forall₂ SegmentMatches ([] :: rest) (bytes.splitOn slashByte) ↔
      ∃ back, bytes = slashByte :: back ∧
        List.Forall₂ SegmentMatches rest (back.splitOn slashByte) := by
  constructor
  · intro h
    obtain ⟨part, parts, hpart, htail, hparts⟩ := List.forall₂_cons_left_iff.mp h
    obtain rfl := segmentMatches_nil_iff.mp hpart
    cases bytes with
    | nil =>
      -- the path has one segment only
      rw [List.splitOn_nil, List.cons.injEq] at hparts
      exact absurd (List.forall₂_nil_right_iff.mp (hparts.2 ▸ htail)) hrest
    | cons b back =>
      rw [List.splitOn_cons_eq_if_modifyHead] at hparts
      split at hparts
      · next hb => exact ⟨back, by rw [eq_of_beq hb], (List.cons.inj hparts).2 ▸ htail⟩
      · obtain ⟨head, tail, hback⟩ := List.exists_cons_of_ne_nil (List.splitOn_ne_nil slashByte back)
        rw [hback, List.modifyHead_cons] at hparts
        exact nomatch (List.cons.inj hparts).1
  · intro h
    obtain ⟨back, rfl, htail⟩ := h
    rw [List.splitOn_cons_eq_if_modifyHead, if_pos (beq_self_eq_true _)]
    exact .cons .nil htail

/-- Bytes have the shape of a pattern iff their segments match the segments of the pattern. -/
theorem tokensShape_matches_iff : ∀ {pattern : List Char} {bytes : Bytes},
    Shape.Matches (tokensShape (pattern.map tokenOf)) bytes ↔
      List.Forall₂ SegmentMatches (pattern.splitOn '/') (bytes.splitOn slashByte)
  | [], bytes => by
    rw [List.map_nil, tokensShape, Shape.matches_nil_iff, List.splitOn_nil,
      List.forall₂_cons_left_iff]
    simp only [segmentMatches_nil_iff, List.forall₂_nil_left_iff]
    constructor
    · rintro rfl
      exact ⟨[], [], rfl, rfl, rfl⟩
    · intro h
      obtain ⟨_, _, rfl, rfl, hbytes⟩ := h
      rw [← bytes.intercalate_splitOn slashByte, hbytes]
      rfl
  | c :: pattern, bytes => by
    rw [List.map_cons, tokensShape, Shape.matches_append_iff, List.splitOn_cons_eq_if_modifyHead]
    by_cases hc : c = '/'
    · subst hc
      rw [if_pos (beq_self_eq_true _), segmentsMatch_nil_cons_iff (List.splitOn_ne_nil _ _)]
      simp [matches_shape_slash_iff, tokensShape_matches_iff]
    · obtain ⟨first, rest, hpattern⟩ := List.exists_cons_of_ne_nil (List.splitOn_ne_nil '/' pattern)
      rw [if_neg (by simpa using hc), hpattern, List.modifyHead_cons, segmentsMatch_cons_iff]
      simp only [matches_shape_tokenOf_iff hc, tokensShape_matches_iff, hpattern]

/-! ## Segments of texts -/

/-- The bytes of a segment of a path. -/
def segmentBytes (segment : List Char) : Bytes := textBytes (String.ofList segment)

theorem segmentBytes_eq (segment : List Char) : segmentBytes segment = segment.flatMap charBytes := by
  rw [segmentBytes, textBytes_ofList, ← funext charBytes_eq]

theorem segmentBytes_injective : Function.Injective segmentBytes :=
  fun _ _ h => String.ofList_inj.mp (textBytes_inj.mp h)

theorem splitOn_segmentBytes (cs : List Char) :
    (segmentBytes cs).splitOn slashByte = (cs.splitOn '/').map segmentBytes := by
  induction cs with
  | nil => rfl
  | cons c cs ih =>
    obtain ⟨first, rest, hcs⟩ := List.exists_cons_of_ne_nil (List.splitOn_ne_nil '/' cs)
    have hcons : ∀ s, segmentBytes (c :: s) = charBytes c ++ segmentBytes s := by
      intro s
      rw [segmentBytes_eq, segmentBytes_eq, List.flatMap_cons]
    rw [hcons, List.splitOn_cons_eq_if_modifyHead]
    by_cases hc : c = '/'
    · subst hc
      have hslash : charBytes '/' = [slashByte] := by decide
      rw [if_pos (beq_self_eq_true _), hslash, List.singleton_append,
        List.splitOn_cons_eq_if_modifyHead, if_pos (beq_self_eq_true _), ih]
      rfl
    · have hbytes : slashByte ∉ charBytes c := mt slashByte_mem_charBytes_iff.mp hc
      rw [if_neg (by simpa using hc), splitOn_append_of_not_mem hbytes, ih, hcs, List.map_cons,
        List.modifyHead_cons, List.modifyHead_cons, List.map_cons, hcons]

/-- The bytes between the separators are the bytes of the segments. -/
theorem splitOn_textBytes (path : String) :
    (textBytes path).splitOn slashByte = (pathSegments path).map segmentBytes := by
  rw [pathSegments, ← splitOn_segmentBytes, segmentBytes, String.ofList_toList]

theorem pathSegments_inj {s t : String} : pathSegments s = pathSegments t ↔ s = t := by
  refine ⟨fun h => ?_, congrArg pathSegments⟩
  have hchars := congrArg (List.intercalate ['/']) h
  simp only [pathSegments, List.intercalate_splitOn] at hchars
  exact String.toList_inj.mp hchars

theorem segmentMatches_iff_of_literal : ∀ {segment : List Char} {bytes : Bytes},
    '?' ∉ segment → '*' ∉ segment → (SegmentMatches segment bytes ↔ bytes = segmentBytes segment)
  | [], bytes, _, _ => segmentMatches_nil_iff
  | c :: segment, bytes, hany, hstar => by
    rw [List.mem_cons, not_or] at hany hstar
    rw [segmentMatches_cons_iff, segmentBytes_eq, List.flatMap_cons, ← segmentBytes_eq]
    simp only [standsFor_iff_of_ne (Ne.symm hany.1) (Ne.symm hstar.1),
      segmentMatches_iff_of_literal hany.2 hstar.2]
    simp

/-! ## Patterns -/

variable {pattern : String}

theorem accepts_shape_iff {path : String} :
    accepts (shape (pattern.toList.map tokenOf)) (textBytes path) = true ↔
      List.Forall₂ SegmentMatches (pathSegments pattern) ((pathSegments path).map segmentBytes) := by
  rw [accepts_iff, shape_map_tokenOf, tokensShape_matches_iff, splitOn_textBytes, ← pathSegments]

/-- Segments without wildcards match themselves. -/
theorem forall₂_segmentMatches_iff_of_literal (hany : '?' ∉ pattern.toList)
    (hstar : '*' ∉ pattern.toList) {path : String} :
    List.Forall₂ SegmentMatches (pathSegments pattern) ((pathSegments path).map segmentBytes) ↔
      path = pattern := by
  have hsegment : ∀ segment ∈ pathSegments pattern, ∀ bytes,
      SegmentMatches segment bytes ↔ bytes = segmentBytes segment := by
    intro segment hmem bytes
    obtain ⟨_, before, after, hpattern, _⟩ := PartOf.of_mem_splitOn hmem
    have hsub : segment ⊆ pattern.toList := by
      rw [hpattern]
      exact List.Subset.trans (List.subset_append_right before segment)
        (List.subset_append_left _ after)
    exact segmentMatches_iff_of_literal (fun hc => hany (hsub hc)) (fun hc => hstar (hsub hc))
  rw [List.forall₂_map_right_iff]
  constructor
  · intro h
    have hsame : List.Forall₂ (· = ·) (pathSegments pattern) (pathSegments path) :=
      ((List.forall₂_and_left _ _).mpr ⟨hsegment, h⟩).imp fun segment part hpart =>
        (segmentBytes_injective ((hpart.1 _).mp hpart.2)).symm
    exact pathSegments_inj.mp (List.forall₂_eq_eq_eq ▸ hsame).symm
  · rintro rfl
    exact List.forall₂_same.mpr fun segment hmem => (hsegment segment hmem _).mpr rfl

/-- **Wildcards stay inside a segment.** A pattern of plain characters, question marks and single
stars is a glob. It matches the paths that have as many segments as it has, each matching the
segment of the pattern at its place. Without a wildcard it matches itself only, as the exact
pattern of the same text does. -/
theorem ofGlob_segmentwise (h : Wildcards pattern.toList) :
    ∃ p, PathPattern.ofGlob pattern = .ok p ∧
      (∀ path, p.matches? path = true ↔
        List.Forall₂ SegmentMatches (pathSegments pattern)
          ((pathSegments path).map segmentBytes)) ∧
      ('?' ∉ pattern.toList → '*' ∉ pattern.toList → ∀ path,
        (p.matches? path = true ↔ path = pattern) ∧
          p.matches? path = (PathPattern.exact pattern).matches? path) := by
  refine ⟨.glob (shape (pattern.toList.map tokenOf)), ?_, fun path => accepts_shape_iff, ?_⟩
  · rw [PathPattern.ofGlob, read_eq h]
  · intro hany hstar path
    have hpath : (PathPattern.glob _).matches? path = true ↔ path = pattern :=
      accepts_shape_iff.trans (forall₂_segmentMatches_iff_of_literal hany hstar)
    exact ⟨hpath, Bool.eq_iff_iff.mpr (hpath.trans (by simp [PathPattern.matches?, eq_comm]))⟩

/-- A question mark takes one byte of a longer character, and a star ends in front of a
separator. -/
theorem ofGlob_segmentwise_star :
    Wildcards "src/?*".toList ∧ Wildcards "src/app".toList ∧ '?' ∉ "src/app".toList ∧
      '*' ∉ "src/app".toList ∧
      (∃ p, PathPattern.ofGlob "src/?*" = .ok p ∧ p.matches? "src/é" = true ∧
        p.matches? "src/app/lib" = false) ∧
      ∃ p, PathPattern.ofGlob "src/app" = .ok p ∧ p.matches? "src/app" = true ∧
        p.matches? "src/app/lib" = false := by
  have hwild : Wildcards "src/?*".toList := ⟨by simp, by decide +kernel⟩
  have hplain : Wildcards "src/app".toList := ⟨by simp, by decide +kernel⟩
  have hnoAny : '?' ∉ "src/app".toList := by decide
  have hnoStar : '*' ∉ "src/app".toList := by decide
  refine ⟨hwild, hplain, hnoAny, hnoStar, ?_, ?_⟩
  · obtain ⟨p, hp, hmatch, -⟩ := ofGlob_segmentwise hwild
    refine ⟨p, hp, (hmatch _).mpr ?_, ?_⟩
    · have hsrc : SegmentMatches "src".toList (segmentBytes "src".toList) :=
        (segmentMatches_iff_of_literal (by decide) (by decide)).mpr rfl
      have hany : StandsFor '?' [0xc3] := rfl
      have hstar : StandsFor '*' [0xa9] := trivial
      have hpattern : pathSegments "src/?*" = ["src".toList, ['?', '*']] := by decide +kernel
      have hpath : (pathSegments "src/é").map segmentBytes =
          [segmentBytes "src".toList, [0xc3, 0xa9]] := by decide +kernel
      rw [hpattern, hpath]
      exact .cons hsrc (.cons (.cons hany (.cons hstar .nil)) .nil)
    · rw [← Bool.not_eq_true, hmatch]
      intro h
      exact absurd h.length_eq (by decide +kernel)
  · obtain ⟨p, hp, -, hexact⟩ := ofGlob_segmentwise hplain
    refine ⟨p, hp, (hexact hnoAny hnoStar _).1.mpr rfl, ?_⟩
    rw [← Bool.not_eq_true, (hexact hnoAny hnoStar _).1]
    decide

end Provenance.Glob
