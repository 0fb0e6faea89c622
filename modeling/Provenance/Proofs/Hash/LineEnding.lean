import Provenance.Hash.LineEnding

/-!
# Normalized line endings

A content comes in parts and is finished, and then the next content may come
(`passAll`). What is put out for a content is the content with every line ended by LF:

> `passAll_canonical`: it has no CR, has one byte less for each CR before an LF, and is
> not changed by passing it again; lines are put out the same whichever way they were
> ended; and no content leaves a trace for the next one.

Nothing depends on the parts (`pass_eq`), so the rest is about `normalize`. A CR is a
line end by itself unless an LF follows, and so a line end can be told from the line
behind it only because that line has neither (`normalize_lineEnd`).
-/

namespace Provenance.LineEnding

/-! ## Contents in parts -/

/-- Pushes parts one after the other. -/
def pushAll (waiting : Bool) : List Bytes → Bytes × Bool
  | [] => ([], waiting)
  | part :: rest =>
    let pushed := push waiting part
    let others := pushAll pushed.2 rest
    (pushed.1 ++ others.1, others.2)

/-- Pushes the parts of a content and finishes it: what is put out, and whether a CR waits
after it. -/
def pass (waiting : Bool) (parts : List Bytes) : Bytes × Bool :=
  let pushed := pushAll waiting parts
  let finished := finish pushed.2
  (pushed.1 ++ finished.1, finished.2)

/-- Passes contents one after the other: what is put out for each, and whether a CR waits
after them. -/
def passAll (waiting : Bool) : List (List Bytes) → List Bytes × Bool
  | [] => ([], waiting)
  | parts :: rest =>
    let passed := pass waiting parts
    let others := passAll passed.2 rest
    (passed.1 :: others.1, others.2)

theorem pushAll_eq (waiting : Bool) (parts : List Bytes) :
    pushAll waiting parts = push waiting parts.flatten := by
  induction parts generalizing waiting with
  | nil => rfl
  | cons part rest ih => rw [pushAll, ih, List.flatten_cons, push_append]

/-- What is put out depends on the content alone, and nothing waits after it. -/
theorem pass_eq (parts : List Bytes) : pass false parts = (normalize parts.flatten, false) := by
  rw [← push_flush, pass, pushAll_eq]
  rfl

theorem passAll_eq (contents : List (List Bytes)) :
    passAll false contents = (contents.map fun parts => (pass false parts).1, false) := by
  induction contents with
  | nil => rfl
  | cons parts rest ih =>
    have hafter : (pass false parts).2 = false := by rw [pass_eq]
    rw [passAll, hafter, ih, List.map_cons]

/-! ## The normalized content -/

/-- The number of CRs before an LF. -/
def crlfPairs (content : Bytes) : Nat := (content.zip content.tail).count (cr, lf)

theorem crlfPairs_cons_cons (b c : UInt8) (rest : Bytes) :
    crlfPairs (b :: c :: rest) = crlfPairs (c :: rest) + if b = cr ∧ c = lf then 1 else 0 := by
  simp [crlfPairs, List.count_cons]

theorem cr_not_mem_normalize (content : Bytes) : cr ∉ normalize content := by
  have hlf : cr ≠ lf := by decide
  fun_induction normalize content with
  | case1 => exact List.not_mem_nil
  | case2 b =>
    rw [List.mem_singleton]
    split
    · exact hlf
    · next hb => exact Ne.symm hb
  | case3 rest ih => exact List.not_mem_cons_of_ne_of_not_mem hlf ih
  | case4 c rest hc ih => exact List.not_mem_cons_of_ne_of_not_mem hlf ih
  | case5 b c rest hb ih => exact List.not_mem_cons_of_ne_of_not_mem (Ne.symm hb) ih

/-- For each CR before an LF there is one byte less. -/
theorem length_normalize (content : Bytes) :
    (normalize content).length + crlfPairs content = content.length := by
  fun_induction normalize content with
  | case1 => rfl
  | case2 b => rfl
  | case3 rest ih =>
    -- the LF of a pair is not the CR of another one
    have hrest : crlfPairs (lf :: rest) = crlfPairs rest := by
      cases rest with
      | nil => rfl
      | cons c rest => rw [crlfPairs_cons_cons, if_neg (by simp [lf, cr]), Nat.add_zero]
    rw [crlfPairs_cons_cons, hrest, if_pos ⟨rfl, rfl⟩]
    simp only [List.length_cons]
    omega
  | case4 c rest hc ih =>
    rw [crlfPairs_cons_cons, if_neg fun h => hc h.2]
    simp only [List.length_cons] at ih ⊢
    omega
  | case5 b c rest hb ih =>
    rw [crlfPairs_cons_cons, if_neg fun h => hb h.1]
    simp only [List.length_cons] at ih ⊢
    omega

/-- What has no CR is put out as it is, whatever comes behind it. -/
theorem normalize_append {line : Bytes} (h : cr ∉ line) (rest : Bytes) :
    normalize (line ++ rest) = line ++ normalize rest := by
  induction line with
  | nil => rfl
  | cons b line ih =>
    have hb : b ≠ cr := fun heq => h (heq ▸ List.mem_cons_self)
    rw [List.cons_append, List.cons_append, ← ih fun hmem => h (List.mem_cons_of_mem _ hmem)]
    cases line ++ rest with
    | nil =>
      show [if b = cr then lf else b] = [b]
      rw [if_neg hb]
    | cons c rest => rw [normalize, if_neg hb]

theorem normalize_of_not_mem {content : Bytes} (h : cr ∉ content) :
    normalize content = content := by
  have happend := normalize_append h []
  rwa [List.append_nil, normalize, List.append_nil] at happend

/-! ## Lines -/

/-- The ways to end a line. -/
def lineEnds : List Bytes := [[lf], [cr, lf], [cr]]

/-- Lines that have no line end in them. -/
def AreLines (lines : List Bytes) : Prop := ∀ line ∈ lines, cr ∉ line ∧ lf ∉ line

/-- Every line with its end. -/
def terminated (ending : Bytes) (lines : List Bytes) : Bytes := lines.flatMap (· ++ ending)

/-- Lines with an end between any two of them. -/
def joined (ending : Bytes) (lines : List Bytes) : Bytes := ending.intercalate lines

theorem normalize_lineEnd {ending rest : Bytes} (h : ending ∈ lineEnds)
    (hrest : ending = [cr] → lf ∉ rest) : normalize (ending ++ rest) = lf :: normalize rest := by
  simp only [lineEnds, List.mem_cons, List.not_mem_nil, or_false] at h
  rcases h with rfl | rfl | rfl
  · exact normalize_append (by decide) rest
  · rfl
  · cases rest with
    | nil => rfl
    | cons c rest =>
      have hc : c ≠ lf := fun heq => hrest rfl (heq ▸ List.mem_cons_self)
      show normalize (cr :: c :: rest) = _
      rw [normalize, if_pos rfl, if_neg hc]

theorem lf_not_mem_terminated {lines : List Bytes} (h : AreLines lines) :
    lf ∉ terminated [cr] lines := by
  intro hmem
  obtain ⟨line, hline, hmem⟩ := List.mem_flatMap.mp hmem
  rcases List.mem_append.mp hmem with hmem | hmem
  · exact (h line hline).2 hmem
  · exact absurd (List.mem_singleton.mp hmem) (by decide)

/-- Lines with their ends, and a last line that has none. -/
theorem normalize_terminated_append {ending last : Bytes} (hending : ending ∈ lineEnds)
    (hlast : cr ∉ last ∧ lf ∉ last) : ∀ {lines : List Bytes}, AreLines lines →
      normalize (terminated ending lines ++ last) = terminated [lf] lines ++ last
  | [], _ => normalize_of_not_mem hlast.1
  | line :: rest, h => by
    obtain ⟨hline, hrest⟩ := List.forall_mem_cons.mp h
    have hnext : ending = [cr] → lf ∉ terminated ending rest ++ last := by
      intro hcr
      rw [hcr, List.mem_append]
      exact not_or.mpr ⟨lf_not_mem_terminated hrest, hlast.2⟩
    have hsplit : ∀ ending, terminated ending (line :: rest) ++ last =
        line ++ (ending ++ (terminated ending rest ++ last)) := by
      intro ending
      simp only [terminated, List.flatMap_cons, List.append_assoc]
    rw [hsplit, hsplit, normalize_append hline.1, normalize_lineEnd hending hnext,
      normalize_terminated_append hending hlast hrest]
    rfl

theorem joined_concat (ending last : Bytes) : ∀ lines : List Bytes,
    joined ending (lines ++ [last]) = terminated ending lines ++ last
  | [] => List.intercalate_singleton
  | [line] => by simp [joined, terminated, List.intercalate_cons_cons]
  | line :: next :: rest => by
    have ih := joined_concat ending last (next :: rest)
    rw [joined, List.cons_append, List.cons_append, List.intercalate_cons_cons,
      ← List.cons_append]
    show _ ++ joined ending _ = _
    rw [ih]
    simp only [terminated, List.flatMap_cons, List.append_assoc]

theorem normalize_terminated {ending : Bytes} (hending : ending ∈ lineEnds) {lines : List Bytes}
    (h : AreLines lines) : normalize (terminated ending lines) = terminated [lf] lines := by
  have hnil : cr ∉ ([] : Bytes) ∧ lf ∉ ([] : Bytes) := ⟨List.not_mem_nil, List.not_mem_nil⟩
  have happend := normalize_terminated_append hending hnil h
  rwa [List.append_nil, List.append_nil] at happend

theorem normalize_joined {ending : Bytes} (hending : ending ∈ lineEnds) {lines : List Bytes}
    (h : AreLines lines) : normalize (joined ending lines) = joined [lf] lines := by
  rcases List.eq_nil_or_concat lines with rfl | ⟨before, last, rfl⟩
  · rfl
  · rw [List.concat_eq_append] at h ⊢
    rw [joined_concat, joined_concat]
    refine normalize_terminated_append hending (h last (by simp)) fun line hline => ?_
    exact h line (List.mem_append_left _ hline)

/-! ## The normal form -/

/-- **Normalized line endings are canonical.** Whatever the parts of a content, what is
put out has no CR, and one byte less than the content for each CR before an LF; it is put
out again as it is, and so is every content without CR. Lines that are joined or
terminated are put out joined or terminated by LF, whichever the line end was. A content
that is finished leaves nothing behind, so one normalizer does for any number of contents
what a new one would do for each. -/
theorem passAll_canonical :
    (∀ parts : List Bytes, ∃ out, pass false parts = (out, false) ∧ cr ∉ out ∧
      out.length + crlfPairs parts.flatten = parts.flatten.length ∧
      (∀ again : List Bytes, again.flatten = out → pass false again = (out, false)) ∧
      (cr ∉ parts.flatten → out = parts.flatten)) ∧
    (∀ lines, AreLines lines → ∀ ending ∈ lineEnds, ∀ parts : List Bytes,
      (parts.flatten = joined ending lines → pass false parts = (joined [lf] lines, false)) ∧
      (parts.flatten = terminated ending lines →
        pass false parts = (terminated [lf] lines, false))) ∧
    (∀ waiting parts, (pass waiting parts).2 = false) ∧
    ∀ contents, passAll false contents =
      (contents.map fun parts => (pass false parts).1, false) := by
  refine ⟨fun parts => ?_, fun lines hlines ending hending parts => ⟨?_, ?_⟩,
    fun _ _ => rfl, passAll_eq⟩
  · have hcr := cr_not_mem_normalize parts.flatten
    refine ⟨normalize parts.flatten, pass_eq parts, hcr, length_normalize _, fun again h => ?_,
      normalize_of_not_mem⟩
    rw [pass_eq, h, normalize_of_not_mem hcr]
  · intro h
    rw [pass_eq, h, normalize_joined hending hlines]
  · intro h
    rw [pass_eq, h, normalize_terminated hending hlines]

/-- Two lines with an empty one between them: joined by CR and LF and parted inside a line
end, terminated by CR, and joined by LF as they are put out. -/
theorem partedLines_pass :
    AreLines [[97], [], [98]] ∧ [cr, lf] ∈ lineEnds ∧ [cr] ∈ lineEnds ∧
    pass false [[97, 13], [10, 13, 10, 98]] = ([97, 10, 10, 98], false) ∧
    pass false [[97, 13], [13, 98], [13]] = ([97, 10, 10, 98, 10], false) ∧
    ∃ out, pass false [[97, 10], [10, 98]] = (out, false) ∧ out = [97, 10, 10, 98] ∧
      pass false [[97, 10, 10], [98]] = (out, false) := by
  have hlines : AreLines [[97], [], [98]] := by
    unfold AreLines
    decide
  have hcrlf : [cr, lf] ∈ lineEnds := by decide
  have hcr : [cr] ∈ lineEnds := by decide
  obtain ⟨hparts, hlined, _⟩ := passAll_canonical
  obtain ⟨out, hout, _, _, hagain, hsame⟩ := hparts [[97, 10], [10, 98]]
  have hkept : out = [97, 10, 10, 98] := hsame (by decide)
  exact ⟨hlines, hcrlf, hcr, (hlined _ hlines _ hcrlf _).1 rfl, (hlined _ hlines _ hcr _).2 rfl,
    out, hout, hkept, hagain _ hkept.symm⟩

end Provenance.LineEnding
