import Provenance.Der.Basic

/-!
# Elements are read as they were written

An element is its tag, the length of its content and the content, so the reader knows
where it ends whatever comes after it (`read?_bytes_append`), and elements written one
after the other are read one after the other (`items?_sequence`). Lengths and whole
numbers are written in the fewest bytes:

> `readLength?_lengthBytes`, `unsigned?_unsigned`: they are read as they were written.
-/

namespace Provenance

theorem beNat_append (b : Bytes) (x : UInt8) : beNat (b ++ [x]) = beNat b * 256 + x.toNat := by
  rw [beNat, List.foldl_append]
  rfl

theorem beNat_beBytes : ∀ {count n : Nat}, n < Nat.pow 256 count → beNat (beBytes count n) = n
  | 0, n, h => (Nat.lt_one_iff.mp h).symm
  | count + 1, n, h => by
    have hdiv : n / 256 < Nat.pow 256 count := Nat.div_lt_of_lt_mul (Nat.mul_comm _ _ ▸ h)
    rw [beBytes, beNat_append, beNat_beBytes hdiv, UInt8.toNat_ofNat']
    omega

namespace Der

/-! ## Lengths -/

/-- A length in several bytes, after the byte that tells their number. -/
theorem readLength?_long {count n : Nat} {rest : Bytes} {first : UInt8}
    (hfirst : first.toNat = 0x80 + count) (hcount : count ≠ 0 ∧ count ≤ 4)
    (hlength : lengthBytes n = first :: beBytes count n) (hn : n < Nat.pow 256 count)
    (hmax : n ≤ maxLength) :
    readLength? (first :: beBytes count n ++ rest) = some (n, rest) := by
  have hnot : ¬first < 0x80 := by
    rw [UInt8.lt_iff_toNat_lt, hfirst]
    exact Nat.not_lt.mpr (Nat.le_add_right _ _)
  have hsub : first.toNat - 0x80 = count := by
    rw [hfirst, Nat.add_sub_cancel_left]
  have htake : (beBytes count n ++ rest).take count = beBytes count n :=
    List.take_left' (length_beBytes count n)
  have hdrop : (beBytes count n ++ rest).drop count = rest :=
    List.drop_left' (length_beBytes count n)
  have hroom : ¬(count = 0 ∨ 4 < count ∨ (beBytes count n ++ rest).length < count) := by
    rw [List.length_append, length_beBytes]
    omega
  rw [List.cons_append, readLength?, if_neg hnot]
  simp only [hsub, if_neg hroom, htake, hdrop, beNat_beBytes hn, hlength, hmax, and_self, if_true]

theorem readLength?_lengthBytes {n : Nat} (hmax : n ≤ maxLength) (rest : Bytes) :
    readLength? (lengthBytes n ++ rest) = some (n, rest) := by
  by_cases h1 : n < 0x80
  · have hfirst : (UInt8.ofNat n).toNat = n := UInt8.toNat_ofNat_of_lt' (Nat.lt_trans h1 (by decide))
    have hlt : UInt8.ofNat n < 0x80 := by
      rw [UInt8.lt_iff_toNat_lt, hfirst]
      exact h1
    rw [lengthBytes, if_pos h1, List.singleton_append, readLength?, if_pos hlt, hfirst]
  by_cases h2 : n < 0x100
  · have hlength : lengthBytes n = 0x81 :: beBytes 1 n := by
      rw [lengthBytes, if_neg h1, if_pos h2]
    rw [hlength]
    exact readLength?_long rfl (by decide) hlength h2 hmax
  by_cases h3 : n < 0x10000
  · have hlength : lengthBytes n = 0x82 :: beBytes 2 n := by
      rw [lengthBytes, if_neg h1, if_neg h2, if_pos h3]
    rw [hlength]
    exact readLength?_long rfl (by decide) hlength h3 hmax
  by_cases h4 : n < 0x1000000
  · have hlength : lengthBytes n = 0x83 :: beBytes 3 n := by
      rw [lengthBytes, if_neg h1, if_neg h2, if_neg h3, if_pos h4]
    rw [hlength]
    exact readLength?_long rfl (by decide) hlength h4 hmax
  · have hlength : lengthBytes n = 0x84 :: beBytes 4 n := by
      rw [lengthBytes, if_neg h1, if_neg h2, if_neg h3, if_neg h4]
    rw [hlength]
    exact readLength?_long rfl (by decide) hlength (Nat.lt_of_le_of_lt hmax (by decide)) hmax

/-! ## Elements -/

/-- The element can be written: it has a tag, and its content is not too long. -/
structure Element.Writable (e : Element) : Prop where
  tag : isTag e.tag = true
  length : e.content.length ≤ maxLength

theorem read?_bytes_append {e : Element} (h : e.Writable) (rest : Bytes) :
    Element.read? (e.bytes ++ rest) = some (e, rest) := by
  rw [Element.bytes, List.cons_append, List.append_assoc, Element.read?, if_pos h.tag,
    readLength?_lengthBytes h.length]
  have hroom : ¬(e.content ++ rest).length < e.content.length := by
    rw [List.length_append]
    omega
  simp only [if_neg hroom, List.take_left, List.drop_left]

theorem single?_bytes {e : Element} (h : e.Writable) : single? e.bytes = some e := by
  have hread := read?_bytes_append h []
  rw [List.append_nil] at hread
  rw [single?, hread]

/-- One element is read, and then what follows it. -/
theorem elementsFrom?_of_read? {fuel : Nat} {e : Element} {rest : Bytes} :
    ∀ {b : Bytes}, Element.read? b = some (e, rest) →
      elementsFrom? (fuel + 1) b = (elementsFrom? fuel rest).map (e :: ·)
  | [], h => nomatch h
  | _ :: _, h => by
    rw [elementsFrom?, h]
    exact List.cons_ne_nil _ _

theorem elementsFrom?_flatMap : ∀ {items : List Element} {fuel : Nat}, (∀ e ∈ items, e.Writable) →
    items.length ≤ fuel → elementsFrom? fuel (items.flatMap Element.bytes) = some items
  | [], fuel, _, _ => by
    cases fuel <;> rfl
  | e :: rest, fuel + 1, h, hfuel => by
    rw [List.forall_mem_cons] at h
    have hread := read?_bytes_append h.1 (rest.flatMap Element.bytes)
    have hrest := elementsFrom?_flatMap h.2 (Nat.le_of_succ_le_succ hfuel)
    rw [List.flatMap_cons, elementsFrom?_of_read? hread, hrest, Option.map_some]

theorem length_le_flatMap (items : List Element) :
    items.length ≤ (items.flatMap Element.bytes).length := by
  induction items with
  | nil => exact Nat.le_refl 0
  | cons e rest ih =>
    rw [List.flatMap_cons, List.length_append, List.length_cons, Element.bytes, List.length_cons]
    omega

theorem items?_sequence {items : List Element} (h : ∀ e ∈ items, e.Writable) :
    (sequence items).items? = some items :=
  elementsFrom?_flatMap h (length_le_flatMap items)

theorem octets?_octets (b : Bytes) : (octets b).octets? = some b := rfl

/-! ## Whole numbers -/

/-- The fewest bytes of a number: one, or as many that the first is not zero. -/
theorem shortBytes_cases : ∀ {size n : Nat}, n < Nat.pow 256 (size + 1) →
    ∃ count, count ≤ size ∧ n < Nat.pow 256 (count + 1) ∧
      shortBytes (size + 1) n = beBytes (count + 1) n ∧ (count ≠ 0 → Nat.pow 256 count ≤ n)
  | 0, n, h => ⟨0, Nat.le_refl 0, h, by simp [shortBytes], fun h => absurd rfl h⟩
  | size + 1, n, h => by
    by_cases hsmall : n < Nat.pow 256 (size + 1)
    · obtain ⟨count, hle, hlt, hbytes, hfewest⟩ := shortBytes_cases hsmall
      refine ⟨count, Nat.le_succ_of_le hle, hlt, ?_, hfewest⟩
      rw [shortBytes, if_pos ⟨hsmall, Nat.succ_ne_zero size⟩, hbytes]
    · refine ⟨size + 1, Nat.le_refl _, h, ?_, fun _ => Nat.le_of_not_lt hsmall⟩
      rw [shortBytes, if_neg fun h => hsmall h.1]

/-- The first byte is what is left of the number without the other bytes. -/
theorem beBytes_succ : ∀ (count n : Nat), ∃ rest, rest.length = count ∧
    beBytes (count + 1) n = UInt8.ofNat (n / Nat.pow 256 count) :: rest
  | 0, n => ⟨[], rfl, by simp [beBytes]⟩
  | count + 1, n => by
    obtain ⟨rest, hlength, hrest⟩ := beBytes_succ count (n / 256)
    refine ⟨rest ++ [UInt8.ofNat n], by rw [List.length_append, hlength]; rfl, ?_⟩
    rw [beBytes, hrest, Nat.div_div_eq_div_mul, Nat.mul_comm]
    rfl

/-- Bytes of which the first is not zero, unless it is the only one, are read as their
number, whether or not a zero has to stand before them. -/
theorem unsigned?_content {size : Nat} {b : UInt8} {rest : Bytes} (hsize : rest.length ≤ size)
    (hfewest : rest ≠ [] → b ≠ 0) :
    (⟨integerTag, unsignedContent (b :: rest)⟩ : Element).unsigned? (size + 1) =
      some (beNat (b :: rest)) := by
  by_cases hsign : b < 0x80
  · have hlength : (b :: rest).length ≤ size + 1 + 1 := by
      rw [List.length_cons]
      omega
    rw [unsignedContent, if_pos hsign, Element.unsigned?, if_pos ⟨rfl, hlength⟩]
    cases rest with
    | nil =>
      show (if b < 0x80 then some b.toNat else none) = some (beNat [b])
      rw [if_pos hsign]
      simp [beNat]
    | cons c rest =>
      have hroom : rest.length + 2 ≤ size + 1 := by
        rw [List.length_cons] at hsize
        omega
      simp only [if_neg (hfewest (List.cons_ne_nil c rest)), if_pos (And.intro hsign hroom)]
  · have hlength : (0 :: b :: rest).length ≤ size + 1 + 1 := by
      rw [List.length_cons, List.length_cons]
      omega
    rw [unsignedContent, if_neg hsign, Element.unsigned?, if_pos ⟨rfl, hlength⟩]
    simp only [if_true, if_neg hsign]

theorem unsigned?_unsigned {size n : Nat} (h : n < Nat.pow 256 (size + 1)) :
    (unsigned (size + 1) n).unsigned? (size + 1) = some n := by
  obtain ⟨count, hle, hlt, hbytes, hfewest⟩ := shortBytes_cases h
  obtain ⟨rest, hrest, hsplit⟩ := beBytes_succ count n
  have hnat := beNat_beBytes hlt
  rw [hsplit] at hnat
  rw [unsigned, hbytes, hsplit, unsigned?_content (hrest ▸ hle) ?_, hnat]
  intro hne hzero
  have hcount : count ≠ 0 := by
    rw [← hrest]
    exact fun h => hne (List.length_eq_zero_iff.mp h)
  have hfirst : (UInt8.ofNat (n / Nat.pow 256 count)).toNat = n / Nat.pow 256 count :=
    UInt8.toNat_ofNat_of_lt' (Nat.div_lt_of_lt_mul hlt)
  have hpos : 0 < n / Nat.pow 256 count :=
    Nat.div_pos (hfewest hcount) (Nat.pow_pos (by decide))
  rw [hzero] at hfirst
  exact Nat.ne_of_lt hpos hfirst

end Der

end Provenance
