import Provenance.Bytes

/-!
# Texts and their bytes

`textBytes` writes one character after the other, and `bytesText?` reads back what it wrote.
An ASCII byte is never a part of a longer character:

> `utf8EncodeChar_eq_singleton_of_mem`: the bytes of a character that has an ASCII byte are
> that byte alone.
-/

namespace Provenance

theorem textBytes_ofList (cs : List Char) :
    textBytes (String.ofList cs) = cs.flatMap String.utf8EncodeChar := by
  simp [textBytes, List.utf8Encode]

theorem length_textBytes_ofList_le (cs : List Char) :
    (textBytes (String.ofList cs)).length ≤ 4 * cs.length := by
  rw [textBytes_ofList]
  induction cs with
  | nil => exact Nat.le_refl 0
  | cons c cs ih =>
    have hc : (String.utf8EncodeChar c).length ≤ 4 := by
      rw [String.length_utf8EncodeChar]
      exact Char.utf8Size_le_four c
    rw [List.flatMap_cons, List.length_append, List.length_cons]
    omega

theorem bytesText?_textBytes (s : String) : bytesText? (textBytes s) = some s := by
  have hbytes : (textBytes s).toByteArray = s.toByteArray := by
    refine ByteArray.ext (Array.toList_inj.mp ?_)
    simp [textBytes]
  rw [bytesText?, hbytes, String.fromUTF8?, dif_pos s.isValidUTF8]
  rfl

theorem bytesText?_eq_some_iff {bytes : Bytes} {s : String} :
    bytesText? bytes = some s ↔ bytes = textBytes s := by
  constructor
  · intro h
    rw [bytesText?, String.fromUTF8?] at h
    split at h
    · next hvalid =>
      rw [← Option.some.inj h]
      simp [textBytes, String.fromUTF8]
    · exact nomatch h
  · rintro rfl
    exact bytesText?_textBytes s

theorem textBytes_inj {s t : String} : textBytes s = textBytes t ↔ s = t := by
  refine ⟨fun h => ?_, congrArg textBytes⟩
  have hread := congrArg bytesText? h
  rw [bytesText?_textBytes, bytesText?_textBytes] at hread
  exact Option.some.inj hread

/-- A character with an ASCII byte has no other: the bytes of longer ones are all above. -/
theorem utf8EncodeChar_eq_singleton_of_mem {b : UInt8} (hb : b.toNat < 128) {c : Char}
    (h : b ∈ String.utf8EncodeChar c) : String.utf8EncodeChar c = [b] := by
  have hhigh : ∀ n, 128 ≤ n → n < 256 → b ≠ UInt8.ofNat n := by
    rintro n hn hlt rfl
    rw [UInt8.toNat_ofNat'] at hb
    omega
  simp only [String.utf8EncodeChar] at h ⊢
  by_cases hone : c.val.toNat ≤ 127
  · rw [if_pos hone] at h ⊢
    rw [List.mem_singleton.mp h]
  · exfalso
    rw [if_neg hone] at h
    -- a first byte is at least 192, and every other one at least 128
    by_cases htwo : c.val.toNat ≤ 2047
    · rw [if_pos htwo] at h
      simp only [List.mem_cons, List.not_mem_nil, or_false] at h
      rcases h with h | h <;> exact hhigh _ (by omega) (by omega) h
    · rw [if_neg htwo] at h
      by_cases hthree : c.val.toNat ≤ 65535
      · rw [if_pos hthree] at h
        simp only [List.mem_cons, List.not_mem_nil, or_false] at h
        rcases h with h | h | h <;> exact hhigh _ (by omega) (by omega) h
      · rw [if_neg hthree] at h
        simp only [List.mem_cons, List.not_mem_nil, or_false] at h
        rcases h with h | h | h | h <;> exact hhigh _ (by omega) (by omega) h

end Provenance
