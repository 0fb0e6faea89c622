import Provenance.Cipher.Cbc
import Provenance.Proofs.Cipher.Aes

/-!
# Decrypting a message undoes encrypting it

Each block is masked with the encrypted block before it, which is at hand when it is
decrypted, so blocks are recovered one after the other. Padding is recovered from the
last byte: it tells how many there are.

> `decrypt?_encrypt`: under the same key and initial vector, decrypting gives back the
> message.
-/

namespace Provenance.Cbc

/-! ## Padding -/

/-- The bytes that a message is padded with. -/
theorem exists_pad (m : Bytes) : ∃ n, 0 < n ∧ n ≤ blockSize ∧ (m.length + n) % blockSize = 0 ∧
    pad m = m ++ List.replicate n (UInt8.ofNat n) := by
  refine ⟨blockSize - m.length % blockSize, ?_, ?_, ?_, rfl⟩ <;>
    · unfold blockSize
      omega

theorem unpad?_append {m : Bytes} {n : Nat} (hpos : 0 < n) (hle : n ≤ blockSize) :
    unpad? (m ++ List.replicate n (UInt8.ofNat n)) = some m := by
  have hlast : (m ++ List.replicate n (UInt8.ofNat n)).getLast? = some (UInt8.ofNat n) := by
    rw [List.getLast?_append, List.getLast?_replicate, if_neg (by omega)]
    rfl
  have hnat : (UInt8.ofNat n).toNat = n := by
    have hlt : n < 256 := Nat.lt_of_le_of_lt hle (by decide)
    exact UInt8.toNat_ofNat_of_lt' hlt
  have hlength : (m ++ List.replicate n (UInt8.ofNat n)).length - n = m.length := by
    rw [List.length_append, List.length_replicate, Nat.add_sub_cancel]
  have hfits : ¬(n = 0 ∨ blockSize < n ∨ (m ++ List.replicate n (UInt8.ofNat n)).length < n) := by
    rw [List.length_append, List.length_replicate]
    omega
  unfold unpad?
  rw [hlast]
  simp only [hnat, if_neg hfits, hlength, List.drop_left, List.take_left]
  simp

theorem unpad?_pad (m : Bytes) : unpad? (pad m) = some m := by
  obtain ⟨n, hpos, hle, _, hpad⟩ := exists_pad m
  rw [hpad, unpad?_append hpos hle]

theorem length_pad_mod (m : Bytes) : (pad m).length % blockSize = 0 := by
  obtain ⟨n, _, _, hwhole, hpad⟩ := exists_pad m
  rw [hpad, List.length_append, List.length_replicate, hwhole]

/-! ## Blocks -/

section Blocks

variable {keys : List Bytes} (hkeys : ∀ k ∈ keys, k.length = 16)

include hkeys

theorem length_encryptBlocks : ∀ {count : Nat} {previous m : Bytes}, previous.length = blockSize →
    m.length = blockSize * count → (encryptBlocks keys count previous m).length = blockSize * count
  | 0, _, _, _, _ => rfl
  | count + 1, previous, m, hprevious, hm => by
    have hblock : (Aes.xorBytes (m.take blockSize) previous).length = 16 := by
      refine Aes.length_xorBytes ?_ hprevious
      rw [List.length_take, hm]
      unfold blockSize
      omega
    have hrest : (m.drop blockSize).length = blockSize * count := by
      rw [List.length_drop, hm, Nat.mul_succ, Nat.add_sub_cancel]
    have hencrypted := Aes.length_encryptBlock hkeys hblock
    rw [encryptBlocks, List.length_append, hencrypted, length_encryptBlocks hencrypted hrest,
      Nat.mul_succ, Nat.add_comm]
    rfl

theorem decryptBlocks_encryptBlocks : ∀ {count : Nat} {previous m : Bytes},
    previous.length = blockSize → m.length = blockSize * count →
    decryptBlocks keys.reverse count previous (encryptBlocks keys count previous m) = m
  | 0, _, m, _, hm => (List.length_eq_zero_iff.mp hm).symm
  | count + 1, previous, m, hprevious, hm => by
    have hfirst : (m.take blockSize).length = blockSize := by
      rw [List.length_take, hm, Nat.mul_succ]
      omega
    have hblock : (Aes.xorBytes (m.take blockSize) previous).length = 16 :=
      Aes.length_xorBytes hfirst hprevious
    have hrest : (m.drop blockSize).length = blockSize * count := by
      rw [List.length_drop, hm, Nat.mul_succ, Nat.add_sub_cancel]
    have hencrypted : (Aes.encryptBlock keys (Aes.xorBytes (m.take blockSize) previous)).length =
        blockSize := Aes.length_encryptBlock hkeys hblock
    rw [encryptBlocks, decryptBlocks, List.take_left' hencrypted, List.drop_left' hencrypted,
      Aes.decryptBlock_encryptBlock hkeys hblock,
      Aes.xorBytes_xorBytes (Nat.le_of_eq (hfirst.trans hprevious.symm)),
      decryptBlocks_encryptBlocks hencrypted hrest, List.take_append_drop]

end Blocks

section Messages

variable {key iv : Bytes} (hkey : 4 ≤ key.length) (hiv : iv.length = blockSize) (m : Bytes)

theorem pad_blocks : (pad m).length = blockSize * ((pad m).length / blockSize) := by
  have hmod := length_pad_mod m
  unfold blockSize at *
  omega

include hkey hiv

theorem length_encrypt : (encrypt key iv m).length = (pad m).length := by
  rw [encrypt, length_encryptBlocks (Aes.length_of_mem_roundKeys hkey) hiv (pad_blocks m),
    ← pad_blocks]

/-- What is encrypted is decrypted to what it was. -/
theorem decrypt?_encrypt : decrypt? key iv (encrypt key iv m) = some m := by
  have hlength := length_encrypt hkey hiv m
  have hmod : (encrypt key iv m).length % blockSize = 0 := by rw [hlength, length_pad_mod]
  rw [decrypt?, if_pos hmod, hlength, encrypt,
    decryptBlocks_encryptBlocks (Aes.length_of_mem_roundKeys hkey) hiv (pad_blocks m), unpad?_pad]

theorem length_encrypt_le : (encrypt key iv m).length ≤ m.length + blockSize := by
  obtain ⟨n, _, hle, _, hpad⟩ := exists_pad m
  rw [length_encrypt hkey hiv, hpad, List.length_append, List.length_replicate]
  exact Nat.add_le_add_left hle _

end Messages

end Provenance.Cbc
