import Provenance.Cipher.Aes

/-!
# Deciphering a block undoes enciphering it

Every round of the cipher is undone step by step, in the opposite order: the key is its
own inverse, rows are moved back, bytes are substituted back, and columns are multiplied
by the inverse matrix. That the matrices are inverse needs no table. Multiplication is
by sums of doublings, doubling is linear (`double_xor`), and in the product of the
matrices everything but one entry occurs an even number of times (`unmix_row`).

> `decryptBlock_encryptBlock`: under the same round keys, deciphering gives back the
> block;
>
> `length_of_mem_roundKeys`: the round keys of every key are whole blocks.
-/

namespace Provenance.Aes

/-! ## Bytes -/

/-- What holds of the first 256 numbers holds of every byte. -/
theorem forall_byte {P : UInt8 → Prop} (h : ∀ n : Fin 256, P (UInt8.ofNat n)) (b : UInt8) : P b := by
  have hb := h ⟨b.toNat, b.toNat_lt⟩
  rwa [UInt8.ofNat_toNat] at hb

/-- The second table has at each entry of the first the place of the entry. -/
theorem sboxInverse_sbox : sbox.toList.zipIdx.all (fun entry =>
    sboxInverse.toList[entry.1.toNat]? == some (UInt8.ofNat entry.2)) = true := by
  decide +kernel

theorem unsubstitute_substitute (b : UInt8) : unsubstitute (substitute b) = b := by
  have hsize : sbox.size = 256 := by decide +kernel
  have hb : b.toNat < sbox.size := hsize ▸ b.toNat_lt
  have hentry : sbox.toList[b.toNat]? = some (substitute b) := by
    rw [Array.getElem?_toList, Array.getElem?_eq_getElem hb, substitute, getElem!_pos sbox _ hb]
  have hmem := List.mk_mem_zipIdx_iff_getElem?.mpr hentry
  have hinverse := List.all_eq_true.mp sboxInverse_sbox _ hmem
  rw [beq_iff_eq, UInt8.ofNat_toNat, Array.getElem?_toList] at hinverse
  rw [unsubstitute, Array.getElem!_eq_getD, Array.getD_eq_getD_getElem?, hinverse]
  rfl

theorem xor_left_comm (x y z : UInt8) : x ^^^ (y ^^^ z) = y ^^^ (x ^^^ z) := by
  rw [← UInt8.xor_assoc, UInt8.xor_comm x y, UInt8.xor_assoc]

theorem xor_and (x y m : UInt8) : (x ^^^ y) &&& m = (x &&& m) ^^^ (y &&& m) := by
  refine UInt8.toBitVec_inj.mp (BitVec.eq_of_getLsbD_eq fun i _ => ?_)
  simp [Bool.and_xor_distrib_right]

theorem topBit_cases (b : UInt8) : b &&& 0x80 = 0 ∨ b &&& 0x80 = 0x80 :=
  forall_byte (P := fun b => b &&& 0x80 = 0 ∨ b &&& 0x80 = 0x80) (by decide +kernel) b

theorem double_xor (x y : UInt8) : double (x ^^^ y) = double x ^^^ double y := by
  have hshift : (x ^^^ y) <<< 1 = (x <<< 1) ^^^ (y <<< 1) := UInt8.shiftLeft_xor ..
  unfold double
  rw [xor_and, hshift]
  rcases topBit_cases x with hx | hx <;> rcases topBit_cases y with hy | hy <;> rw [hx, hy] <;>
    simp [UInt8.xor_assoc, UInt8.xor_comm, xor_left_comm]

/-! ## Columns -/

/-- The entry of a column that a row of a circulant matrix makes. -/
def row (p q r s : Nat) (a b c d : UInt8) : UInt8 :=
  times p a ^^^ times q b ^^^ times r c ^^^ times s d

theorem mixColumns_cons (p q r s : Nat) (a b c d : UInt8) (rest : Bytes) :
    mixColumns p q r s (a :: b :: c :: d :: rest) =
      row p q r s a b c d :: row p q r s b c d a :: row p q r s c d a b :: row p q r s d a b c ::
        mixColumns p q r s rest := by
  simp only [mixColumns, row, UInt8.xor_assoc, UInt8.xor_comm, xor_left_comm]

theorem ite_xor (p : Prop) [Decidable p] (x y : UInt8) :
    (if p then x ^^^ y else 0) = (if p then x else 0) ^^^ (if p then y else 0) := by
  split <;> simp

theorem times_xor (n : Nat) (x y : UInt8) : times n (x ^^^ y) = times n x ^^^ times n y := by
  simp only [times, double_xor, ite_xor, UInt8.xor_assoc, xor_left_comm]

theorem row_xor (p q r s : Nat) (a b c d a' b' c' d' : UInt8) :
    row p q r s (a ^^^ a') (b ^^^ b') (c ^^^ c') (d ^^^ d') =
      row p q r s a b c d ^^^ row p q r s a' b' c' d' := by
  simp only [row, times_xor, UInt8.xor_assoc, xor_left_comm]

/-- What a byte gives to one entry of the product of the two matrices: itself to its own
entry, nothing to the others. -/
theorem unmix_byte (b : UInt8) :
    row 14 11 13 9 (times 2 b) (times 1 b) (times 1 b) (times 3 b) = b ∧
    row 14 11 13 9 (times 3 b) (times 2 b) (times 1 b) (times 1 b) = 0 ∧
    row 14 11 13 9 (times 1 b) (times 3 b) (times 2 b) (times 1 b) = 0 ∧
    row 14 11 13 9 (times 1 b) (times 1 b) (times 3 b) (times 2 b) = 0 := by
  refine ⟨?_, ?_, ?_, ?_⟩ <;>
    simp [row, times, double_xor, UInt8.xor_assoc, UInt8.xor_comm, xor_left_comm]

theorem unmix_row (a b c d : UInt8) :
    row 14 11 13 9 (row 2 3 1 1 a b c d) (row 2 3 1 1 b c d a) (row 2 3 1 1 c d a b)
      (row 2 3 1 1 d a b c) = a := by
  have hfirst : row 2 3 1 1 a b c d = times 2 a ^^^ times 3 b ^^^ times 1 c ^^^ times 1 d := rfl
  have hsecond : row 2 3 1 1 b c d a = times 1 a ^^^ times 2 b ^^^ times 3 c ^^^ times 1 d := by
    simp only [row, UInt8.xor_assoc, UInt8.xor_comm, xor_left_comm]
  have hthird : row 2 3 1 1 c d a b = times 1 a ^^^ times 1 b ^^^ times 2 c ^^^ times 3 d := by
    simp only [row, UInt8.xor_assoc, UInt8.xor_comm, xor_left_comm]
  have hfourth : row 2 3 1 1 d a b c = times 3 a ^^^ times 1 b ^^^ times 1 c ^^^ times 2 d := by
    simp only [row, UInt8.xor_comm, xor_left_comm]
  rw [hfirst, hsecond, hthird, hfourth, row_xor, row_xor, row_xor, (unmix_byte a).1,
    (unmix_byte b).2.1, (unmix_byte c).2.2.1, (unmix_byte d).2.2.2]
  simp only [UInt8.xor_zero]

theorem unmixColumns_mixColumns : ∀ {block : Bytes}, block.length % 4 = 0 →
    mixColumns 14 11 13 9 (mixColumns 2 3 1 1 block) = block
  | [], _ => rfl
  | a :: b :: c :: d :: rest, h => by
    have hrest : rest.length % 4 = 0 := by
      simp only [List.length_cons] at h
      omega
    rw [mixColumns_cons, mixColumns_cons, unmix_row, unmix_row, unmix_row, unmix_row,
      unmixColumns_mixColumns hrest]

theorem length_mixColumns (p q r s : Nat) : ∀ {block : Bytes}, block.length % 4 = 0 →
    (mixColumns p q r s block).length = block.length
  | [], _ => rfl
  | a :: b :: c :: d :: rest, h => by
    have hrest : rest.length % 4 = 0 := by
      simp only [List.length_cons] at h
      omega
    simp only [mixColumns, List.length_cons, length_mixColumns p q r s hrest]

/-! ## Rows and keys -/

theorem unshiftRows_shiftRows {block : Bytes} (h : block.length = 16) :
    unshiftRows (shiftRows block) = block := by
  match block, h with
  | [_, _, _, _, _, _, _, _, _, _, _, _, _, _, _, _], _ => rfl

theorem length_xorBytes {n : Nat} {x k : Bytes} (hx : x.length = n) (hk : k.length = n) :
    (xorBytes x k).length = n := by
  rw [xorBytes, List.length_zipWith, hx, hk, Nat.min_self]

theorem xorBytes_xorBytes : ∀ {x k : Bytes}, x.length ≤ k.length →
    xorBytes (xorBytes x k) k = x
  | [], _, _ => rfl
  | a :: x, b :: k, h => by
    have hrest := xorBytes_xorBytes (Nat.le_of_succ_le_succ h)
    show (a ^^^ b ^^^ b) :: xorBytes (xorBytes x k) k = a :: x
    rw [UInt8.xor_assoc, UInt8.xor_self, UInt8.xor_zero, hrest]

theorem map_unsubstitute_substitute (block : Bytes) :
    (block.map substitute).map unsubstitute = block := by
  rw [List.map_map]
  exact (List.map_congr_left fun b _ => unsubstitute_substitute b).trans (List.map_id _)

/-! ## Rounds -/

/-- What a round does before it adds its key. -/
def scramble (block : Bytes) : Bytes := shiftRows (block.map substitute)

theorem length_scramble (block : Bytes) : (scramble block).length = 16 := rfl

theorem unscramble_scramble {block : Bytes} (h : block.length = 16) :
    (unshiftRows (scramble block)).map unsubstitute = block := by
  rw [scramble, unshiftRows_shiftRows (by rw [List.length_map, h]), map_unsubstitute_substitute]

/-- The rounds are undone in the opposite order, up to what the first of them has
scrambled; undoing goes on with the keys before it. -/
theorem decryptBlock_encryptRounds : ∀ (keys earlier : List Bytes) {block : Bytes},
    keys ≠ [] → earlier ≠ [] → (∀ k ∈ keys, k.length = 16) → block.length = 16 →
    decryptBlock (keys.reverse ++ earlier) (encryptRounds keys block) =
      decryptRounds earlier (scramble block)
  | [k], earlier, block, _, _, hkeys, _ => by
    have hk : k.length = 16 := hkeys k (List.mem_singleton.mpr rfl)
    show decryptRounds earlier (xorBytes (xorBytes (scramble block) k) k) = _
    rw [xorBytes_xorBytes (hk ▸ Nat.le_refl 16)]
  | k :: k' :: rest, earlier, block, _, hearlier, hkeys, hblock => by
    rw [List.forall_mem_cons] at hkeys
    have hcolumns : (scramble block).length % 4 = 0 := by rw [length_scramble]
    have hlength : (mixColumns 2 3 1 1 (scramble block)).length = 16 :=
      length_mixColumns 2 3 1 1 hcolumns
    have hle : (mixColumns 2 3 1 1 (scramble block)).length ≤ k.length :=
      Nat.le_of_eq (hlength.trans hkeys.1.symm)
    have hnext : (xorBytes (mixColumns 2 3 1 1 (scramble block)) k).length = 16 :=
      length_xorBytes hlength hkeys.1
    have hrest := decryptBlock_encryptRounds (k' :: rest) (k :: earlier)
      (List.cons_ne_nil _ _) (List.cons_ne_nil _ _) hkeys.2 hnext
    obtain ⟨e, earlier, rfl⟩ := List.exists_cons_of_ne_nil hearlier
    rw [List.reverse_cons, List.append_assoc]
    refine hrest.trans ?_
    show decryptRounds (e :: earlier) (mixColumns 14 11 13 9
      (xorBytes ((unshiftRows (scramble _)).map unsubstitute) k)) = _
    rw [unscramble_scramble hnext, xorBytes_xorBytes hle, unmixColumns_mixColumns hcolumns]

theorem decryptBlock_encryptBlock {keys : List Bytes} {block : Bytes}
    (hkeys : ∀ k ∈ keys, k.length = 16) (hblock : block.length = 16) :
    decryptBlock keys.reverse (encryptBlock keys block) = block := by
  cases keys with
  | nil => rfl
  | cons k rest =>
    rw [List.forall_mem_cons] at hkeys
    have hle : block.length ≤ k.length := Nat.le_of_eq (hblock.trans hkeys.1.symm)
    cases rest with
    | nil => exact xorBytes_xorBytes hle
    | cons k' rest =>
      have hstart : (xorBytes block k).length = 16 := length_xorBytes hblock hkeys.1
      have hrounds := decryptBlock_encryptRounds (k' :: rest) [k] (List.cons_ne_nil _ _)
        (List.cons_ne_nil _ _) hkeys.2 hstart
      rw [List.reverse_cons]
      refine hrounds.trans ?_
      show xorBytes ((unshiftRows (scramble _)).map unsubstitute) k = block
      rw [unscramble_scramble hstart, xorBytes_xorBytes hle]

/-! ## Lengths -/

theorem length_encryptRounds : ∀ {keys : List Bytes} {block : Bytes},
    (∀ k ∈ keys, k.length = 16) → block.length = 16 → (encryptRounds keys block).length = 16
  | [], _, _, hblock => hblock
  | [k], block, hkeys, _ => length_xorBytes (length_scramble block) (hkeys k List.mem_cons_self)
  | k :: k' :: rest, block, hkeys, _ => by
    rw [List.forall_mem_cons] at hkeys
    have hlength : (mixColumns 2 3 1 1 (scramble block)).length = 16 :=
      length_mixColumns 2 3 1 1 (by rw [length_scramble])
    show (encryptRounds (k' :: rest) (xorBytes (mixColumns 2 3 1 1 (scramble block)) k)).length = 16
    exact length_encryptRounds hkeys.2 (length_xorBytes hlength hkeys.1)

theorem length_encryptBlock {keys : List Bytes} {block : Bytes}
    (hkeys : ∀ k ∈ keys, k.length = 16) (hblock : block.length = 16) :
    (encryptBlock keys block).length = 16 := by
  cases keys with
  | nil => exact hblock
  | cons k rest =>
    rw [List.forall_mem_cons] at hkeys
    exact length_encryptRounds hkeys.2 (length_xorBytes hblock hkeys.1)

/-! ## Round keys -/

theorem length_of_mem_fours : ∀ {b : Bytes}, ∀ w ∈ fours b, w.length = 4
  | a :: b :: c :: d :: rest, w, hw => by
    rcases List.mem_cons.mp hw with rfl | hw
    · rfl
    · exact length_of_mem_fours w hw
  | [], _, hw | [_], _, hw | [_, _], _, hw | [_, _, _], _, hw => nomatch hw

theorem length_fours : ∀ b : Bytes, (fours b).length = b.length / 4
  | a :: b :: c :: d :: rest => by
    simp only [fours, List.length_cons, length_fours rest]
    omega
  | [] | [_] | [_, _] | [_, _, _] => by simp [fours]

theorem length_scheduleWord {size i : Nat} {constant : UInt8} {previous : Bytes}
    (h : previous.length = 4) : (scheduleWord size i constant previous).length = 4 := by
  match previous, h with
  | [a, b, c, d], _ =>
    unfold scheduleWord
    split
    · rfl
    · split <;> rfl

/-- The words of the expanded key are words, for each is made of words before it. -/
theorem length_of_mem_expandFrom {size : Nat} (hsize : 0 < size) :
    ∀ {count i : Nat} {constant : UInt8} {acc : Array Bytes}, size ≤ i → acc.size = i →
      (∀ w ∈ acc, w.length = 4) → ∀ w ∈ expandFrom size count i constant acc, w.length = 4
  | 0, _, _, _, _, _, hacc => hacc
  | count + 1, i, constant, acc, hi, hacc, hwords => by
    have hat : ∀ j < acc.size, (acc[j]!).length = 4 := by
      intro j hj
      rw [getElem!_pos acc j hj]
      exact hwords _ (Array.getElem_mem hj)
    have hword : (xorBytes acc[i - size]! (scheduleWord size i constant acc[i - 1]!)).length = 4 :=
      length_xorBytes (hat _ (by omega)) (length_scheduleWord (hat _ (by omega)))
    rw [expandFrom]
    refine length_of_mem_expandFrom hsize (by omega) (by rw [Array.size_push, hacc]) ?_
    intro w hw
    rcases Array.mem_push.mp hw with hw | rfl
    · exact hwords w hw
    · exact hword

theorem length_of_mem_joinFours : ∀ {words : List Bytes}, (∀ w ∈ words, w.length = 4) →
    ∀ k ∈ joinFours words, k.length = 16
  | a :: b :: c :: d :: rest, hwords, k, hk => by
    simp only [List.forall_mem_cons] at hwords
    obtain ⟨ha, hb, hc, hd, hrest⟩ := hwords
    rcases List.mem_cons.mp hk with rfl | hk
    · simp only [List.length_append, ha, hb, hc, hd]
    · exact length_of_mem_joinFours hrest k hk
  | [], _, _, hk | [_], _, _, hk | [_, _], _, _, hk | [_, _, _], _, _, hk => nomatch hk

theorem length_of_mem_roundKeys {key : Bytes} (hkey : 4 ≤ key.length) :
    ∀ k ∈ roundKeys key, k.length = 16 := by
  have hsize : 0 < key.length / 4 := by omega
  refine length_of_mem_joinFours fun w hw => ?_
  refine length_of_mem_expandFrom hsize (Nat.le_refl _) ?_ ?_ w (Array.mem_toList_iff.mp hw)
  · rw [List.size_toArray, length_fours]
  · exact fun w hw => length_of_mem_fours w (List.mem_toArray.mp hw)

end Provenance.Aes
