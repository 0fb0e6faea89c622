import Provenance.Cipher.Aes

/-!
# Chained encryption of whole messages

A message is padded to whole blocks, each padding byte telling the length of the padding, and every
block is masked with the encrypted block before it; the first one with an initial vector. Decryption
refuses a text that is not whole blocks, no block at all, and padding that is not as it was written.
-/

namespace Provenance.Cbc

/-- Bytes in a block. -/
def blockSize : Nat := 16

/-- The message with one to sixteen bytes of padding. -/
def pad (m : Bytes) : Bytes :=
  let n := blockSize - m.length % blockSize
  m ++ List.replicate n (UInt8.ofNat n)

/-- The message without its padding. -/
def unpad? (m : Bytes) : Option Bytes :=
  match m.getLast? with
  | none => none
  | some last =>
    let n := last.toNat
    if n = 0 ∨ blockSize < n ∨ m.length < n then none
    else
      let kept := m.length - n
      if (m.drop kept).all (· = last) then some (m.take kept) else none

/-- Encrypts `count` blocks. -/
def encryptBlocks (keys : List Bytes) : (count : Nat) → (previous : Bytes) → Bytes → Bytes
  | 0, _, _ => []
  | count + 1, previous, m =>
    let block := Aes.encryptBlock keys (Aes.xorBytes (m.take blockSize) previous)
    block ++ encryptBlocks keys count block (m.drop blockSize)

/-- Decrypts `count` blocks, given the expanded keys last first. -/
def decryptBlocks (keys : List Bytes) : (count : Nat) → (previous : Bytes) → Bytes → Bytes
  | 0, _, _ => []
  | count + 1, previous, c =>
    let block := c.take blockSize
    Aes.xorBytes (Aes.decryptBlock keys block) previous
      ++ decryptBlocks keys count block (c.drop blockSize)

/-- Encrypts a message under a key and an initial vector. -/
def encrypt (key iv m : Bytes) : Bytes :=
  let m := pad m
  encryptBlocks (Aes.roundKeys key) (m.length / blockSize) iv m

/-- The message of an encrypted text, if its padding is right. -/
def decrypt? (key iv c : Bytes) : Option Bytes :=
  if c.length % blockSize = 0 then
    unpad? (decryptBlocks (Aes.roundKeys key).reverse (c.length / blockSize) iv c)
  else none

end Provenance.Cbc
