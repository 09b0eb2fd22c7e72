import ManagedDirectory.Codec.Utf8

/-!
# Signatures and digests

What a program sees of an Ed25519 library and of SHA-256: keys and signatures are byte strings
of fixed length, and a signature either verifies or it does not. `Crypto.Correct` says that a
key accepts its own signatures.

`prefixCrypto` and `ledgerCrypto` are transparent instances for evaluating programs on concrete
inputs: the first is correct, the second unforgeable beyond its ledger.
-/

namespace ManagedDirectory.Lib

open Codec

structure Crypto where
  publicKey : Bytes → Bytes
  isKey : Bytes → Bool
  sign : Bytes → Bytes → Bytes
  verify : (key message signature : Bytes) → Bool
  sha256 : Bytes → Bytes
  length_publicKey : ∀ sk, (publicKey sk).length = 32
  isKey_publicKey : ∀ sk, isKey (publicKey sk) = true
  length_sign : ∀ sk m, (sign sk m).length = 64
  length_sha256 : ∀ m, (sha256 m).length = 32

def Crypto.Correct (C : Crypto) : Prop :=
  ∀ sk m, C.verify (C.publicKey sk) m (C.sign sk m) = true

@[ext] structure VerifyingKey (C : Crypto) where
  bytes : Bytes
  length_eq : bytes.length = 32
  isKey_eq : C.isKey bytes = true

instance (C : Crypto) : DecidableEq (VerifyingKey C) := fun a b =>
  decidable_of_iff (a.bytes = b.bytes) VerifyingKey.ext_iff.symm

def Crypto.verifyingKey (C : Crypto) (sk : Bytes) : VerifyingKey C :=
  ⟨C.publicKey sk, C.length_publicKey sk, C.isKey_publicKey sk⟩

/-- The first `n` bytes, zeros after the end. -/
def firstBytes (n : Nat) (bs : Bytes) : Bytes := (bs ++ List.replicate n 0).take n

theorem length_firstBytes (n : Nat) (bs : Bytes) : (firstBytes n bs).length = n := by
  simp [firstBytes]

def prefixCrypto : Crypto where
  publicKey := firstBytes 32
  isKey _ := true
  sign sk m := firstBytes 64 (firstBytes 32 sk ++ m.reverse)
  verify key m sig := sig == firstBytes 64 (key ++ m.reverse)
  sha256 := firstBytes 32
  length_publicKey := length_firstBytes 32
  isKey_publicKey _ := rfl
  length_sign _ _ := length_firstBytes 64 _
  length_sha256 := length_firstBytes 32

/-- The same lengths, but a key accepts exactly the messages a ledger has for it. -/
def ledgerCrypto (ledger : List (Bytes × Bytes)) : Crypto :=
  { prefixCrypto with verify := fun key m _ => ledger.contains (key, m) }

theorem prefixCrypto_correct : prefixCrypto.Correct := by
  intro sk m
  simp [prefixCrypto]

end ManagedDirectory.Lib
