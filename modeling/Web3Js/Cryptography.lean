import Web3Js.Lib.BigEndian

/-!
# The cryptography package

Hashing and text encoding come from a package outside the repository.  They
are parameters here; what a result needs of them is a hypothesis of its own.
-/

namespace Web3Js

structure Cryptography where
  shake256 : Bytes → (dkLen : Nat) → Bytes
  keccak256 : Bytes → Bytes
  utf8ToBytes : String → Bytes
  /-- With `fatal: true`; `none` when the bytes are not UTF-8. -/
  bytesToUtf8 : Bytes → Option String

/-- Reading UTF-8 inverts writing it. -/
def Cryptography.Utf8Inverse (cryptography : Cryptography) : Prop :=
  ∀ text,
    cryptography.bytesToUtf8 (cryptography.utf8ToBytes text) = some text

/-- Hashes of zeros, and the UTF-8 of the language. -/
def Cryptography.simple : Cryptography where
  shake256 _ dkLen := List.replicate dkLen 0
  keccak256 _ := List.replicate 32 0
  utf8ToBytes text := text.toByteArray.data.toList
  bytesToUtf8 bytes := String.fromUTF8? ⟨bytes.toArray⟩

/-- The extendable hash has the length that is asked of it. -/
def Cryptography.HashWidth (cryptography : Cryptography) : Prop :=
  ∀ input dkLen, (cryptography.shake256 input dkLen).length = dkLen

/-- The hash for nodes and messages is 32 bytes long. -/
def Cryptography.KeccakWidth (cryptography : Cryptography) : Prop :=
  ∀ input, (cryptography.keccak256 input).length = 32

/-- The UTF-8 of the language. -/
def utf8Bytes (text : String) : Bytes := text.toByteArray.data.toList

def Cryptography.EncodesUtf8 (cryptography : Cryptography) : Prop :=
  ∀ text, cryptography.utf8ToBytes text = utf8Bytes text

theorem Cryptography.simple_hashWidth : Cryptography.simple.HashWidth :=
  fun _ _ => List.length_replicate

end Web3Js
