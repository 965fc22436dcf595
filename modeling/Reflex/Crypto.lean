import Mathlib.Data.List.Zip
import Mathlib.Data.UInt
import Reflex.Bytes

/-!
# Cryptographic primitives

ChaCha20-Poly1305, X25519 and HKDF-SHA256 are not computed: they are parameters, with the laws
the protocol relies on.

* `Aead`: the two operations of `cipher.AEAD`, `Seal` (`encrypt`) and `Open` (`decrypt`), under
  a key and a nonce.
  `Aead.Correct` is the correctness law of ChaCha20-Poly1305 (opening what was sealed gives the
  plaintext back, and a ciphertext is 16 bytes longer than its plaintext). `Aead.ideal` is the
  ideal AEAD of a session with one sealer: `Open` accepts exactly the ciphertexts the sealer's
  calls returned, under their nonces.
* `X25519`: the public key of a private key (`ScalarBaseMult`) and the shared secret
  (`ScalarMult`), with the Diffie-Hellman law.
* `Hkdf`: HKDF-SHA256, giving as many bytes as asked.

`toyAead` and `toyX25519` are instances that satisfy the laws, for the witnesses.
-/

namespace Reflex

/-- The operations of an AEAD (`cipher.AEAD`) with 12-byte nonces, under a key. -/
structure Aead where
  /-- `aead.Seal(dst, nonce, plaintext, nil)` under a key. -/
  encrypt : Bytes → Bytes → Bytes → Bytes
  /-- `aead.Open(dst, nonce, ciphertext, nil)` under a key; `none` on authentication failure. -/
  decrypt : Bytes → Bytes → Bytes → Option Bytes

/-- The correctness law of ChaCha20-Poly1305. -/
structure Aead.Correct (A : Aead) : Prop where
  decrypt_encrypt : ∀ k n p, A.decrypt k n (A.encrypt k n p) = some p
  length_encrypt : ∀ k n p, (A.encrypt k n p).length = p.length + 16

/-- The ideal AEAD of a session under the key `k` whose only sealer made the calls `log`
    (nonce, plaintext), in order: `Open` accepts a ciphertext under a nonce only if a call
    sealed it under that nonce, and gives that call's plaintext. -/
def Aead.ideal (A : Aead) (k : Bytes) (log : List (Bytes × Bytes)) : Aead where
  encrypt := A.encrypt
  decrypt _ n c := (log.find? fun e => e.1 = n ∧ A.encrypt k e.1 e.2 = c).map Prod.snd

theorem Aead.ideal_decrypt {A : Aead} {k k' n c p : Bytes} {log : List (Bytes × Bytes)}
    (h : (A.ideal k log).decrypt k' n c = some p) : (n, p) ∈ log ∧ A.encrypt k n p = c := by
  simp only [Aead.ideal, Option.map_eq_some'] at h
  obtain ⟨⟨n', p'⟩, hf, rfl⟩ := h
  have hmem := List.mem_of_find?_eq_some hf
  have hp := List.find?_some hf
  simp only [decide_eq_true_eq] at hp
  obtain ⟨rfl, hc⟩ := hp
  exact ⟨hmem, hc⟩

/-- X25519 (`curve25519.ScalarBaseMult` and `ScalarMult`) as a Diffie-Hellman function. -/
structure X25519 where
  /-- The public key of a private key. -/
  publicKey : FixedBytes 32 → FixedBytes 32
  /-- The shared secret of a private key and a peer's public key. -/
  scalarMult : FixedBytes 32 → FixedBytes 32 → FixedBytes 32
  dh : ∀ a b, scalarMult a (publicKey b) = scalarMult b (publicKey a)

/-- HKDF-SHA256 (`hkdf.New` read for `l` bytes) from key material, a salt and an info string. -/
structure Hkdf where
  derive : Bytes → Bytes → Bytes → Nat → Bytes
  length_derive : ∀ ikm salt info l, (derive ikm salt info l).length = l

/-! ## Instances for the witnesses -/

/-- The tag of the toy AEAD: the nonce and key, cut or padded to 16 bytes. -/
def toyTag (k n : Bytes) : Bytes := ((n ++ k) ++ List.replicate 16 0).take 16

theorem length_toyTag (k n : Bytes) : (toyTag k n).length = 16 := by
  simp only [toyTag, List.length_take, List.length_append, List.length_replicate]; omega

/-- An AEAD that appends a tag binding the key and nonce (it hides nothing). -/
def toyAead : Aead where
  encrypt k n p := p ++ toyTag k n
  decrypt k n c :=
    if 16 ≤ c.length ∧ c.drop (c.length - 16) = toyTag k n then some (c.take (c.length - 16))
    else none

theorem toyAead_correct : toyAead.Correct where
  decrypt_encrypt k n p := by
    simp [toyAead, length_toyTag, List.drop_append_eq_append_drop,
      List.take_append_eq_append_take]
  length_encrypt k n p := by simp [toyAead, length_toyTag]

/-- A Diffie-Hellman function on byte strings: the bytewise sum. -/
def toyX25519 : X25519 where
  publicKey b := b
  scalarMult a b := ⟨List.zipWith (· + ·) a.bytes b.bytes, by simp [a.length_bytes, b.length_bytes]⟩
  dh a b := FixedBytes.ext (by simp only [List.zipWith_comm (· + ·) a.bytes b.bytes, add_comm])

/-- A key derivation that repeats the key material. -/
def toyHkdf : Hkdf where
  derive ikm _ _ l := (ikm ++ List.replicate l 0).take l
  length_derive ikm _ _ l := by simp

end Reflex
