import Reflex.Crypto
import Reflex.Validator

/-!
# The handshake

`encoding/handshake.go`. The client sends 76 bytes: the magic `REFX`, its ephemeral X25519
public key, its user ID, a Unix timestamp and a nonce; the server answers 40 bytes: its public
key and a timestamp. Timestamps are Go `int64`s, here `BitVec 64`, written as their `uint64`
bits. Both sides derive the session key from the X25519 shared secret by HKDF-SHA256.

* `decodeClientHandshake_encode`, `decodeServerHandshake_encode`: decoding what was encoded,
  whatever follows it, gives it back;
* `handshake_codec_roundtrips`: the two codecs are bijections on their fixed layouts;
* `validateTimestamp_iff`: the timestamp check is exact while `now - timestamp` does not
  overflow;
* `sessionKeyFor_agree`: the two sides of a Diffie-Hellman exchange derive the same key.
-/

namespace Reflex

/-- `ReflexMagic`, the bytes `REFX`. -/
def reflexMagic : Nat := 0x5246584C

/-- `ClientHandshake`. -/
structure ClientHandshake where
  publicKey : FixedBytes 32
  userID : UserID
  timestamp : BitVec 64
  nonce : FixedBytes 16
  deriving DecidableEq, Repr

/-- `ServerHandshake`. -/
structure ServerHandshake where
  publicKey : FixedBytes 32
  timestamp : BitVec 64
  deriving DecidableEq, Repr

/-- `EncodeClientHandshake`: every byte of the pooled 76-byte buffer is written. -/
def encodeClientHandshake (hs : ClientHandshake) : Bytes :=
  putBE 4 reflexMagic ++ (hs.publicKey.bytes ++ (hs.userID.bytes ++
    (putBE 8 hs.timestamp.toNat ++ hs.nonce.bytes)))

/-- `DecodeClientHandshake`; past the length check every slice is in bounds. -/
def decodeClientHandshake (data : Bytes) : Except GoError ClientHandshake :=
  if data.length < 76 then .error (.err "handshake packet too short")
  else if beNat (data.take 4) ≠ reflexMagic then .error (.err "invalid magic number")
  else .ok ⟨.copyOf 32 ((data.take 36).drop 4), .copyOf 16 ((data.take 52).drop 36),
    BitVec.ofNat 64 (beNat ((data.take 60).drop 52)), .copyOf 16 ((data.take 76).drop 60)⟩

/-- `EncodeServerHandshake`: every byte of the pooled 40-byte buffer is written. -/
def encodeServerHandshake (hs : ServerHandshake) : Bytes :=
  hs.publicKey.bytes ++ putBE 8 hs.timestamp.toNat

/-- `DecodeServerHandshake`. -/
def decodeServerHandshake (data : Bytes) : Except GoError ServerHandshake :=
  if data.length < 40 then .error (.err "handshake response too short")
  else .ok ⟨.copyOf 32 (data.take 32), BitVec.ofNat 64 (beNat ((data.take 40).drop 32))⟩

/-- `ValidateTimestamp` at the Unix time `now`, in `int64` arithmetic: `now - timestamp`
    wraps, and so does its negation. -/
def validateTimestamp (now timestamp : BitVec 64) : Bool :=
  let diff := now - timestamp
  let diff := if diff.slt 0 then -diff else diff
  diff.sle 120

/-- `GenerateKeyPair`, for the private key `crypto/rand` gives. -/
def generateKeyPair (X : X25519) (privateKey : FixedBytes 32) : FixedBytes 32 × FixedBytes 32 :=
  (privateKey, X.publicKey privateKey)

/-- `DeriveSharedKey`. -/
def deriveSharedKey (X : X25519) (privateKey peerPublicKey : FixedBytes 32) : FixedBytes 32 :=
  X.scalarMult privateKey peerPublicKey

/-- `DeriveSessionKey`: `chacha20poly1305.KeySize` bytes of HKDF-SHA256 with the info
    `reflex-session-v1`; reading 32 bytes of HKDF never fails. -/
def deriveSessionKey (H : Hkdf) (sharedKey : FixedBytes 32) (salt : Bytes) : Bytes :=
  H.derive sharedKey.bytes salt (goBytes "reflex-session-v1") 32

/-- The lines both sides share: the session key from one's private key and the peer's public
    key, with the salt `reflex-session-v1`. -/
def sessionKeyFor (X : X25519) (H : Hkdf) (privateKey peerPublicKey : FixedBytes 32) : Bytes :=
  deriveSessionKey H (deriveSharedKey X privateKey peerPublicKey) (goBytes "reflex-session-v1")

@[simp] theorem length_encodeClientHandshake (hs : ClientHandshake) :
    (encodeClientHandshake hs).length = 76 := by
  simp [encodeClientHandshake, hs.publicKey.length_bytes, hs.userID.length_bytes,
    hs.nonce.length_bytes]

@[simp] theorem length_encodeServerHandshake (hs : ServerHandshake) :
    (encodeServerHandshake hs).length = 40 := by
  simp [encodeServerHandshake, hs.publicKey.length_bytes]

@[simp] theorem length_deriveSessionKey (H : Hkdf) (sharedKey : FixedBytes 32) (salt : Bytes) :
    (deriveSessionKey H sharedKey salt).length = 32 :=
  H.length_derive _ _ _ _

theorem ofNat_beNat_putBE (t : BitVec 64) : BitVec.ofNat 64 (beNat (putBE 8 t.toNat)) = t :=
  BitVec.eq_of_toNat_eq (by
    rw [BitVec.toNat_ofNat, beNat_putBE, show (256 : Nat) ^ 8 = 2 ^ 64 by decide, Nat.mod_mod,
      Nat.mod_eq_of_lt t.isLt])

theorem decodeClientHandshake_encode (hs : ClientHandshake) (rest : Bytes) :
    decodeClientHandshake (encodeClientHandshake hs ++ rest) = .ok hs := by
  have h1 := hs.publicKey.length_bytes
  have h2 := hs.userID.length_bytes
  have h3 := hs.nonce.length_bytes
  have hm : beNat (putBE 4 reflexMagic) = reflexMagic := by rw [beNat_putBE]; decide
  unfold decodeClientHandshake encodeClientHandshake
  rw [if_neg (by simp [h1, h2, h3]; omega)]
  simp only [List.append_assoc, length_putBE, List.take_left', hm, ne_eq, not_true_eq_false,
    ↓reduceIte, List.take_append_eq_append_take, Nat.reduceLeDiff, List.take_of_length_le,
    Nat.reduceSub, h1, List.drop_left', FixedBytes.copyOf_bytes, h2, List.drop_append_eq_append_drop,
    List.drop_of_length_le, List.nil_append, ofNat_beNat_putBE, h3]

theorem decodeServerHandshake_encode (hs : ServerHandshake) (rest : Bytes) :
    decodeServerHandshake (encodeServerHandshake hs ++ rest) = .ok hs := by
  have h1 := hs.publicKey.length_bytes
  unfold decodeServerHandshake encodeServerHandshake
  rw [if_neg (by simp [h1]; omega)]
  simp [h1, ofNat_beNat_putBE, List.take_append_eq_append_take, List.drop_append_eq_append_drop,
    List.take_of_length_le, List.drop_of_length_le]

theorem putBE_toNat_ofNat_beNat {bs : Bytes} (h : bs.length = 8) :
    putBE 8 (BitVec.ofNat 64 (beNat bs)).toNat = bs := by
  have hlt : beNat bs < 2 ^ 64 := by simpa [h] using beNat_lt bs
  rw [BitVec.toNat_ofNat, Nat.mod_eq_of_lt hlt, ← h, putBE_beNat]

theorem decodeClientHandshake_ok_iff (d : Bytes) :
    (∃ hs, decodeClientHandshake d = .ok hs) ↔
      76 ≤ d.length ∧ beNat (d.take 4) = reflexMagic := by
  unfold decodeClientHandshake
  split_ifs with h76 hm
  · simp only [exists_false, false_iff, not_and]; omega
  · simp only [exists_false, false_iff, not_and]; exact fun _ => hm
  · exact ⟨fun _ => ⟨by omega, not_not.1 hm⟩, fun _ => ⟨_, rfl⟩⟩

/-- What `DecodeClientHandshake` accepts, `EncodeClientHandshake` writes back byte for byte:
    the magic it checked, then the four fields it copied. -/
theorem encodeClientHandshake_decode {d : Bytes} {hs : ClientHandshake}
    (h : decodeClientHandshake d = .ok hs) : encodeClientHandshake hs = d.take 76 := by
  unfold decodeClientHandshake at h
  split_ifs at h with h76 hm
  cases h
  have hmagic : putBE 4 reflexMagic = d.take 4 := by
    have h0 : (d.take 4).length = 4 := by rw [List.length_take]; omega
    rw [← not_not.1 hm]
    exact (congrArg (putBE · (beNat (d.take 4))) h0.symm).trans (putBE_beNat _)
  simp only [encodeClientHandshake, List.drop_take,
    FixedBytes.copyOf_of_length (length_take_drop (l := d) (a := 4) (n := 32) (by omega)),
    FixedBytes.copyOf_of_length (length_take_drop (l := d) (a := 36) (n := 16) (by omega)),
    putBE_toNat_ofNat_beNat (length_take_drop (l := d) (a := 52) (n := 8) (by omega)),
    FixedBytes.copyOf_of_length (length_take_drop (l := d) (a := 60) (n := 16) (by omega)), hmagic]
  rw [show 76 = 4 + (32 + (16 + (8 + 16))) from rfl]
  simp only [List.take_add, List.drop_drop]

/-- What `DecodeServerHandshake` reads, `EncodeServerHandshake` writes back byte for byte. -/
theorem encodeServerHandshake_decode {d : Bytes} {hs : ServerHandshake}
    (h : decodeServerHandshake d = .ok hs) : encodeServerHandshake hs = d.take 40 := by
  unfold decodeServerHandshake at h
  split_ifs at h with h40
  cases h
  have h1 : (d.take 32).length = 32 := by rw [List.length_take]; omega
  simp only [encodeServerHandshake, List.drop_take, FixedBytes.copyOf_of_length h1,
    putBE_toNat_ofNat_beNat (length_take_drop (l := d) (a := 32) (n := 8) (by omega))]
  rw [show 40 = 32 + 8 from rfl, List.take_add]

/-- Both handshake codecs are bijections on their fixed layouts, whatever the timestamp's bits:
    the client decoder accepts exactly the inputs of at least 76 bytes that start with the
    magic, and gives back the fields the encoder writes; the server decoder accepts every
    input of at least 40 bytes. -/
theorem handshake_codec_roundtrips :
    (∀ hs, decodeClientHandshake (encodeClientHandshake hs) = .ok hs) ∧
    (∀ d, (∃ hs, decodeClientHandshake d = .ok hs) ↔
      76 ≤ d.length ∧ beNat (d.take 4) = reflexMagic) ∧
    (∀ d hs, decodeClientHandshake d = .ok hs → encodeClientHandshake hs = d.take 76) ∧
    (∀ hs, decodeServerHandshake (encodeServerHandshake hs) = .ok hs) ∧
    (∀ d, 40 ≤ d.length →
      ∃ hs, decodeServerHandshake d = .ok hs ∧ encodeServerHandshake hs = d.take 40) := by
  refine ⟨fun hs => by simpa using decodeClientHandshake_encode hs [],
    decodeClientHandshake_ok_iff, fun _ _ => encodeClientHandshake_decode,
    fun hs => by simpa using decodeServerHandshake_encode hs [], fun d h40 => ?_⟩
  have hd : decodeServerHandshake d = .ok _ := if_neg (Nat.not_lt.2 h40)
  exact ⟨_, hd, encodeServerHandshake_decode hd⟩

/-- When `now - timestamp` fits in an `int64` (and is not its least value, whose negation
    wraps to itself), `ValidateTimestamp` is the exact test `|now - timestamp| ≤ 120`. -/
theorem validateTimestamp_iff {now ts : BitVec 64}
    (h : -2 ^ 63 < now.toInt - ts.toInt ∧ now.toInt - ts.toInt < 2 ^ 63) :
    validateTimestamp now ts = true ↔
      -120 ≤ now.toInt - ts.toInt ∧ now.toInt - ts.toInt ≤ 120 := by
  have hd : (now - ts).toInt = now.toInt - ts.toInt := by
    rw [BitVec.toInt_sub, Int.bmod_def]; split_ifs <;> omega
  have hneg : (-(now - ts)).toInt = -(now.toInt - ts.toInt) := by
    rw [BitVec.toInt_neg, hd, Int.bmod_def]; split_ifs <;> omega
  have h0 : (0 : BitVec 64).toInt = 0 := by decide
  have h120 : (120 : BitVec 64).toInt = 120 := by decide
  simp only [validateTimestamp, BitVec.slt, BitVec.sle]
  split_ifs with hlt <;> rw [hd, h0] at hlt
  · rw [hneg, h120]; simp only [decide_eq_true_eq] at hlt ⊢; omega
  · rw [hd, h120]; simp only [decide_eq_true_eq] at hlt ⊢; omega

@[simp] theorem length_sessionKeyFor (X : X25519) (H : Hkdf) (a b : FixedBytes 32) :
    (sessionKeyFor X H a b).length = 32 :=
  length_deriveSessionKey _ _ _

/-- Client and server derive the same session key from their own private key and the peer's
    public key. -/
theorem sessionKeyFor_agree (X : X25519) (H : Hkdf) (a b : FixedBytes 32) :
    sessionKeyFor X H a (generateKeyPair X b).2 = sessionKeyFor X H b (generateKeyPair X a).2 := by
  rw [sessionKeyFor, sessionKeyFor, generateKeyPair, generateKeyPair, deriveSharedKey,
    deriveSharedKey, X.dh]

end Reflex
