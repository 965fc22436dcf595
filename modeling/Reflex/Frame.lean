import Reflex.Crypto

/-!
# The frame codec

`encoding/frame.go`. A frame is a type byte and a payload. The encoder keeps a 64-bit counter:
each frame it seals increments it, seals `[type ‖ payload]` under the nonce made of the counter
(little-endian, then four zero bytes), and puts the ciphertext behind its length as a big-endian
`uint16`. The decoder keeps its own counter and mirrors this; `ReadFrame` reads the length and
then that many bytes off a reader.

`Encode` and `EncodeToWriter` share their first lines word for word (`FrameEncoder.sealFrame`):
the one returns the bytes, the other writes them to an `io.Writer` (`write`, which may fail).

The encoder carries an auxiliary field, `sealed`, which no code reads: the nonce and frame of
every `aead.Seal` call it made, in order.

* `decode_panic_iff`: `Decode` panics exactly on the inputs whose length header is `0xFFFE` or
  `0xFFFF`, since `2 + length` is computed in `uint16`; below that its guard rejects exactly
  the inputs shorter than `2 + length` (`decode_incomplete_iff`).
* `decode_encrypt`, `readFrame_frame`: the spec lemmas of one sealed frame read back.
-/

namespace Reflex

/-- `FrameTypeData`. -/
def frameTypeData : UInt8 := 0x01
/-- `FrameTypePadding`. -/
def frameTypePadding : UInt8 := 0x02
/-- `FrameTypeTiming`. -/
def frameTypeTiming : UInt8 := 0x03
/-- `FrameTypeClose`. -/
def frameTypeClose : UInt8 := 0x04
/-- `MaxFramePayloadSize`. -/
def maxFramePayloadSize : Nat := 16384

/-- The longest payload whose frame `Decode` reads back, which the code does not name: the
    ciphertext is 17 bytes longer, and `Decode` adds 2 to its length in `uint16`, below `2^16`
    up to this size. One or two bytes more and the sum wraps, so `Decode` panics; from 65519
    bytes on, the frame's length header wraps. -/
def maxDecodablePayload : Nat := 65516

theorem maxFramePayloadSize_le : maxFramePayloadSize ≤ maxDecodablePayload := by decide

/-- A Reflex frame. -/
structure Frame where
  type : UInt8
  payload : Bytes
  deriving DecidableEq, Repr

/-- The plaintext a frame is sealed as: `[type ‖ payload]`. -/
def Frame.plaintext (f : Frame) : Bytes := f.type :: f.payload

/-- The nonce of the counter value `c`: `binary.LittleEndian.PutUint64` into the first 8 bytes
    of a zeroed 12-byte scratch. -/
def nonceOf (c : UInt64) : Bytes := putLE 8 c.toNat ++ [0, 0, 0, 0]

theorem nonceOf_inj {a b : UInt64} (h : nonceOf a = nonceOf b) : a = b := by
  have h8 := List.append_inj_left h (by simp)
  exact UInt64.toNat.inj (putLE_inj a.toNat_lt_size b.toNat_lt_size h8)

/-- The nonce after an increment: the wrap of the `uint64` counter is the one of `PutUint64`. -/
theorem nonceOf_add_one (c : UInt64) :
    nonceOf (c + 1) = putLE 8 (c.toNat + 1) ++ [0, 0, 0, 0] := by
  rw [nonceOf, UInt64.toNat_add_one, ← putLE_mod 8 (c.toNat + 1),
    show (256 : Nat) ^ 8 = 2 ^ 64 by decide]

/-! ## The encoder -/

/-- `FrameEncoder`: the session key, the counter, and the auxiliary record of its seals. -/
structure FrameEncoder where
  key : Bytes
  counter : UInt64
  /-- The nonce and frame of each `aead.Seal` call so far, in order. -/
  sealed : List (Bytes × Frame)

/-- `NewFrameEncoder`: `chacha20poly1305.New` accepts only 32-byte keys. -/
def newFrameEncoder (key : Bytes) : Except GoError FrameEncoder :=
  if key.length = 32 then .ok ⟨key, 0, []⟩ else .error (.err "chacha20poly1305: bad key length")

theorem newFrameEncoder_of_length {key : Bytes} (h : key.length = 32) :
    newFrameEncoder key = .ok ⟨key, 0, []⟩ := if_pos h

theorem eq_of_newFrameEncoder {key : Bytes} {e : FrameEncoder}
    (h : newFrameEncoder key = .ok e) : e = ⟨key, 0, []⟩ := by
  unfold newFrameEncoder at h
  split_ifs at h
  cases h; rfl

variable (A : Aead) {W : Type} (write : W → Bytes → W × Option GoError)

/-- The lines `Encode` and `EncodeToWriter` share: increment the counter, form the nonce, seal
    `[type ‖ payload]`, and put the ciphertext behind `uint16(len(ciphertext))`. -/
def FrameEncoder.sealFrame (e : FrameEncoder) (f : Frame) : FrameEncoder × Bytes :=
  let ciphertext := A.encrypt e.key (nonceOf (e.counter + 1)) f.plaintext
  (⟨e.key, e.counter + 1, e.sealed ++ [(nonceOf (e.counter + 1), f)]⟩,
    putBE 2 (ciphertext.length % 2 ^ 16) ++ ciphertext)

/-- `FrameEncoder.Encode`; its error is always `nil`. -/
def FrameEncoder.encode (e : FrameEncoder) (f : Frame) : FrameEncoder × Except GoError Bytes :=
  ((e.sealFrame A f).1, .ok (e.sealFrame A f).2)

/-- `FrameEncoder.EncodeToWriter`: the sealed bytes go to one `w.Write`. -/
def FrameEncoder.encodeToWriter (e : FrameEncoder) (w : W) (f : Frame) :
    FrameEncoder × W × Option GoError :=
  ((e.sealFrame A f).1, write w (e.sealFrame A f).2)

/-- `FrameEncoder.WriteFrame`. -/
def FrameEncoder.writeFrame (e : FrameEncoder) (w : W) (f : Frame) :
    FrameEncoder × W × Option GoError :=
  e.encodeToWriter A write w f

@[simp] theorem sealFrame_key (e : FrameEncoder) (f : Frame) :
    (e.sealFrame A f).1.key = e.key := rfl

@[simp] theorem sealFrame_counter (e : FrameEncoder) (f : Frame) :
    (e.sealFrame A f).1.counter = e.counter + 1 := rfl

@[simp] theorem sealFrame_sealed (e : FrameEncoder) (f : Frame) :
    (e.sealFrame A f).1.sealed = e.sealed ++ [(nonceOf (e.counter + 1), f)] := rfl

/-! ## The decoder -/

/-- `FrameDecoder`: the session key and the counter. -/
structure FrameDecoder where
  key : Bytes
  counter : UInt64

/-- `NewFrameDecoder`. -/
def newFrameDecoder (key : Bytes) : Except GoError FrameDecoder :=
  if key.length = 32 then .ok ⟨key, 0⟩ else .error (.err "chacha20poly1305: bad key length")

theorem newFrameDecoder_of_length {key : Bytes} (h : key.length = 32) :
    newFrameDecoder key = .ok ⟨key, 0⟩ := if_pos h

theorem eq_of_newFrameDecoder {key : Bytes} {d : FrameDecoder}
    (h : newFrameDecoder key = .ok d) : d = ⟨key, 0⟩ := by
  unfold newFrameDecoder at h
  split_ifs at h
  cases h; rfl

/-- `FrameDecoder.Decode`. The guard compares with `int(2+length)`, where `2+length` is a
    `uint16` sum; the counter is incremented only past both length checks. -/
def FrameDecoder.decode (d : FrameDecoder) (data : Bytes) : FrameDecoder × Except GoError Frame :=
  if data.length < 2 then (d, .error (.err "frame too short"))
  else if data.length < (2 + beNat (data.take 2)) % 2 ^ 16 then
    (d, .error (.err "incomplete frame"))
  else
    match slice data 2 ((2 + beNat (data.take 2)) % 2 ^ 16) with
    | .error e => (d, .error e)
    | .ok ciphertext =>
      match A.decrypt d.key (nonceOf (d.counter + 1)) ciphertext with
      | none => (⟨d.key, d.counter + 1⟩, .error (.err "decryption failed"))
      | some [] => (⟨d.key, d.counter + 1⟩, .error (.err "invalid plaintext"))
      | some (t :: p) => (⟨d.key, d.counter + 1⟩, .ok ⟨t, p⟩)

/-- `FrameDecoder.ReadFrame`: two bytes of length, a zero length refused, then `length` bytes
    (counted in `int`), and `Decode` of both together. -/
def FrameDecoder.readFrame (d : FrameDecoder) (r : Conn) :
    FrameDecoder × Except GoError Frame × Conn :=
  match r.readFull 2 with
  | (.error e, r') => (d, .error e, r')
  | (.ok header, r') =>
    if beNat header = 0 then (d, .error (.err "zero-length frame"), r')
    else
      match r'.readFull (beNat header) with
      | (.error e, r'') => (d, .error e, r'')
      | (.ok ciphertext, r'') =>
        ((d.decode A (header ++ ciphertext)).1, (d.decode A (header ++ ciphertext)).2, r'')

/-! ## What `Decode` does -/

variable {A}

/-- What `Encode` emits: the length header holds `uint16(len(ciphertext))`, that is
    `(|payload| + 17) mod 2^16`, in front of the `|payload| + 17` bytes of ciphertext. -/
theorem encode_header (hA : A.Correct) (e : FrameEncoder) (f : Frame) :
    ∃ ct, (e.encode A f).2 = .ok (putBE 2 ((f.payload.length + 17) % 2 ^ 16) ++ ct) ∧
      ct.length = f.payload.length + 17 := by
  have hl : (A.encrypt e.key (nonceOf (e.counter + 1)) f.plaintext).length =
      f.payload.length + 17 := by
    rw [hA.length_encrypt]; simp [Frame.plaintext]
  exact ⟨_, by rw [← hl]; rfl, hl⟩

/-- A payload of 65519 bytes: the ciphertext has 65536 bytes, and its header says `0`. -/
theorem encode_header_wraps (hA : A.Correct) (e : FrameEncoder) (t : UInt8) :
    ∃ ct, (e.encode A ⟨t, List.replicate 65519 0⟩).2 = .ok ([0, 0] ++ ct) ∧
      ct.length = 65536 := by
  obtain ⟨ct, h, hl⟩ := encode_header hA e ⟨t, List.replicate 65519 0⟩
  rw [List.length_replicate] at h hl
  exact ⟨ct, h, hl⟩

/-- A DATA frame of 65519 zero bytes from a fresh encoder, under the toy AEAD. -/
theorem encode_header_wraps_fresh :
    toyAead.Correct ∧ ∃ ct, ((⟨List.replicate 32 0, 0, []⟩ : FrameEncoder).encode toyAead
      ⟨frameTypeData, List.replicate 65519 0⟩).2 = .ok ([0, 0] ++ ct) ∧ ct.length = 65536 :=
  ⟨toyAead_correct, encode_header_wraps toyAead_correct _ _⟩

theorem beNat_take_two_lt (data : Bytes) : beNat (data.take 2) < 2 ^ 16 :=
  lt_of_lt_of_le (beNat_lt _)
    ((Nat.pow_le_pow_right (by omega) (List.length_take_le 2 data)).trans (by decide))

/-- `Decode` panics exactly when the length header is `0xFFFE` or `0xFFFF`: then `2+length`
    wraps to `0` or `1`, the guard lets the input through and `data[2:2+length]` has its lower
    bound above its upper one. -/
theorem decode_panic_iff (d : FrameDecoder) (data : Bytes) :
    (∃ e, (d.decode A data).2 = .error e ∧ e.IsPanic) ↔
      2 ≤ data.length ∧ 0xFFFE ≤ beNat (data.take 2) := by
  have hL := beNat_take_two_lt data
  unfold FrameDecoder.decode
  by_cases h2 : data.length < 2
  · simp [h2, GoError.IsPanic]
  by_cases hw : 0xFFFE ≤ beNat (data.take 2)
  · -- The sum wraps: the upper bound of the slice is 0 or 1.
    have hwrap : (2 + beNat (data.take 2)) % 2 ^ 16 < 2 := by omega
    rw [if_neg h2, if_neg (by omega), slice_of_gt hwrap]
    simp [GoError.IsPanic, hw]
    omega
  · rw [if_neg h2]
    have hmod : (2 + beNat (data.take 2)) % 2 ^ 16 = 2 + beNat (data.take 2) := by omega
    split_ifs with hi
    · simp [GoError.IsPanic]; omega
    · rw [hmod, slice_of_le (by omega) (by omega)]
      simp only [hw, and_false, iff_false, not_exists, not_and]
      intro e he
      split at he <;> cases he <;> simp [GoError.IsPanic]

/-- Below `0xFFFE`, the guard rejects exactly the inputs holding fewer than `2 + length` bytes. -/
theorem decode_incomplete_iff (d : FrameDecoder) (data : Bytes) (h2 : 2 ≤ data.length)
    (hL : beNat (data.take 2) < 0xFFFE) :
    (d.decode A data).2 = .error (.err "incomplete frame") ↔
      data.length < 2 + beNat (data.take 2) := by
  have hmod : (2 + beNat (data.take 2)) % 2 ^ 16 = 2 + beNat (data.take 2) := by omega
  unfold FrameDecoder.decode
  rw [if_neg (by omega), hmod]
  split_ifs with hi
  · simp [hi]
  · rw [slice_of_le (by omega) (by omega)]
    simp only [hi, iff_false]
    split <;> simp

/-- `Decode` of a sealed frame's bytes, followed by anything: the counter moves on and the
    ciphertext is opened under the new counter's nonce. -/
theorem decode_frame (d : FrameDecoder) (ct rest : Bytes) (hct : ct.length + 2 < 2 ^ 16) :
    d.decode A (putBE 2 ct.length ++ ct ++ rest) =
      (⟨d.key, d.counter + 1⟩,
        match A.decrypt d.key (nonceOf (d.counter + 1)) ct with
        | none => .error (.err "decryption failed")
        | some [] => .error (.err "invalid plaintext")
        | some (t :: p) => .ok ⟨t, p⟩) := by
  have htake : (putBE 2 ct.length ++ ct ++ rest).take 2 = putBE 2 ct.length := by
    rw [List.append_assoc, List.take_left' (length_putBE 2 _)]
  have hlen : beNat ((putBE 2 ct.length ++ ct ++ rest).take 2) = ct.length := by
    rw [htake, beNat_putBE, Nat.mod_eq_of_lt (by omega)]
  have hslice : slice (putBE 2 ct.length ++ ct ++ rest) 2 (2 + ct.length) = .ok ct := by
    rw [slice_of_le (by omega) (by simp), List.append_assoc, List.take_append_eq_append_take,
      List.take_of_length_le (by simp), List.drop_append_of_le_length (by simp)]
    simp [List.take_append_eq_append_take]
  unfold FrameDecoder.decode
  rw [if_neg (by simp), hlen, Nat.mod_eq_of_lt (by omega), if_neg (by simp), hslice]
  dsimp only
  rcases A.decrypt d.key (nonceOf (d.counter + 1)) ct with _ | _ | ⟨t, p⟩ <;> rfl

/-- Opening a frame sealed under the same key and nonce gives the frame back. -/
theorem decode_encrypt (hA : A.Correct) (d : FrameDecoder) (f : Frame) (rest : Bytes)
    (hf : f.payload.length + 19 < 2 ^ 16) :
    d.decode A (putBE 2 (A.encrypt d.key (nonceOf (d.counter + 1)) f.plaintext).length ++
        A.encrypt d.key (nonceOf (d.counter + 1)) f.plaintext ++ rest) =
      (⟨d.key, d.counter + 1⟩, .ok f) := by
  rw [decode_frame _ _ _ (by rw [hA.length_encrypt]; simp [Frame.plaintext]; omega),
    hA.decrypt_encrypt]
  rfl

/-- The input `FF FF`: the length `0xFFFF` makes `2+length` wrap to `1`. -/
theorem decode_panics_at_ffff (d : FrameDecoder) :
    (d.decode A [0xFF, 0xFF]).2 = .error (.panic "runtime error: slice bounds out of range") :=
  rfl

/-! ## What `ReadFrame` does -/

/-- `ReadFrame` once both reads succeed and the length is not zero: `Decode` of what it read. -/
theorem readFrame_of_readFull {d : FrameDecoder} {r r₁ r₂ : Conn} {header ct : Bytes}
    (h₁ : r.readFull 2 = (.ok header, r₁)) (h0 : beNat header ≠ 0)
    (h₂ : r₁.readFull (beNat header) = (.ok ct, r₂)) :
    d.readFrame A r = ((d.decode A (header ++ ct)).1, (d.decode A (header ++ ct)).2, r₂) := by
  simp only [FrameDecoder.readFrame, h₁, h0, if_false, h₂]

/-- `ReadFrame` on a reader that holds a whole frame of nonzero length: it is `Decode` of the
    frame's bytes, and the reader keeps what follows. -/
theorem readFrame_frame (d : FrameDecoder) {r : Conn} {ct rest : Bytes} (hct : 0 < ct.length)
    (hct' : ct.length < 2 ^ 16) (hr : r.bytes = putBE 2 ct.length ++ ct ++ rest) :
    ∃ r', d.readFrame A r = ((d.decode A (putBE 2 ct.length ++ ct)).1,
      (d.decode A (putBE 2 ct.length ++ ct)).2, r') ∧ r'.bytes = rest ∧ r'.close = r.close := by
  obtain ⟨r₁, h₁, hb₁, hc₁⟩ := readFull_of_le (c := r) (n := 2) (by rw [hr]; simp)
  have hhd : r.bytes.take 2 = putBE 2 ct.length := by
    rw [hr, List.append_assoc, List.take_left' (length_putBE 2 _)]
  have hv : beNat (putBE 2 ct.length) = ct.length := by
    rw [beNat_putBE]; exact Nat.mod_eq_of_lt hct'
  have hb : r₁.bytes = ct ++ rest := by
    rw [hb₁, hr, List.append_assoc, List.drop_left' (length_putBE 2 _)]
  obtain ⟨r₂, h₂, hb₂, hc₂⟩ := readFull_of_le (c := r₁) (n := ct.length) (by rw [hb]; simp)
  rw [hhd] at h₁
  rw [hb, List.take_left, ← hv] at h₂
  refine ⟨r₂, readFrame_of_readFull h₁ (by rw [hv]; omega) h₂, ?_, hc₂.trans hc₁⟩
  rw [hb₂, hb, List.drop_left]

/-- `ReadFrame` panics on every stream whose length header is `0xFFFE` or `0xFFFF` and that
    holds that many bytes after it: it reads them (its own `2 + int(length)` does not wrap) and
    hands them to `Decode`, whose guard does. -/
theorem readFrame_panic_of_wrapping (d : FrameDecoder) {r : Conn} {header ct rest : Bytes}
    (hh : header.length = 2) (hw : 0xFFFE ≤ beNat header) (hct : ct.length = beNat header)
    (hr : r.bytes = header ++ ct ++ rest) :
    ∃ e, (d.readFrame A r).2.1 = .error e ∧ e.IsPanic := by
  obtain ⟨r₁, h₁, hb₁, -⟩ := readFull_of_le (c := r) (n := 2) (by rw [hr]; simp; omega)
  have hb : r₁.bytes = ct ++ rest := by
    rw [hb₁, hr, List.append_assoc, List.drop_left' hh]
  obtain ⟨r₂, h₂, -, -⟩ := readFull_of_le (c := r₁) (n := beNat header) (by rw [hb]; simp; omega)
  rw [hr, List.append_assoc, List.take_left' hh] at h₁
  rw [hb, ← hct, List.take_left, hct] at h₂
  rw [readFrame_of_readFull h₁ (by omega) h₂]
  exact (decode_panic_iff d _).2 ⟨by simp; omega, by rwa [List.take_left' hh]⟩

/-- `Decode` of the header `0xFFFF` alone, and `ReadFrame` of the header `0xFFFE` and the
    65534 bytes it announces, both panic. -/
theorem decode_readFrame_panic (d : FrameDecoder) (close : StreamEnd) :
    (d.decode A [0xFF, 0xFF]).2 = .error (.panic "runtime error: slice bounds out of range") ∧
      ∃ e, (d.readFrame A ⟨[[0xFF, 0xFE] ++ List.replicate 65534 0], close⟩).2.1 = .error e ∧
        e.IsPanic :=
  ⟨decode_panics_at_ffff d, @readFrame_panic_of_wrapping A d _ [0xFF, 0xFE]
    (List.replicate 65534 0) [] rfl (by decide)
    (by simp only [List.length_replicate]; decide)
    (by simp only [Conn.bytes, List.flatten_cons, List.flatten_nil, List.append_nil])⟩

end Reflex
