import Mathlib.Data.List.Nodup
import Reflex.Morphing

/-!
# Runs of the frame codec

A run of an encoder is any sequence of calls (`EncoderCall`): `Encode`, `EncodeToWriter`,
`WriteFrame` and `WriteFrameWithMorphing`, the last sealing as many frames as its recursion
writes, and any write may fail after its frame was sealed. All of them seal through
`FrameEncoder.sealFrame`, so one invariant (`FrameEncoder.Inv`) covers them: the `i`-th seal
of an encoder used the nonce `LE64(i mod 2^64) ‖ 00000000` (`nonceAt i`), and its counter is
the number of seals modulo `2^64`.

* `run_nonces`: along every run of a fresh encoder, the `i`-th sealed frame uses `nonceAt i`,
  and up to `2^64` seals the nonces are pairwise distinct; `FrameEncoder.Inv.sealFrame_eq`:
  the bytes of that seal are the ciphertext under `nonceAt i` behind its length;
* `readFrames_stream`: the stream a fresh encoder writes by `Encode` and `WriteFrame` is read
  back, frame by frame and to its last byte, by `ReadFrame` calls of a fresh decoder;
* `decodeRun_ideal`: under the ideal AEAD of the encoder's seals, a `Decode` call that succeeds
  returns the frame sealed at the position of the decoder's counter, modulo `2^64`
  (`decodeRun_replay_after_wrap`: after `2^64 - 1` inputs that fail authentication, a replay
  of the first frame is accepted again).
-/

namespace Reflex

/-- A call on a frame encoder. -/
inductive EncoderCall
  | encode (f : Frame)
  | encodeToWriter (f : Frame)
  | writeFrame (f : Frame)
  | writeFrameWithMorphing (cfg : MorphingConfig) (f : Frame) (draws : List Draw)

/-- The frame a call without morphing seals. -/
def EncoderCall.frame? : EncoderCall → Option Frame
  | .encode f => some f
  | .encodeToWriter f => some f
  | .writeFrame f => some f
  | .writeFrameWithMorphing .. => none

/-- The nonce of the `i`-th seal of an encoder (from `1`): `LE64(i mod 2^64)`, then four zero
    bytes. -/
def nonceAt (i : Nat) : Bytes := putLE 8 (i % 2 ^ 64) ++ [0, 0, 0, 0]

theorem nonceAt_eq (i : Nat) : nonceAt i = putLE 8 i ++ [0, 0, 0, 0] := by
  rw [nonceAt, show (2 : Nat) ^ 64 = 256 ^ 8 by decide, putLE_mod]

theorem nonceAt_inj {i j : Nat} (h : nonceAt i = nonceAt j) : i % 2 ^ 64 = j % 2 ^ 64 :=
  putLE_inj (Nat.mod_lt _ (by decide)) (Nat.mod_lt _ (by decide)) (List.append_inj_left h (by simp))

/-- Up to `2^64` seals, their nonces are distinct. -/
theorem nonceAt_nodup {m : Nat} (hm : m ≤ 2 ^ 64) :
    ((List.range m).map fun i => nonceAt (i + 1)).Nodup := by
  refine (List.nodup_range m).map_on fun i hi j hj h => ?_
  have hij := nonceAt_inj h
  rw [List.mem_range] at hi hj
  omega

/-- A counter that counts `n` modulo `2^64`, once incremented, gives the nonce of `n + 1`. -/
theorem nonceOf_add_one_eq {c : UInt64} {n : Nat} (h : c.toNat = n % 2 ^ 64) :
    nonceOf (c + 1) = nonceAt (n + 1) := by
  rw [nonceOf_add_one, nonceAt_eq, h, ← putLE_mod 8 (n % 2 ^ 64 + 1), ← putLE_mod 8 (n + 1),
    show (256 : Nat) ^ 8 = 2 ^ 64 by decide, Nat.add_mod, Nat.mod_mod, ← Nat.add_mod]

/-- The in-memory buffer frames are written to: `Write` appends and never fails. -/
def appendWrite (s b : Bytes) : Bytes × Option GoError := (s ++ b, none)

variable (A : Aead) {W : Type} (write : W → Bytes → W × Option GoError)

/-- One call: the encoder and the writer after it. -/
def FrameEncoder.call (e : FrameEncoder) (w : W) : EncoderCall → FrameEncoder × W
  | .encode f => ((e.encode A f).1, w)
  | .encodeToWriter f => ((e.encodeToWriter A write w f).1, (e.encodeToWriter A write w f).2.1)
  | .writeFrame f => ((e.writeFrame A write w f).1, (e.writeFrame A write w f).2.1)
  | .writeFrameWithMorphing cfg f ds =>
    ((e.writeFrameWithMorphing A write cfg w f ds).1,
      (e.writeFrameWithMorphing A write cfg w f ds).2.1)

/-- A run of calls. -/
def FrameEncoder.run : FrameEncoder → W → List EncoderCall → FrameEncoder × W
  | e, w, [] => (e, w)
  | e, w, c :: cs => (e.call A write w c).1.run (e.call A write w c).2 cs

/-! ## The nonces -/

/-- The invariant of an encoder: its `i`-th seal used `nonceAt i`, and its counter is the number
    of its seals modulo `2^64`. -/
structure FrameEncoder.Inv (e : FrameEncoder) : Prop where
  nonces : e.sealed.map Prod.fst = (List.range e.sealed.length).map fun i => nonceAt (i + 1)
  counter : e.counter.toNat = e.sealed.length % 2 ^ 64

theorem FrameEncoder.inv_new {key : Bytes} {e : FrameEncoder} (he : newFrameEncoder key = .ok e) :
    e.Inv := by
  obtain rfl := eq_of_newFrameEncoder he
  exact ⟨rfl, rfl⟩

variable {A write}

theorem FrameEncoder.Inv.sealFrame {e : FrameEncoder} (he : e.Inv) (f : Frame) :
    (e.sealFrame A f).1.Inv := by
  have hn := nonceOf_add_one_eq he.counter
  constructor
  · rw [sealFrame_sealed, List.map_append, he.nonces, List.length_append, List.length_singleton,
      List.range_succ, List.map_append]
    simp [hn]
  · rw [sealFrame_counter, UInt64.toNat_add_one, he.counter, sealFrame_sealed, List.length_append,
      List.length_singleton, Nat.add_mod, Nat.mod_mod, ← Nat.add_mod]

/-- What an encoder with the invariant puts out when it has sealed `i` frames: the ciphertext of
    the frame under `nonceAt (i + 1)`, the nonce it logs, behind the ciphertext's length. -/
theorem FrameEncoder.Inv.sealFrame_eq {e : FrameEncoder} (he : e.Inv) (f : Frame) :
    e.sealFrame A f =
      (⟨e.key, e.counter + 1, e.sealed ++ [(nonceAt (e.sealed.length + 1), f)]⟩,
        putBE 2 ((A.encrypt e.key (nonceAt (e.sealed.length + 1)) f.plaintext).length % 2 ^ 16) ++
          A.encrypt e.key (nonceAt (e.sealed.length + 1)) f.plaintext) := by
  rw [FrameEncoder.sealFrame, nonceOf_add_one_eq he.counter]

theorem FrameEncoder.Inv.writeFrame {e : FrameEncoder} (he : e.Inv) (w : W) (f : Frame) :
    (e.writeFrame A write w f).1.Inv := he.sealFrame (A := A) f

/-- What holds of an encoder and survives `WriteFrame` holds after any part of
    `WriteFrameWithMorphing`: each level writes one frame. -/
theorem morphWith_induction (P : FrameEncoder → Prop)
    (hP : ∀ e w f, P e → P (e.writeFrame A write w f).1) (p : TrafficProfile) :
    ∀ (draws : List Draw) (e : FrameEncoder) (w : W) (f : Frame), P e →
      P (e.morphWith A write p w f draws).1
  | [], _, _, _, he => he
  | d :: ds, e, w, f, he => by
    have step : ∀ e w f e' w' r, e.writeFrame A write w f = (e', w', r) → P e → P e' :=
      fun e w f e' w' r h he => by simpa [h] using hP e w f he
    unfold FrameEncoder.morphWith
    split
    · exact he
    · split_ifs
      · split
        · exact step _ _ _ _ _ _ ‹_› he
        · have he' := step _ _ _ _ _ _ ‹_› he
          split
          · exact he'
          · exact morphWith_induction P hP p ds _ _ _ he'
      · split
        · exact step _ _ _ _ _ _ ‹_› he
        · have he' := step _ _ _ _ _ _ ‹_› he
          split <;> exact he'

theorem FrameEncoder.Inv.call {e : FrameEncoder} (he : e.Inv) (w : W) :
    ∀ c, (e.call A write w c).1.Inv
  | .encode f => he.sealFrame (A := A) f
  | .encodeToWriter f => he.sealFrame (A := A) f
  | .writeFrame f => he.sealFrame (A := A) f
  | .writeFrameWithMorphing cfg f ds => by
    simp only [FrameEncoder.call, FrameEncoder.writeFrameWithMorphing]
    split
    · exact morphWith_induction _ (fun _ _ _ h => h.writeFrame _ _) _ ds e w f he
    · exact @FrameEncoder.Inv.writeFrame A W write e he w f

theorem FrameEncoder.Inv.run {e : FrameEncoder} (he : e.Inv) (w : W) :
    ∀ cs, (e.run A write w cs).1.Inv
  | [] => he
  | c :: cs => (he.call w c).run _ cs

/-- Along every run of a fresh encoder, through any mix of the four write paths, the `i`-th
    sealed frame uses the nonce `LE64(i mod 2^64) ‖ 00000000`, and as long as at most `2^64`
    frames were sealed these nonces are pairwise distinct. -/
theorem run_nonces {key : Bytes} {e : FrameEncoder} (he : newFrameEncoder key = .ok e) (w : W)
    (calls : List EncoderCall) :
    (e.run A write w calls).1.sealed.map Prod.fst =
        (List.range (e.run A write w calls).1.sealed.length).map (fun i => nonceAt (i + 1)) ∧
      ((e.run A write w calls).1.sealed.length ≤ 2 ^ 64 →
        ((e.run A write w calls).1.sealed.map Prod.fst).Nodup) := by
  have hinv : (e.run A write w calls).1.Inv := (FrameEncoder.inv_new he).run w calls
  exact ⟨hinv.nonces, fun hm => hinv.nonces ▸ nonceAt_nodup hm⟩

/-- A run through `Encode` and a morphed write that the Zoom profile splits into two frames. -/
theorem run_nonces_zoom_split :
    newFrameEncoder (List.replicate 32 0) = .ok ⟨List.replicate 32 0, 0, []⟩ ∧
      ((FrameEncoder.run toyAead appendWrite ⟨List.replicate 32 0, 0, []⟩ []
          [.encode ⟨frameTypeData, []⟩, .writeFrameWithMorphing (newMorphingConfig true "zoom")
            ⟨frameTypeData, List.replicate 600 0⟩ [⟨0, 0, fun _ => 0⟩, ⟨0, 0, fun _ => 0⟩]]).1.sealed.map
          Prod.fst =
        (List.range (FrameEncoder.run toyAead appendWrite ⟨List.replicate 32 0, 0, []⟩ []
          [.encode ⟨frameTypeData, []⟩, .writeFrameWithMorphing (newMorphingConfig true "zoom")
            ⟨frameTypeData, List.replicate 600 0⟩
            [⟨0, 0, fun _ => 0⟩, ⟨0, 0, fun _ => 0⟩]]).1.sealed.length).map
          (fun i => nonceAt (i + 1)) ∧
      ((FrameEncoder.run toyAead appendWrite ⟨List.replicate 32 0, 0, []⟩ []
          [.encode ⟨frameTypeData, []⟩, .writeFrameWithMorphing (newMorphingConfig true "zoom")
            ⟨frameTypeData, List.replicate 600 0⟩
            [⟨0, 0, fun _ => 0⟩, ⟨0, 0, fun _ => 0⟩]]).1.sealed.length ≤ 2 ^ 64 →
        ((FrameEncoder.run toyAead appendWrite ⟨List.replicate 32 0, 0, []⟩ []
          [.encode ⟨frameTypeData, []⟩, .writeFrameWithMorphing (newMorphingConfig true "zoom")
            ⟨frameTypeData, List.replicate 600 0⟩
            [⟨0, 0, fun _ => 0⟩, ⟨0, 0, fun _ => 0⟩]]).1.sealed.map Prod.fst).Nodup)) :=
  have he : newFrameEncoder (List.replicate 32 0) = .ok ⟨List.replicate 32 0, 0, []⟩ := rfl
  ⟨he, run_nonces he _ _⟩

/-! ## Reading a stream back -/

variable (A) in
/-- What one call puts on a stream, and the encoder after it: the caller appends what `Encode`
    returns, the other calls write to the stream themselves. -/
def FrameEncoder.callOnStream (e : FrameEncoder) : EncoderCall → FrameEncoder × Bytes
  | .encode f => ((e.encode A f).1, match (e.encode A f).2 with | .ok b => b | .error _ => [])
  | .encodeToWriter f => e.call A appendWrite [] (.encodeToWriter f)
  | .writeFrame f => e.call A appendWrite [] (.writeFrame f)
  | .writeFrameWithMorphing cfg f ds => e.call A appendWrite [] (.writeFrameWithMorphing cfg f ds)

variable (A) in
/-- The stream a run of calls writes. -/
def FrameEncoder.stream : FrameEncoder → List EncoderCall → Bytes
  | _, [] => []
  | e, c :: cs => (e.callOnStream A c).2 ++ (e.callOnStream A c).1.stream cs

variable (A) in
/-- `n` successive `ReadFrame` calls of one decoder on one reader. -/
def FrameDecoder.readFrames :
    FrameDecoder → Conn → Nat → List (Except GoError Frame) × FrameDecoder × Conn
  | d, r, 0 => ([], d, r)
  | d, r, n + 1 =>
    ((d.readFrame A r).2.1 :: ((d.readFrame A r).1.readFrames (d.readFrame A r).2.2 n).1,
      ((d.readFrame A r).1.readFrames (d.readFrame A r).2.2 n).2)

theorem callOnStream_of_frame {e : FrameEncoder} {c : EncoderCall} {f : Frame}
    (h : c.frame? = some f) : e.callOnStream A c = e.sealFrame A f := by
  cases c <;> simp_all [EncoderCall.frame?, FrameEncoder.callOnStream, FrameEncoder.call,
    FrameEncoder.encode, FrameEncoder.encodeToWriter, FrameEncoder.writeFrame, appendWrite]

/-- One step: a decoder in step with the encoder reads the frame the encoder sealed. -/
theorem readFrame_sealFrame (hA : A.Correct) {e : FrameEncoder} {d : FrameDecoder}
    (hk : d.key = e.key) (hc : d.counter = e.counter) {f : Frame}
    (hf : f.payload.length ≤ maxDecodablePayload) {r : Conn} {rest : Bytes}
    (hr : r.bytes = (e.sealFrame A f).2 ++ rest) :
    ∃ r', d.readFrame A r = (⟨d.key, d.counter + 1⟩, .ok f, r') ∧ r'.bytes = rest ∧
      r'.close = r.close := by
  obtain ⟨key, counter⟩ := d
  obtain ⟨_, _, sealed⟩ := e
  simp only at hk hc
  subst hk hc
  have hl : (A.encrypt key (nonceOf (counter + 1)) f.plaintext).length = f.payload.length + 17 := by
    rw [hA.length_encrypt]; simp [Frame.plaintext]
  unfold maxDecodablePayload at hf
  have hb : (FrameEncoder.sealFrame A ⟨key, counter, sealed⟩ f).2 =
      putBE 2 (A.encrypt key (nonceOf (counter + 1)) f.plaintext).length ++
        A.encrypt key (nonceOf (counter + 1)) f.plaintext := by
    simp only [FrameEncoder.sealFrame]
    rw [Nat.mod_eq_of_lt (by omega)]
  obtain ⟨r', h, hb', hc'⟩ := @readFrame_frame A ⟨key, counter⟩ _
    (A.encrypt key (nonceOf (counter + 1)) f.plaintext) rest (by rw [hl]; omega) (by rw [hl]; omega)
    (hr.trans (by rw [hb]))
  refine ⟨r', ?_, hb', hc'⟩
  have hdec := decode_encrypt hA ⟨key, counter⟩ f [] (by omega)
  dsimp only at hdec
  rw [List.append_nil] at hdec
  rw [h, hdec]

/-- The run lemma: a decoder in step with the encoder reads, call after call, the frames of the
    stream the encoder writes, and the reader keeps what follows. -/
theorem readFrames_stream_append (hA : A.Correct) :
    ∀ (calls : List EncoderCall) (frames : List Frame) (e : FrameEncoder) (d : FrameDecoder)
      (r : Conn) (rest : Bytes), d.key = e.key → d.counter = e.counter →
      calls.map EncoderCall.frame? = frames.map some →
      (∀ f ∈ frames, f.payload.length ≤ maxFramePayloadSize) →
      r.bytes = e.stream A calls ++ rest →
      (d.readFrames A r calls.length).1 = frames.map .ok ∧
        (d.readFrames A r calls.length).2.2.bytes = rest
  | [], [], _, _, _, _, _, _, _, _, hr => ⟨rfl, hr⟩
  | [], _ :: _, _, _, _, _, _, _, h, _, _ => by simp at h
  | _ :: _, [], _, _, _, _, _, _, h, _, _ => by simp at h
  | c :: cs, f :: fs, e, d, r, rest, hk, hc, h, hsize, hr => by
    simp only [List.map_cons, List.cons.injEq] at h
    rw [FrameEncoder.stream, callOnStream_of_frame h.1, List.append_assoc] at hr
    obtain ⟨r', h1, hb', -⟩ := readFrame_sealFrame hA hk hc
      ((hsize f (List.mem_cons_self _ _)).trans maxFramePayloadSize_le) hr
    have ih := readFrames_stream_append hA cs fs _ ⟨d.key, d.counter + 1⟩ r' rest
      (by simpa using hk) (by simpa using hc) h.2
      (fun f hf => hsize f (List.mem_cons_of_mem _ hf)) hb'
    simp only [List.length_cons, FrameDecoder.readFrames, h1, List.map_cons]
    exact ⟨by rw [ih.1], ih.2⟩

/-- A fresh encoder and a fresh decoder under one key: whatever mix of `Encode` (its output
    appended in order) and `EncodeToWriter`/`WriteFrame` writes frames of at most
    `MaxFramePayloadSize` bytes, however the stream is cut into reads, as many `ReadFrame`
    calls return the same frames in the same order and consume the stream exactly. -/
theorem readFrames_stream (hA : A.Correct) {key : Bytes} {e : FrameEncoder} {d : FrameDecoder}
    (he : newFrameEncoder key = .ok e) (hd : newFrameDecoder key = .ok d)
    (calls : List EncoderCall) (frames : List Frame)
    (hcalls : calls.map EncoderCall.frame? = frames.map some)
    (hsize : ∀ f ∈ frames, f.payload.length ≤ maxFramePayloadSize)
    (r : Conn) (hr : r.bytes = e.stream A calls) :
    (d.readFrames A r calls.length).1 = frames.map .ok ∧
      (d.readFrames A r calls.length).2.2.bytes = [] := by
  obtain rfl := eq_of_newFrameEncoder he
  obtain rfl := eq_of_newFrameDecoder hd
  exact readFrames_stream_append hA calls frames _ _ r [] rfl rfl hcalls hsize
    (by rw [hr, List.append_nil])

/-- An `Encode` and a `WriteFrame`, read back byte by byte. -/
theorem readFrames_stream_bytewise :
    toyAead.Correct ∧
      newFrameEncoder (List.replicate 32 0) = .ok ⟨List.replicate 32 0, 0, []⟩ ∧
      newFrameDecoder (List.replicate 32 0) = .ok ⟨List.replicate 32 0, 0⟩ ∧
      [EncoderCall.encode ⟨frameTypeData, [7]⟩, .writeFrame ⟨frameTypeClose, []⟩].map
          EncoderCall.frame? = [⟨frameTypeData, [7]⟩, ⟨frameTypeClose, []⟩].map some ∧
      (∀ f ∈ [Frame.mk frameTypeData [7], ⟨frameTypeClose, []⟩],
          f.payload.length ≤ maxFramePayloadSize) ∧
      Conn.bytes ⟨(FrameEncoder.stream toyAead ⟨List.replicate 32 0, 0, []⟩
          [.encode ⟨frameTypeData, [7]⟩, .writeFrame ⟨frameTypeClose, []⟩]).map (fun b => [b]),
          .eof⟩ =
        FrameEncoder.stream toyAead ⟨List.replicate 32 0, 0, []⟩
          [.encode ⟨frameTypeData, [7]⟩, .writeFrame ⟨frameTypeClose, []⟩] ∧
      (FrameDecoder.readFrames toyAead ⟨List.replicate 32 0, 0⟩
          ⟨(FrameEncoder.stream toyAead ⟨List.replicate 32 0, 0, []⟩
            [.encode ⟨frameTypeData, [7]⟩, .writeFrame ⟨frameTypeClose, []⟩]).map (fun b => [b]),
            .eof⟩ 2).1 = [.ok ⟨frameTypeData, [7]⟩, .ok ⟨frameTypeClose, []⟩] ∧
      (FrameDecoder.readFrames toyAead ⟨List.replicate 32 0, 0⟩
          ⟨(FrameEncoder.stream toyAead ⟨List.replicate 32 0, 0, []⟩
            [.encode ⟨frameTypeData, [7]⟩, .writeFrame ⟨frameTypeClose, []⟩]).map (fun b => [b]),
            .eof⟩ 2).2.2.bytes = [] :=
  have he : newFrameEncoder (List.replicate 32 0) = .ok ⟨List.replicate 32 0, 0, []⟩ := rfl
  have hd : newFrameDecoder (List.replicate 32 0) = .ok ⟨List.replicate 32 0, 0⟩ := rfl
  have hcalls : [EncoderCall.encode ⟨frameTypeData, [7]⟩, .writeFrame ⟨frameTypeClose, []⟩].map
      EncoderCall.frame? = [⟨frameTypeData, [7]⟩, ⟨frameTypeClose, []⟩].map some := rfl
  have hsize : ∀ f ∈ [Frame.mk frameTypeData [7], ⟨frameTypeClose, []⟩],
      f.payload.length ≤ maxFramePayloadSize := by decide
  ⟨toyAead_correct, he, hd, hcalls, hsize, rfl,
    readFrames_stream toyAead_correct he hd _ _ hcalls hsize _ rfl⟩

/-! ## Replays -/

/-- The two length checks of `Decode` pass on `data`. -/
def PassesLengthChecks (data : Bytes) : Prop :=
  2 ≤ data.length ∧ (2 + beNat (data.take 2)) % 2 ^ 16 ≤ data.length

instance : DecidablePred PassesLengthChecks := fun _ => inferInstanceAs (Decidable (_ ∧ _))

variable (A) in
/-- `Decode` called by one decoder on each input in turn, until a call panics: each call's
    result, with the number of calls so far that passed the two length checks. -/
def FrameDecoder.decodeRun : FrameDecoder → Nat → List Bytes → List (Nat × Except GoError Frame)
  | _, _, [] => []
  | d, n, x :: xs =>
    match (d.decode A x).2 with
    | .error (.panic m) => [(if PassesLengthChecks x then n + 1 else n, .error (.panic m))]
    | r => (if PassesLengthChecks x then n + 1 else n, r) ::
        (d.decode A x).1.decodeRun (if PassesLengthChecks x then n + 1 else n) xs

/-- The seals of an encoder, as the ideal AEAD records them: nonce and plaintext. -/
def FrameEncoder.sealedLog (e : FrameEncoder) : List (Bytes × Bytes) :=
  e.sealed.map fun s => (s.1, s.2.plaintext)

theorem Frame.plaintext_inj {f g : Frame} (h : f.plaintext = g.plaintext) : f = g := by
  cases f; cases g; simp_all [Frame.plaintext]

/-- Unless it panics, `Decode` moves the counter on exactly when the two length checks pass. -/
theorem decode_state {d : FrameDecoder} {x : Bytes}
    (h : ∀ m, (d.decode A x).2 ≠ .error (.panic m)) :
    (d.decode A x).1 = if PassesLengthChecks x then ⟨d.key, d.counter + 1⟩ else d := by
  by_cases hp : PassesLengthChecks x
  · rw [if_pos hp]
    obtain ⟨h2, hi⟩ := hp
    unfold FrameDecoder.decode at h ⊢
    rw [if_neg (by omega), if_neg (by omega)] at h ⊢
    unfold slice at h ⊢
    split_ifs at h ⊢
    · dsimp only
      split <;> rfl
    · exact absurd rfl (h _)
  · rw [if_neg hp]
    unfold FrameDecoder.decode
    by_cases h2 : x.length < 2
    · rw [if_pos h2]
    by_cases hi : x.length < (2 + beNat (x.take 2)) % 2 ^ 16
    · rw [if_neg h2, if_pos hi]
    · exact absurd ⟨by omega, by omega⟩ hp

/-- A `Decode` call that succeeds passed the length checks, moved the counter on and opened a
    ciphertext under the nonce of the new counter. -/
theorem decode_ok {d : FrameDecoder} {x : Bytes} {f : Frame} (h : (d.decode A x).2 = .ok f) :
    PassesLengthChecks x ∧ (d.decode A x).1 = ⟨d.key, d.counter + 1⟩ ∧
      ∃ ct, A.decrypt d.key (nonceOf (d.counter + 1)) ct = some f.plaintext := by
  have hs := decode_state (A := A) (d := d) (x := x) (by simp [h])
  unfold FrameDecoder.decode at h
  by_cases h2 : x.length < 2
  · rw [if_pos h2] at h; cases h
  by_cases hi : x.length < (2 + beNat (x.take 2)) % 2 ^ 16
  · rw [if_neg h2, if_pos hi] at h; cases h
  rw [if_neg h2, if_neg hi] at h
  have hp : PassesLengthChecks x := ⟨by omega, by omega⟩
  refine ⟨hp, by rw [hs, if_pos hp], ?_⟩
  split at h
  · cases h
  · rename_i ct _
    split at h <;> cases h
    exact ⟨ct, ‹_›⟩

theorem decodeRun_cons_of_not_panic {d : FrameDecoder} {x : Bytes} {n : Nat} {xs : List Bytes}
    (h : ∀ m, (d.decode A x).2 ≠ .error (.panic m)) :
    d.decodeRun A n (x :: xs) = (if PassesLengthChecks x then n + 1 else n, (d.decode A x).2) ::
      (d.decode A x).1.decodeRun A (if PassesLengthChecks x then n + 1 else n) xs := by
  rw [FrameDecoder.decodeRun]
  split
  · exact absurd ‹_› (h _)
  · rfl

/-- Along a run, a successful call counted `c` is not the first count, and opened its
    ciphertext under `nonceAt c`. -/
theorem decodeRun_ok : ∀ (xs : List Bytes) (d : FrameDecoder) (n : Nat),
    d.counter.toNat = n % 2 ^ 64 → ∀ {c : Nat} {f : Frame}, (c, .ok f) ∈ d.decodeRun A n xs →
      n < c ∧ ∃ ct, A.decrypt d.key (nonceAt c) ct = some f.plaintext
  | [], _, _, _, _, _, h => by simp [FrameDecoder.decodeRun] at h
  | x :: xs, d, n, hn, c, f, h => by
    unfold FrameDecoder.decodeRun at h
    split at h
    · simp at h
    · rename_i r hr
      rcases List.mem_cons.1 h with h | h
      · obtain ⟨rfl, hf⟩ := Prod.mk.inj h
        obtain ⟨hp, -, ct, hct⟩ := decode_ok hf.symm
        exact ⟨by simp [hp], ct, by rwa [if_pos hp, ← nonceOf_add_one_eq hn]⟩
      · have hs := decode_state (A := A) (d := d) (x := x) hr
        by_cases hp : PassesLengthChecks x
        · rw [if_pos hp] at h hs
          rw [hs] at h
          obtain ⟨hlt, hct⟩ := decodeRun_ok xs _ _
            (by rw [UInt64.toNat_add_one, hn, Nat.add_mod, Nat.mod_mod, ← Nat.add_mod]) h
          exact ⟨by omega, hct⟩
        · rw [if_neg hp] at h hs
          rw [hs] at h
          exact decodeRun_ok xs d n hn h

variable (write) in
/-- Against the ideal AEAD of a fresh encoder's seals, over any run of it and any inputs of a
    fresh decoder (replays, reorderings, drops and injections included), a `Decode` call that
    succeeds returns a frame the encoder sealed at a position congruent, modulo `2^64`, to the
    number `c` of the decoder's calls so far that passed the length checks; up to `2^64` seals
    and `c ≤ 2^64`, exactly the frame sealed at position `c`. -/
theorem decodeRun_ideal {key : Bytes} {e : FrameEncoder} {d : FrameDecoder}
    (he : newFrameEncoder key = .ok e) (hd : newFrameDecoder key = .ok d) (w : W)
    (calls : List EncoderCall) (inputs : List Bytes) {c : Nat} {f : Frame}
    (hc : (c, .ok f) ∈ d.decodeRun (A.ideal key (e.run A write w calls).1.sealedLog) 0 inputs) :
    (∃ i, (i + 1) % 2 ^ 64 = c % 2 ^ 64 ∧
        ((e.run A write w calls).1.sealed.map Prod.snd)[i]? = some f) ∧
      (c ≤ 2 ^ 64 → (e.run A write w calls).1.sealed.length ≤ 2 ^ 64 →
        ((e.run A write w calls).1.sealed.map Prod.snd)[c - 1]? = some f) := by
  have hinv : (e.run A write w calls).1.Inv := (FrameEncoder.inv_new he).run w calls
  obtain rfl := eq_of_newFrameDecoder hd
  obtain ⟨hc0, ct, hct⟩ := decodeRun_ok _ _ _ rfl hc
  obtain ⟨hmem, -⟩ := Aead.ideal_decrypt hct
  obtain ⟨⟨n, g⟩, hg, hng⟩ := List.mem_map.1 hmem
  simp only [Prod.mk.injEq] at hng
  obtain ⟨rfl, hfg⟩ := hng
  obtain ⟨i, hi⟩ := List.mem_iff_getElem?.1 hg
  have hlt : i < (e.run A write w calls).1.sealed.length := (List.getElem?_eq_some_iff.1 hi).1
  have hn : nonceAt (i + 1) = nonceAt c := by
    have := congrArg (·[i]?) hinv.nonces
    simp only [List.getElem?_map, hi, List.getElem?_range hlt, Option.map_some'] at this
    exact (Option.some.inj this).symm.trans rfl
  have hic := nonceAt_inj hn
  obtain rfl : g = f := Frame.plaintext_inj hfg
  have hget : ((e.run A write w calls).1.sealed.map Prod.snd)[i]? = some g := by
    simp [List.getElem?_map, hi]
  exact ⟨⟨i, hic, hget⟩, fun hc64 hm => by rwa [show c - 1 = i by omega]⟩

/-- A replay refused: the frame sealed first is accepted once, at the count `1`, and its replay
    right after fails authentication at the count `2`. -/
theorem decodeRun_ideal_replay_refused :
    let key := List.replicate 32 0
    let enc := (FrameEncoder.run toyAead appendWrite ⟨key, 0, []⟩ [] [.encode ⟨frameTypeData, [7]⟩]).1
    let ct := (FrameEncoder.sealFrame toyAead ⟨key, 0, []⟩ ⟨frameTypeData, [7]⟩).2
    newFrameEncoder key = .ok ⟨key, 0, []⟩ ∧ newFrameDecoder key = .ok ⟨key, 0⟩ ∧
      FrameDecoder.decodeRun (toyAead.ideal key enc.sealedLog) ⟨key, 0⟩ 0 [ct, ct] =
        [(1, .ok ⟨frameTypeData, [7]⟩), (2, .error (.err "decryption failed"))] ∧
      (∃ i, (i + 1) % 2 ^ 64 = 1 % 2 ^ 64 ∧
        (enc.sealed.map Prod.snd)[i]? = some ⟨frameTypeData, [7]⟩) ∧
      (1 ≤ 2 ^ 64 → enc.sealed.length ≤ 2 ^ 64 →
        (enc.sealed.map Prod.snd)[1 - 1]? = some ⟨frameTypeData, [7]⟩) :=
  have hrun : FrameDecoder.decodeRun (toyAead.ideal (List.replicate 32 0)
      (FrameEncoder.run toyAead appendWrite ⟨List.replicate 32 0, 0, []⟩ []
        [.encode ⟨frameTypeData, [7]⟩]).1.sealedLog) ⟨List.replicate 32 0, 0⟩ 0
      [(FrameEncoder.sealFrame toyAead ⟨List.replicate 32 0, 0, []⟩ ⟨frameTypeData, [7]⟩).2,
        (FrameEncoder.sealFrame toyAead ⟨List.replicate 32 0, 0, []⟩ ⟨frameTypeData, [7]⟩).2] =
      [(1, .ok ⟨frameTypeData, [7]⟩), (2, .error (.err "decryption failed"))] := rfl
  have he : newFrameEncoder (List.replicate 32 0) = .ok ⟨List.replicate 32 0, 0, []⟩ := rfl
  have hd : newFrameDecoder (List.replicate 32 0) = .ok ⟨List.replicate 32 0, 0⟩ := rfl
  ⟨he, hd, hrun, decodeRun_ideal appendWrite he hd [] _ _ (hrun ▸ List.mem_cons_self _ _)⟩

/-- `Decode` of the two bytes `[0, 0]`: both length checks pass on an empty ciphertext, so the
    counter moves on when the AEAD refuses it. -/
theorem decode_zero_header {d : FrameDecoder}
    (h : A.decrypt d.key (nonceOf (d.counter + 1)) [] = none) :
    d.decode A [0, 0] = (⟨d.key, d.counter + 1⟩, .error (.err "decryption failed")) := by
  simp [FrameDecoder.decode, slice, beNat, leNat, h]

/-- Inputs `[0, 0]` that the AEAD refuses move the decoder's counter on, one by one, and are
    all counted. -/
theorem decodeRun_zero_headers {key : Bytes} (hA : ∀ n, A.decrypt key n [] = none) :
    ∀ (k : Nat) (d : FrameDecoder) (n : Nat) (rest : List Bytes), d.key = key →
      ∃ (pre : List (Nat × Except GoError Frame)) (d' : FrameDecoder), d'.key = key ∧
        d'.counter.toNat = (d.counter.toNat + k) % 2 ^ 64 ∧
        d.decodeRun A n (List.replicate k [0, 0] ++ rest) = pre ++ d'.decodeRun A (n + k) rest
  | 0, d, n, rest, hk => ⟨[], d, hk, (Nat.mod_eq_of_lt d.counter.toNat_lt_size).symm, rfl⟩
  | k + 1, d, n, rest, hk => by
    have hp : PassesLengthChecks [0, 0] := by decide
    obtain ⟨pre, d', hk', hc', h⟩ :=
      decodeRun_zero_headers hA k ⟨d.key, d.counter + 1⟩ (n + 1) rest hk
    refine ⟨(n + 1, .error (.err "decryption failed")) :: pre, d', hk', ?_, ?_⟩
    · rw [hc', UInt64.toNat_add_one, Nat.mod_add_mod, Nat.add_right_comm, Nat.add_assoc]
    · rw [List.replicate_succ, List.cons_append, FrameDecoder.decodeRun,
        decode_zero_header (by rw [hk]; exact hA _), if_pos hp, h, Nat.add_right_comm]
      rfl

theorem toyAead_ideal_decrypt_nil (k k' n : Bytes) (log : List (Bytes × Bytes)) :
    (toyAead.ideal k log).decrypt k' n [] = none := by
  simp only [Aead.ideal, Option.map_eq_none', List.find?_eq_none]
  intro x _ h
  have := congrArg List.length (of_decide_eq_true h).2
  simp [toyAead, length_toyTag] at this

/-- A replay accepted. A fresh encoder seals one frame; the decoder opens it, then gets
    `2^64 - 1` inputs `[0, 0]`, which wrap its counter back to `0`, and then the same bytes
    again: it accepts them a second time, at count `2^64 + 1`, where no frame was sealed. -/
theorem decodeRun_replay_after_wrap :
    let key := List.replicate 32 0
    let enc := (FrameEncoder.run toyAead appendWrite ⟨key, 0, []⟩ [] [.encode ⟨frameTypeData, []⟩]).1
    let ct := (FrameEncoder.sealFrame toyAead ⟨key, 0, []⟩ ⟨frameTypeData, []⟩).2
    let inputs := ct :: (List.replicate (2 ^ 64 - 1) [0, 0] ++ [ct])
    enc.sealed.length = 1 ∧
      (1, .ok ⟨frameTypeData, []⟩) ∈
        FrameDecoder.decodeRun (toyAead.ideal key enc.sealedLog) ⟨key, 0⟩ 0 inputs ∧
      (2 ^ 64 + 1, .ok ⟨frameTypeData, []⟩) ∈
        FrameDecoder.decodeRun (toyAead.ideal key enc.sealedLog) ⟨key, 0⟩ 0 inputs := by
  dsimp only
  have hdec : ∀ c : UInt64, c = 0 →
      FrameDecoder.decode (toyAead.ideal (List.replicate 32 0) (FrameEncoder.run toyAead appendWrite
          ⟨List.replicate 32 0, 0, []⟩ [] [.encode ⟨frameTypeData, []⟩]).1.sealedLog)
        ⟨List.replicate 32 0, c⟩
        (FrameEncoder.sealFrame toyAead ⟨List.replicate 32 0, 0, []⟩ ⟨frameTypeData, []⟩).2 =
      (⟨List.replicate 32 0, 1⟩, .ok ⟨frameTypeData, []⟩) := by
    rintro _ rfl; rfl
  have hp : PassesLengthChecks
      (FrameEncoder.sealFrame toyAead ⟨List.replicate 32 0, 0, []⟩ ⟨frameTypeData, []⟩).2 := by
    decide
  obtain ⟨pre, ⟨key, c⟩, rfl, hc, h⟩ := decodeRun_zero_headers
    (toyAead_ideal_decrypt_nil (List.replicate 32 0) (List.replicate 32 0) · _) (2 ^ 64 - 1)
    ⟨List.replicate 32 0, 1⟩ 1
    [(FrameEncoder.sealFrame toyAead ⟨List.replicate 32 0, 0, []⟩ ⟨frameTypeData, []⟩).2] rfl
  have hc0 : c = 0 := UInt64.toNat.inj hc
  refine ⟨rfl, ?_, ?_⟩ <;>
    rw [decodeRun_cons_of_not_panic (fun m hm => by rw [hdec 0 rfl] at hm; cases hm), if_pos hp,
      hdec 0 rfl]
  · exact List.mem_cons_self _ _
  · refine List.mem_cons_of_mem _ ?_
    rw [h]
    refine List.mem_append_right _ ?_
    rw [decodeRun_cons_of_not_panic (fun m hm => by rw [hdec c hc0] at hm; cases hm), if_pos hp,
      hdec c hc0]
    exact List.mem_cons_self _ _

end Reflex
