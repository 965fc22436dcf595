import Reflex.Fallback
import Reflex.Handshake
import Reflex.Relay
import Reflex.Request

/-!
# The inbound handler

`inbound/inbound.go`. `Process` sets a read deadline, peeks 76 bytes and looks for the magic:
a Reflex client goes to `handleReflexHandshake`, anything else to `handleFallback`, on the same
buffered reader. `handleReflexHandshake` reads the 76 bytes of the handshake, checks the
timestamp and looks the user up; an unknown user goes to `handleFallback` too, from where the
reader stands. A known one gets the server handshake, and the session starts: the first frame
holds the request header, and two relays copy the rest.

The handler's environment is a parameter (`InboundEnv`): the clock, the private key
`GenerateKeyPair` draws, the outcome of dialling a fallback and of dispatching the request.
`SetReadDeadline` and the writes to the client succeed. A client that waits for a reply is a
`Conn` that ends at the read deadline; the model of the reads after the deadline is cleared
takes a client that closes its side.

* `process_not_magic`, `process_short_not_magic`: a client without the magic goes to the
  fallback, unless fewer than 76 bytes came before the read deadline: then `Process` fails;
* `process_unknown_user`: after a well-formed handshake of an unknown user, the fallback sees
  the stream without its first 76 bytes;
* `startSession_stream`, `requestDone_stream`: the first frame and the relay of a session, on
  the stream an outbound writes;
* `newHandler_get`: `New` fails with the error of the first client `ToMemoryUser` rejects, and
  otherwise its validator gives each ID the last client with it;
* `acceptHandshake_spec`, `startSession_cases`, `process_eq`: what each stage can do, from which
  `process_session_authenticated` (a session is only ever started for a user the validator
  knows, on a handshake in the time window, with the key derived from its public key) and
  `process_fallback_sound` (what a fallback gets: a prefix of the stream without the magic, or
  of the stream past the handshake of an unknown user) follow.
-/

namespace Reflex

/-- `Handler`: the validator `New` fills with the config's users, and the config's fallback
    entries (`none` when `Fallbacks` is nil). -/
structure Handler where
  validator : Validator
  fallbacks : Option (List Fallback)

/-- The loop of `New` over the config's clients: `ToMemoryUser` (`toMemoryUser`, which fails on
    an ID that is not a UUID) turns each into a user, which is added to the validator. -/
def addClients {C : Type} (toMemoryUser : C → Except GoError MemoryUser) :
    Validator → List C → Except GoError Validator
  | v, [] => .ok v
  | v, c :: cs =>
    match toMemoryUser c with
    | .error e => .error (.base "failed to get Reflex user" e)
    | .ok u =>
      match v.add u with
      | (_, some e) => .error (.base "failed to add user" e)
      | (v', none) => addClients toMemoryUser v' cs

/-- `New`: a validator with the config's clients, and the config's fallback entries, from which
    `findFallback` builds its table. -/
def newHandler {C : Type} (toMemoryUser : C → Except GoError MemoryUser) (clients : List C)
    (fallbacks : Option (List Fallback)) : Except GoError Handler :=
  match addClients toMemoryUser newValidator clients with
  | .error e => .error e
  | .ok v => .ok ⟨v, fallbacks⟩

/-- What `Process` takes from its environment. -/
structure InboundEnv where
  /-- `time.Now().Unix()`. -/
  now : BitVec 64
  /-- The private key `GenerateKeyPair` draws. -/
  serverPrivateKey : FixedBytes 32
  /-- The error of `net.Dial("tcp", dest)` to a fallback. -/
  dial : Bytes → Option GoError
  /-- The error of `dispatcher.Dispatch`. -/
  dispatch : Option GoError

/-- Where `handleReflexHandshake` hands over to its two relays. -/
structure InboundSession where
  user : MemoryUser
  sessionKey : Bytes
  /-- The server handshake written to the client. -/
  response : Bytes
  encoder : FrameEncoder
  decoder : FrameDecoder
  firstFrame : Frame
  request : RequestHeader
  /-- The buffered reader past the first frame. -/
  reader : Conn

/-- How `Process` ends: an error, a copy to a fallback (the entry, the address dialled, the
    bytes the copy to the back end reads from, of which the back end gets a prefix,
    `backendReceives`), or a session. -/
inductive InboundResult
  | error (e : GoError)
  | fallback (fb : Fallback) (dest : Bytes) (source : Bytes)
  | session (s : InboundSession)

/-- The result of `handleFallback` as that of `Process`. -/
def InboundResult.ofFallback : Except GoError (Fallback × Bytes × Bytes) → InboundResult
  | .error e => .error e
  | .ok (fb, dest, source) => .fallback fb dest source

/-- How the handshake part of `handleReflexHandshake` ends. -/
inductive HandshakeOutcome
  | error (e : GoError)
  /-- The user is not registered; the reader is past the 76 bytes. -/
  | unknownUser (r : Conn)
  /-- The user, the session key, the server handshake written, and the reader. -/
  | accepted (user : MemoryUser) (sessionKey : Bytes) (response : Bytes) (r : Conn)

variable (A : Aead) (X : X25519) (H : Hkdf)

/-- `handleReflexHandshake` up to writing the server handshake. -/
def Handler.acceptHandshake (h : Handler) (env : InboundEnv) (r : Conn) : HandshakeOutcome :=
  match r.readFull 76 with
  | (.error e, _) => .error (.base "failed to read handshake" e)
  | (.ok handshakeData, r') =>
    match decodeClientHandshake handshakeData with
    | .error e => .error (.base "invalid handshake" e)
    | .ok clientHS =>
      if !validateTimestamp env.now clientHS.timestamp then .error (.err "invalid timestamp")
      else
        match h.validator.get clientHS.userID with
        | .error _ => .unknownUser r'
        | .ok user =>
          .accepted user
            (sessionKeyFor X H (generateKeyPair X env.serverPrivateKey).1 clientHS.publicKey)
            (encodeServerHandshake ⟨(generateKeyPair X env.serverPrivateKey).2, env.now⟩) r'

/-- `handleReflexHandshake` from the frame codec on: the first frame, the request header it
    holds, and the dispatch. -/
def startSession (env : InboundEnv) (user : MemoryUser) (sessionKey response : Bytes)
    (r : Conn) : InboundResult :=
  match newFrameEncoder sessionKey, newFrameDecoder sessionKey with
  | .error e, _ => .error (.base "failed to create frame encoder" e)
  | _, .error e => .error (.base "failed to create frame decoder" e)
  | .ok encoder, .ok decoder =>
    match decoder.readFrame A r with
    | (_, .error e, _) => .error (.base "failed to read first frame" e)
    | (decoder', .ok firstFrame, r') =>
      if firstFrame.type ≠ frameTypeData then .error (.err "expected data frame")
      else
        match parseRequestHeader firstFrame.payload with
        | .error e => .error (.base "failed to parse request" e)
        | .ok request =>
          match env.dispatch with
          | some e => .error (.base "failed to dispatch request" e)
          | none =>
            .session ⟨user, sessionKey, response, encoder, decoder', firstFrame, request, r'⟩

/-- `Handler.handleReflexHandshake`. -/
def Handler.handleReflexHandshake (h : Handler) (env : InboundEnv) (r : Conn) : InboundResult :=
  match h.acceptHandshake X H env r with
  | .error e => .error e
  | .unknownUser r' => .ofFallback (handleFallback h.fallbacks env.dial r')
  | .accepted user sessionKey response r' => startSession A env user sessionKey response r'

/-- Whether a peeked prefix starts with the magic. -/
def hasMagic (peeked : Bytes) : Prop := 4 ≤ peeked.length ∧ beNat (peeked.take 4) = reflexMagic

instance : DecidablePred hasMagic := fun _ => inferInstanceAs (Decidable (_ ∧ _))

/-- `Handler.Process`. -/
def Handler.process (h : Handler) (env : InboundEnv) (r : Conn) : InboundResult :=
  match nonEOF (r.peek 76).2 with
  | some e => .error (.base "failed to peek connection" e)
  | none =>
    if hasMagic (r.peek 76).1 then h.handleReflexHandshake A X H env r
    else .ofFallback (handleFallback h.fallbacks env.dial r)

/-- `requestDone` of `handleReflexHandshake`, for at most `fuel` frames after the first: what
    the first frame holds past its twelfth byte goes to the link, then the frames that
    follow. -/
def InboundSession.requestDone {W : Type} (write : W → Bytes → W × Option GoError)
    (s : InboundSession) (link : W) (fuel : Nat) :
    FrameDecoder × Conn × W × Option (Option GoError) :=
  if s.firstFrame.payload.length > 12 ∧ 12 < s.firstFrame.payload.length then
    match write link (s.firstFrame.payload.drop 12) with
    | (link', some e) => (s.decoder, s.reader, link', some (some e))
    | (link', none) => relayFrames A write fuel s.decoder s.reader link'
  else relayFrames A write fuel s.decoder s.reader link

/-- `responseDone` of `handleReflexHandshake`: the buffers of the link, as frames to the client;
    `linkErr` ends the link. -/
def InboundSession.responseDone {W : Type} (write : W → Bytes → W × Option GoError)
    (s : InboundSession) (conn : W) (linkErr : GoError) (mbs : List (List Bytes)) :
    FrameEncoder × W × GoError :=
  relayBuffers A write linkErr s.encoder conn mbs

/-! ## Where a connection goes -/

variable {A X H}

theorem nonEOF_peek_of_le {r : Conn} {n : Nat} (h : n ≤ r.bytes.length) :
    nonEOF (r.peek n).2 = none := by rw [peek_of_le h]; rfl

theorem hasMagic_peek {r : Conn} : hasMagic (r.peek 76).1 ↔ hasMagic r.bytes := by
  unfold Conn.peek
  split_ifs with h
  · simp only [hasMagic, List.length_take, List.take_take]
    constructor <;> rintro ⟨h4, hm⟩ <;> refine ⟨by omega, ?_⟩ <;> simpa using hm
  · rfl

theorem hasMagic_encodeClientHandshake (hs : ClientHandshake) (rest : Bytes) :
    hasMagic (encodeClientHandshake hs ++ rest) := by
  refine ⟨by simp; omega, ?_⟩
  rw [encodeClientHandshake, List.append_assoc, List.take_left' (length_putBE 4 _), beNat_putBE]
  decide

/-- A client whose bytes do not start with the magic goes to the fallback on the same reader,
    once 76 bytes came or the client closed its side. -/
theorem process_not_magic (h : Handler) (env : InboundEnv) {r : Conn} (hm : ¬ hasMagic r.bytes)
    (hr : 76 ≤ r.bytes.length ∨ r.close = .eof) :
    h.process A X H env r = .ofFallback (handleFallback h.fallbacks env.dial r) := by
  have hpeek : nonEOF (r.peek 76).2 = none := by
    rcases hr with hr | hr
    · exact nonEOF_peek_of_le hr
    · unfold Conn.peek
      split_ifs <;> simp [nonEOF, hr, StreamEnd.err]
  rw [Handler.process, hpeek]
  exact if_neg (mt hasMagic_peek.1 hm)

/-- A client without the magic that sent fewer than 76 bytes: if it closed its side, it goes to
    the fallback; if it waits for a reply, the peek of 76 bytes ends at the read deadline and
    `Process` fails. -/
theorem process_short_not_magic (h : Handler) (env : InboundEnv) {r : Conn}
    (hm : ¬ hasMagic r.bytes) (hs : r.bytes.length < 76) :
    h.process A X H env r =
      if r.close = .eof then .ofFallback (handleFallback h.fallbacks env.dial r)
      else .error (.err "failed to peek connection > i/o timeout") := by
  split_ifs with hc
  · exact process_not_magic h env hm (.inr hc)
  · have hd : r.close = .deadline := by cases hcl : r.close <;> simp_all
    rw [Handler.process, peek_of_lt hs, hd]
    rfl

/-- An HTTP probe of 18 bytes that waits for its reply fails at the peek of 76 bytes, while the
    same probe from a client that closes its side goes to the fallback. -/
theorem process_http_probe_waits (A : Aead) (X : X25519) (H : Hkdf) :
    (Handler.mk newValidator (some [⟨[], [], [], goBytes "80"⟩])).process A X H
        ⟨1000, ⟨List.replicate 32 2, rfl⟩, fun _ => none, none⟩
        ⟨[goBytes "GET / HTTP/1.0\r\n\r\n"], .eof⟩ =
      .fallback ⟨[], [], [], goBytes "80"⟩ (goBytes "127.0.0.1:80")
        (goBytes "GET / HTTP/1.0\r\n\r\n") ∧
    (Handler.mk newValidator (some [⟨[], [], [], goBytes "80"⟩])).process A X H
        ⟨1000, ⟨List.replicate 32 2, rfl⟩, fun _ => none, none⟩
        ⟨[goBytes "GET / HTTP/1.0\r\n\r\n"], .deadline⟩ =
      .error (.err "failed to peek connection > i/o timeout") := by
  constructor <;>
    rw [process_short_not_magic _ _ (by decide) (by decide)] <;> rfl

/-- `handleReflexHandshake` on a client that sends a handshake with its timestamp in the window:
    past the 76 bytes, the user lookup decides. -/
theorem acceptHandshake_encode (h : Handler) (env : InboundEnv) {r : Conn}
    {hs : ClientHandshake} {rest : Bytes} (hr : r.bytes = encodeClientHandshake hs ++ rest)
    (hts : validateTimestamp env.now hs.timestamp = true) :
    ∃ r', r'.bytes = rest ∧ r'.close = r.close ∧ h.acceptHandshake X H env r =
      match h.validator.get hs.userID with
      | .error _ => .unknownUser r'
      | .ok user =>
        .accepted user (sessionKeyFor X H (generateKeyPair X env.serverPrivateKey).1 hs.publicKey)
          (encodeServerHandshake ⟨(generateKeyPair X env.serverPrivateKey).2, env.now⟩) r' := by
  obtain ⟨r', h1, hb, hc⟩ := readFull_of_le (c := r) (n := 76) (by simp [hr])
  have htake : r.bytes.take 76 = encodeClientHandshake hs := by
    rw [hr, List.take_left' (length_encodeClientHandshake hs)]
  have hdec : decodeClientHandshake (encodeClientHandshake hs) = .ok hs := by
    simpa using decodeClientHandshake_encode hs []
  refine ⟨r', by rw [hb, hr, List.drop_left' (length_encodeClientHandshake hs)], hc, ?_⟩
  rw [Handler.acceptHandshake, h1]
  dsimp only
  rw [htake, hdec]
  simp only [hts, Bool.not_true, Bool.false_eq_true, if_false]

/-- A registered user's handshake at the time `1000`, with the timestamp `1000 - 2^63`: negative,
    and `2^63` seconds away, it passes the check, since `now - timestamp` wraps to the least
    `int64`, whose negation is itself. -/
theorem acceptHandshake_wrapped_timestamp (X : X25519) (H : Hkdf) :
    (BitVec.ofInt 64 (-9223372036854774808)).toInt < 0 ∧
    120 < (1000 : BitVec 64).toInt - (BitVec.ofInt 64 (-9223372036854774808)).toInt ∧
    ∃ r', (Handler.mk (newValidator.add ⟨⟨⟨List.replicate 16 7, rfl⟩⟩, "a"⟩).1 none).acceptHandshake
        X H ⟨1000, ⟨List.replicate 32 2, rfl⟩, fun _ => none, none⟩
        ⟨[encodeClientHandshake ⟨⟨List.replicate 32 1, rfl⟩, ⟨List.replicate 16 7, rfl⟩,
          BitVec.ofInt 64 (-9223372036854774808), ⟨List.replicate 16 0, rfl⟩⟩], .eof⟩ =
      .accepted ⟨⟨⟨List.replicate 16 7, rfl⟩⟩, "a"⟩
        (sessionKeyFor X H ⟨List.replicate 32 2, rfl⟩ ⟨List.replicate 32 1, rfl⟩)
        (encodeServerHandshake ⟨X.publicKey ⟨List.replicate 32 2, rfl⟩, 1000⟩) r' := by
  refine ⟨by decide, by decide, ?_⟩
  obtain ⟨r', -, -, h⟩ := @acceptHandshake_encode X H
    (Handler.mk (newValidator.add ⟨⟨⟨List.replicate 16 7, rfl⟩⟩, "a"⟩).1 none)
    ⟨1000, ⟨List.replicate 32 2, rfl⟩, fun _ => none, none⟩ ⟨[_], .eof⟩
    ⟨⟨List.replicate 32 1, rfl⟩, ⟨List.replicate 16 7, rfl⟩,
      BitVec.ofInt 64 (-9223372036854774808), ⟨List.replicate 16 0, rfl⟩⟩ [] rfl (by decide)
  exact ⟨r', h.trans rfl⟩

/-- A well-formed handshake (its timestamp within the window) of a user that is not registered:
    `Process` hands the reader to the fallback past the 76 bytes it read, so the fallback
    classifies and forwards the stream without them. -/
theorem process_unknown_user (h : Handler) (env : InboundEnv) {r : Conn}
    {hs : ClientHandshake} {rest : Bytes} (hr : r.bytes = encodeClientHandshake hs ++ rest)
    (hts : validateTimestamp env.now hs.timestamp = true)
    (hunknown : ∀ u, h.validator.get hs.userID ≠ .ok u) :
    ∃ r', r'.bytes = rest ∧ r'.close = r.close ∧
      h.process A X H env r = .ofFallback (handleFallback h.fallbacks env.dial r') := by
  obtain ⟨r', hb, hc, ha⟩ := acceptHandshake_encode (X := X) (H := H) h env hr hts
  have h76 : 76 ≤ r.bytes.length := by simp [hr]
  have hmagic : hasMagic r.bytes := hr ▸ hasMagic_encodeClientHandshake hs rest
  refine ⟨r', hb, hc, ?_⟩
  rw [Handler.process, nonEOF_peek_of_le h76]
  dsimp only
  rw [if_pos (hasMagic_peek.2 hmagic), Handler.handleReflexHandshake, ha]
  cases hg : h.validator.get hs.userID with
  | error _ => rfl
  | ok u => exact absurd hg (hunknown u)

/-- An HTTP request behind the well-formed handshake of an unknown user: the fallback classifies
    the request alone and forwards it alone, to the entry for HTTP; the client's bytes as a
    whole would be classified as unknown and go to the default entry. -/
theorem process_unknown_user_forwards_tail (A : Aead) (X : X25519) (H : Hkdf) :
    (Handler.mk newValidator
        (some [⟨[], [], [], goBytes "80"⟩, ⟨[], goBytes "http/1.1", [], goBytes "8080"⟩])).process
        A X H ⟨1000, ⟨List.replicate 32 2, rfl⟩, fun _ => none, none⟩
        ⟨[encodeClientHandshake ⟨⟨List.replicate 32 1, rfl⟩, ⟨List.replicate 16 7, rfl⟩, 1000,
          ⟨List.replicate 16 0, rfl⟩⟩ ++ goBytes "GET / HTTP/1.1\r\n\r\n"], .eof⟩ =
      .fallback ⟨[], goBytes "http/1.1", [], goBytes "8080"⟩ (goBytes "127.0.0.1:8080")
        (goBytes "GET / HTTP/1.1\r\n\r\n") ∧
    pickFallback (some [⟨[], [], [], goBytes "80"⟩, ⟨[], goBytes "http/1.1", [], goBytes "8080"⟩])
        (encodeClientHandshake ⟨⟨List.replicate 32 1, rfl⟩, ⟨List.replicate 16 7, rfl⟩, 1000,
          ⟨List.replicate 16 0, rfl⟩⟩ ++ goBytes "GET / HTTP/1.1\r\n\r\n") =
      some ⟨[], [], [], goBytes "80"⟩ := by
  refine ⟨?_, rfl⟩
  obtain ⟨r', hb, hc, h⟩ := @process_unknown_user A X H
    (Handler.mk newValidator
      (some [⟨[], [], [], goBytes "80"⟩, ⟨[], goBytes "http/1.1", [], goBytes "8080"⟩]))
    ⟨1000, ⟨List.replicate 32 2, rfl⟩, fun _ => none, none⟩ ⟨[_], .eof⟩
    ⟨⟨List.replicate 32 1, rfl⟩, ⟨List.replicate 16 7, rfl⟩, 1000, ⟨List.replicate 16 0, rfl⟩⟩
    (goBytes "GET / HTTP/1.1\r\n\r\n") (List.append_nil _) (by decide) (fun _ h => nomatch h)
  rw [h, handleFallback_eq, if_neg (by rw [hb]; decide), if_pos hc, hb]
  rfl

/-! ## The session -/

/-- The first frame of a session, sealed by an encoder in step: the inbound reads it, accepts
    the request its payload holds, and its reader keeps what follows. -/
theorem startSession_sealed (hA : A.Correct) (env : InboundEnv) (hdisp : env.dispatch = none)
    (user : MemoryUser) {key : Bytes} (response : Bytes) (hkey : key.length = 32)
    {p : Bytes} {request : RequestHeader} (hp : parseRequestHeader p = .ok request)
    (hsize : p.length ≤ maxDecodablePayload) {r : Conn} {rest : Bytes}
    (hr : r.bytes = ((⟨key, 0, []⟩ : FrameEncoder).sealFrame A ⟨frameTypeData, p⟩).2 ++ rest) :
    ∃ s, startSession A env user key response r = .session s ∧
      s.firstFrame = ⟨frameTypeData, p⟩ ∧ s.request = request ∧ s.decoder = ⟨key, 1⟩ ∧
      s.reader.bytes = rest ∧ s.reader.close = r.close := by
  obtain ⟨r', h1, hb, hc⟩ := readFrame_sealFrame hA (d := ⟨key, 0⟩) (e := ⟨key, 0, []⟩) rfl rfl
    hsize hr
  refine ⟨⟨user, key, response, ⟨key, 0, []⟩, ⟨key, 1⟩, ⟨frameTypeData, p⟩, request, r'⟩, ?_, rfl,
    rfl, rfl, hb, hc⟩
  rw [startSession, newFrameEncoder_of_length hkey, newFrameDecoder_of_length hkey]
  dsimp only
  rw [h1]
  dsimp only
  rw [if_neg (not_not.2 rfl), hp, hdisp]
  rfl

/-- The first frame of a session, on the stream of an outbound in step: the inbound reads the
    header frame the outbound sealed first, accepts the header, and its reader keeps what
    follows. -/
theorem startSession_stream (hA : A.Correct) (env : InboundEnv) (hdisp : env.dispatch = none)
    (user : MemoryUser) {key : Bytes} (response : Bytes) (hkey : key.length = 32)
    {request : RequestHeader} {hdr : Bytes} (hhdr : encodeRequestHeader request = .ok hdr)
    (hsize : hdr.length ≤ maxDecodablePayload) {r : Conn} {rest : Bytes}
    (hr : r.bytes = ((⟨key, 0, []⟩ : FrameEncoder).sealFrame A ⟨frameTypeData, hdr⟩).2 ++ rest) :
    ∃ s, startSession A env user key response r = .session s ∧
      s.firstFrame = ⟨frameTypeData, hdr⟩ ∧ s.decoder = ⟨key, 1⟩ ∧ s.reader.bytes = rest ∧
      s.reader.close = r.close := by
  obtain ⟨req, hp⟩ := parseRequestHeader_encode hhdr
  obtain ⟨s, hs, hf, -, hd, hb, hc⟩ :=
    startSession_sealed hA env hdisp user response hkey hp hsize hr
  exact ⟨s, hs, hf, hd, hb, hc⟩

/-- The relay of the client's frames: the first frame's payload past its twelfth byte goes to
    the link, then the DATA frames of a stream in step, in order. -/
theorem requestDone_stream (hA : A.Correct) {s : InboundSession} {e : FrameEncoder}
    (hk : s.decoder.key = e.key) (hc : s.decoder.counter = e.counter) {bs : List Bytes}
    (hbs : ∀ b ∈ bs, b.length ≤ maxDecodablePayload)
    (hr : s.reader.bytes = e.stream A (dataCalls bs)) (hcl : s.reader.close = .eof) {fuel : Nat}
    (hfuel : bs.length < fuel) :
    (s.requestDone A appendWrite [] fuel).2.2 =
      ((if 12 < s.firstFrame.payload.length then s.firstFrame.payload.drop 12 else []) ++
        bs.flatten, some (some (.err "EOF"))) := by
  unfold InboundSession.requestDone
  by_cases h12 : 12 < s.firstFrame.payload.length
  · rw [if_pos ⟨h12, h12⟩, if_pos h12]
    exact relayFrames_stream hA bs hbs e _ _ _ fuel hk hc hr hcl hfuel
  · rw [if_neg fun h => h12 h.1, if_neg h12]
    exact relayFrames_stream hA bs hbs e _ _ _ fuel hk hc hr hcl hfuel

/-- A first frame that holds an IPv4 header (8 bytes) and then `hello`: the inbound accepts
    the header, and writes to its link only the payload past its twelfth byte, `o`. -/
theorem requestDone_ipv4_first_frame :
    parseRequestHeader ([1, 1, 187, 1, 1, 2, 3, 4] ++ goBytes "hello") =
      .ok ⟨1, 443, some (.ipv4 ⟨[1, 2, 3, 4], rfl⟩)⟩ ∧
    ∃ s, startSession toyAead ⟨1000, ⟨List.replicate 32 2, rfl⟩, fun _ => none, none⟩
        ⟨⟨⟨List.replicate 16 7, rfl⟩⟩, "a"⟩ (List.replicate 32 0) []
        ⟨[((⟨List.replicate 32 0, 0, []⟩ : FrameEncoder).sealFrame toyAead
          ⟨frameTypeData, [1, 1, 187, 1, 1, 2, 3, 4] ++ goBytes "hello"⟩).2], .eof⟩ = .session s ∧
      (s.requestDone toyAead appendWrite [] 1).2.2 = (goBytes "o", some (some (.err "EOF"))) := by
  have hp : parseRequestHeader ([1, 1, 187, 1, 1, 2, 3, 4] ++ goBytes "hello") =
      .ok ⟨1, 443, some (.ipv4 ⟨[1, 2, 3, 4], rfl⟩)⟩ := rfl
  obtain ⟨s, hs, hf, -, hd, hb, hc⟩ := @startSession_sealed toyAead toyAead_correct
    ⟨1000, ⟨List.replicate 32 2, rfl⟩, fun _ => none, none⟩ rfl ⟨⟨⟨List.replicate 16 7, rfl⟩⟩, "a"⟩
    (List.replicate 32 0) [] rfl _ _ hp (by decide) ⟨[_], .eof⟩ [] rfl
  refine ⟨hp, s, hs, ?_⟩
  rw [@requestDone_stream toyAead toyAead_correct s ⟨List.replicate 32 0, 1, []⟩ (by rw [hd])
    (by rw [hd]) [] (by simp) (by rw [hb]; rfl) hc 1 (by decide), hf]
  rfl

/-! ## The handler `New` builds -/

theorem addClients_eq {C : Type} (toMemoryUser : C → Except GoError MemoryUser) (cs : List C) :
    ∀ v, addClients toMemoryUser v cs = match cs.mapM toMemoryUser with
      | .error e => .error (.base "failed to get Reflex user" e)
      | .ok us => .ok (us.foldl (fun v u => (v.add u).1) v) := by
  induction cs with
  | nil => intro v; rfl
  | cons c cs ih =>
    intro v
    rw [addClients, List.mapM_cons]
    cases toMemoryUser c with
    | error e => rfl
    | ok u =>
      show addClients toMemoryUser (v.add u).1 cs = _
      rw [ih]
      cases cs.mapM toMemoryUser <;> rfl

/-- `New` fails exactly when `ToMemoryUser` fails on a client, with the first such error;
    otherwise it keeps the config's fallback entries, and `Get` of an ID returns the last client
    with that ID, or fails when there is none (each `Add` taking its account to be a Reflex one,
    as `Validator.add` does). -/
theorem newHandler_get {C : Type} (toMemoryUser : C → Except GoError MemoryUser)
    (clients : List C) (fallbacks : Option (List Fallback)) :
    (∀ e, clients.mapM toMemoryUser = .error e →
      newHandler toMemoryUser clients fallbacks = .error (.base "failed to get Reflex user" e)) ∧
    ∀ us, clients.mapM toMemoryUser = .ok us →
      ∃ h, newHandler toMemoryUser clients fallbacks = .ok h ∧ h.fallbacks = fallbacks ∧
        ∀ id, h.validator.get id = match (us.filter fun u => u.account.id = id).getLast? with
          | some u => .ok u
          | none => .error (.err "user not found") := by
  refine ⟨fun e he => by rw [newHandler, addClients_eq, he], fun us hus => ?_⟩
  refine ⟨_, by rw [newHandler, addClients_eq, hus], rfl, fun id => ?_⟩
  rw [get_foldl_add]
  cases (us.filter fun u => u.account.id = id).getLast? <;> rfl

/-! ## What `Process` admits -/

/-- What `handleReflexHandshake` can do up to the server handshake: fail, or find 76 bytes that
    decode to a client handshake with its timestamp in the window, with the reader past them;
    the user lookup then decides. -/
theorem Handler.acceptHandshake_spec (h : Handler) (env : InboundEnv) (r : Conn) :
    (∃ e, h.acceptHandshake X H env r = .error e) ∨
      ∃ hs r', decodeClientHandshake (r.bytes.take 76) = .ok hs ∧
        validateTimestamp env.now hs.timestamp = true ∧ r'.bytes = r.bytes.drop 76 ∧
        r'.close = r.close ∧
        h.acceptHandshake X H env r = match h.validator.get hs.userID with
          | .error _ => .unknownUser r'
          | .ok user =>
            .accepted user
              (sessionKeyFor X H (generateKeyPair X env.serverPrivateKey).1 hs.publicKey)
              (encodeServerHandshake ⟨(generateKeyPair X env.serverPrivateKey).2, env.now⟩) r' := by
  unfold Handler.acceptHandshake
  rcases hrf : r.readFull 76 with ⟨_ | d, r'⟩
  · exact .inl ⟨_, rfl⟩
  · obtain ⟨rfl, hb, hc⟩ := readFull_eq_ok hrf
    dsimp only
    rcases hdec : decodeClientHandshake (r.bytes.take 76) with e | hs
    · exact .inl ⟨_, rfl⟩
    · dsimp only
      by_cases hts : validateTimestamp env.now hs.timestamp = true
      · exact .inr ⟨hs, r', rfl, hts, hb, hc, by rw [hts]; rfl⟩
      · exact .inl ⟨_, by rw [Bool.eq_false_iff.2 hts]; rfl⟩

/-- What `startSession` can do: fail, or start a session for the user, key and response it is
    given, on a DATA frame whose payload holds a request header, once the dispatch went
    through. -/
theorem startSession_cases (env : InboundEnv) (user : MemoryUser) (key response : Bytes)
    (r : Conn) :
    (∃ e, startSession A env user key response r = .error e) ∨
      ∃ s, startSession A env user key response r = .session s ∧ s.user = user ∧
        s.sessionKey = key ∧ s.response = response ∧ s.firstFrame.type = frameTypeData ∧
        parseRequestHeader s.firstFrame.payload = .ok s.request ∧ env.dispatch = none ∧
        s.encoder = ⟨key, 0, []⟩ := by
  unfold startSession
  split
  · exact .inl ⟨_, rfl⟩
  · exact .inl ⟨_, rfl⟩
  · rename_i henc _
    split
    · exact .inl ⟨_, rfl⟩
    · split_ifs with ht
      · exact .inl ⟨_, rfl⟩
      · split
        · exact .inl ⟨_, rfl⟩
        · rename_i hreq
          split
          · exact .inl ⟨_, rfl⟩
          · rename_i hd
            exact .inr ⟨_, rfl, rfl, rfl, rfl, not_not.1 ht, hreq, hd, eq_of_newFrameEncoder henc⟩

/-- `Process` by its peek: a read error other than `io.EOF` fails it; otherwise the magic at the
    start of the stream decides. -/
theorem Handler.process_eq (h : Handler) (env : InboundEnv) (r : Conn) :
    h.process A X H env r = match nonEOF (r.peek 76).2 with
      | some e => .error (.base "failed to peek connection" e)
      | none =>
        if hasMagic r.bytes then h.handleReflexHandshake A X H env r
        else .ofFallback (handleFallback h.fallbacks env.dial r) := by
  rw [Handler.process]
  split
  · rfl
  · exact if_congr hasMagic_peek rfl rfl

theorem ofFallback_eq_fallback {x : Except GoError (Fallback × Bytes × Bytes)} {fb : Fallback}
    {dest src : Bytes} (h : InboundResult.ofFallback x = .fallback fb dest src) :
    x = .ok (fb, dest, src) := by
  rcases x with _ | ⟨_, _, _⟩ <;> cases h
  rfl

theorem ofFallback_ne_session (x : Except GoError (Fallback × Bytes × Bytes))
    (s : InboundSession) : InboundResult.ofFallback x ≠ .session s := by
  rcases x with _ | ⟨_, _, _⟩ <;> nofun

/-- A copy to a fallback reads every byte the reader holds, and goes to an entry picked by
    their first 1024 bytes, at the address derived from its destination, once the dial went
    through. -/
theorem handleFallback_eq_ok {fallbacks : Option (List Fallback)} {dial : Bytes → Option GoError}
    {r : Conn} {fb : Fallback} {dest src : Bytes}
    (h : handleFallback fallbacks dial r = .ok (fb, dest, src)) :
    src = r.bytes ∧ pickFallback fallbacks (src.take 1024) = some fb ∧
      dest = fallbackDest fb.dest ∧ dial dest = none := by
  rw [handleFallback_eq] at h
  split_ifs at h with h1024 heof
  · obtain ⟨rfl, hrest⟩ := forwardTo_eq_ok h
    exact ⟨rfl, hrest⟩
  · obtain ⟨rfl, hpick, hrest⟩ := forwardTo_eq_ok h
    exact ⟨rfl, by rwa [List.take_of_length_le (by omega)], hrest⟩

/-- For every validator, config and stream, a session that `Process` starts is one of an
    authenticated user: the stream's first 76 bytes decode to a client handshake whose timestamp
    is in the window and whose user ID the validator maps to the session's user; the session key
    is derived from the handshake's public key, the response is the server handshake, and the
    request comes from a DATA frame that followed, once the dispatch went through. -/
theorem process_session_authenticated (h : Handler) (env : InboundEnv) (r : Conn)
    {s : InboundSession} (hp : h.process A X H env r = .session s) :
    ∃ hs, decodeClientHandshake (r.bytes.take 76) = .ok hs ∧
      validateTimestamp env.now hs.timestamp = true ∧
      h.validator.get hs.userID = .ok s.user ∧
      s.sessionKey = sessionKeyFor X H (generateKeyPair X env.serverPrivateKey).1 hs.publicKey ∧
      s.response = encodeServerHandshake ⟨(generateKeyPair X env.serverPrivateKey).2, env.now⟩ ∧
      s.firstFrame.type = frameTypeData ∧ parseRequestHeader s.firstFrame.payload = .ok s.request ∧
      env.dispatch = none := by
  rw [Handler.process_eq] at hp
  split at hp
  · cases hp
  split_ifs at hp
  · -- A stream with the magic: only an accepted handshake starts a session.
    rw [Handler.handleReflexHandshake] at hp
    rcases h.acceptHandshake_spec env r with ⟨e, he⟩ | ⟨hs, r', hdec, hts, -, -, he⟩ <;>
      rw [he] at hp
    · cases hp
    cases hg : h.validator.get hs.userID with
    | error _ =>
      rw [hg] at hp
      exact absurd hp (ofFallback_ne_session _ _)
    | ok user =>
      rw [hg] at hp
      dsimp only at hp
      rcases startSession_cases env user _ _ r' with ⟨e, hse⟩ |
          ⟨s', hse, hu, hk, hres, htype, hreq, hdisp, -⟩ <;> rw [hse] at hp <;> cases hp
      exact ⟨hs, hdec, hts, hu ▸ hg, hk, hres, htype, hreq, hdisp⟩
  · -- Without the magic the stream goes to the fallback.
    exact absurd hp (ofFallback_ne_session _ _)

/-- The handshake of a registered user, then a header frame sealed under the key both sides
    derive: `Process` starts a session. -/
theorem process_session_authenticated_registered :
    let h : Handler := ⟨(newValidator.add ⟨⟨⟨List.replicate 16 7, rfl⟩⟩, "a"⟩).1, none⟩
    let env : InboundEnv := ⟨1000, ⟨List.replicate 32 2, rfl⟩, fun _ => none, none⟩
    let r : Conn := ⟨[encodeClientHandshake ⟨⟨List.replicate 32 1, rfl⟩, ⟨List.replicate 16 7, rfl⟩,
        1000, ⟨List.replicate 16 0, rfl⟩⟩ ++
      ((⟨sessionKeyFor toyX25519 toyHkdf ⟨List.replicate 32 2, rfl⟩ ⟨List.replicate 32 1, rfl⟩, 0,
        []⟩ : FrameEncoder).sealFrame toyAead ⟨frameTypeData, [1, 1, 187, 1, 1, 2, 3, 4]⟩).2], .eof⟩
    ∃ s, h.process toyAead toyX25519 toyHkdf env r = .session s ∧
      ∃ hs, decodeClientHandshake (r.bytes.take 76) = .ok hs ∧
        validateTimestamp env.now hs.timestamp = true ∧ h.validator.get hs.userID = .ok s.user ∧
        s.sessionKey = sessionKeyFor toyX25519 toyHkdf
          (generateKeyPair toyX25519 env.serverPrivateKey).1 hs.publicKey ∧
        s.response = encodeServerHandshake
          ⟨(generateKeyPair toyX25519 env.serverPrivateKey).2, env.now⟩ ∧
        s.firstFrame.type = frameTypeData ∧
        parseRequestHeader s.firstFrame.payload = .ok s.request ∧ env.dispatch = none :=
  ⟨_, rfl, process_session_authenticated (A := toyAead) (X := toyX25519) (H := toyHkdf) _ _ _ rfl⟩

/-- For every validator, config and stream, `Process` copies a stream to a fallback only in two
    ways: from its first byte, when it does not start with the magic; or from its 77th byte, when
    its first 76 decode to a client handshake with its timestamp in the window whose user the
    validator does not know. Wherever the copy is cut, the back end has got the bytes from there
    on, in order, up to the cut. The entry is one of the config's, stored under a key of the
    name, ALPN and path read off the first 1024 bytes the copy reads, and the dial of the
    address derived from it went through. -/
theorem process_fallback_sound (h : Handler) (env : InboundEnv) (r : Conn) {fb : Fallback}
    {dest src : Bytes} (hp : h.process A X H env r = .fallback fb dest src) :
    fb ∈ h.fallbacks.getD [] ∧
      (fb.name, fb.alpn, fb.path) ∈ fallbackKeys (classify (src.take 1024)).1
        (classify (src.take 1024)).2.1 (classify (src.take 1024)).2.2 ∧
      dest = fallbackDest fb.dest ∧ env.dial dest = none ∧
      ((¬ hasMagic r.bytes ∧ ∀ sent, backendReceives src sent = r.bytes.take sent) ∨
        ∃ hs, decodeClientHandshake (r.bytes.take 76) = .ok hs ∧
          validateTimestamp env.now hs.timestamp = true ∧
          (∀ u, h.validator.get hs.userID ≠ .ok u) ∧
          ∀ sent, backendReceives src sent = (r.bytes.drop 76).take sent) := by
  rw [Handler.process_eq] at hp
  split at hp
  · cases hp
  split_ifs at hp with hm
  · -- A stream with the magic reaches the fallback only as an unknown user.
    rw [Handler.handleReflexHandshake] at hp
    rcases h.acceptHandshake_spec env r with ⟨e, he⟩ | ⟨hs, r', hdec, hts, hb, -, he⟩ <;>
      rw [he] at hp
    · cases hp
    cases hg : h.validator.get hs.userID with
    | error _ =>
      rw [hg] at hp
      have hunknown : ∀ u, h.validator.get hs.userID ≠ .ok u := fun u hu => by
        rw [hg] at hu; cases hu
      obtain ⟨rfl, hpick, hdest, hdial⟩ := handleFallback_eq_ok (ofFallback_eq_fallback hp)
      exact ⟨(pickFallback_eq_some hpick).1, (pickFallback_eq_some hpick).2, hdest, hdial,
        .inr ⟨hs, hdec, hts, hunknown, fun _ => congrArg (List.take _) hb⟩⟩
    | ok user =>
      rw [hg] at hp
      dsimp only at hp
      rcases startSession_cases env user _ _ r' with ⟨e, hse⟩ | ⟨s', hse, -⟩ <;>
        rw [hse] at hp <;> cases hp
  · obtain ⟨rfl, hpick, hdest, hdial⟩ := handleFallback_eq_ok (ofFallback_eq_fallback hp)
    exact ⟨(pickFallback_eq_some hpick).1, (pickFallback_eq_some hpick).2, hdest, hdial,
      .inl ⟨hm, fun _ => rfl⟩⟩

/-- An HTTP request without the magic goes to the entry for HTTP, from its first byte. -/
theorem process_fallback_sound_http :
    let h : Handler := ⟨newValidator, some [⟨[], goBytes "http/1.1", [], goBytes "8080"⟩]⟩
    let env : InboundEnv := ⟨1000, ⟨List.replicate 32 2, rfl⟩, fun _ => none, none⟩
    let r : Conn := ⟨[goBytes "GET / HTTP/1.1\r\n\r\n"], .eof⟩
    h.process toyAead toyX25519 toyHkdf env r =
        .fallback ⟨[], goBytes "http/1.1", [], goBytes "8080"⟩ (goBytes "127.0.0.1:8080") r.bytes ∧
      ⟨[], goBytes "http/1.1", [], goBytes "8080"⟩ ∈ h.fallbacks.getD [] ∧
      ((([] : Bytes), goBytes "http/1.1", ([] : Bytes)) ∈
        fallbackKeys (classify (r.bytes.take 1024)).1 (classify (r.bytes.take 1024)).2.1
          (classify (r.bytes.take 1024)).2.2) ∧
      goBytes "127.0.0.1:8080" = fallbackDest (goBytes "8080") ∧
      env.dial (goBytes "127.0.0.1:8080") = none ∧
      ((¬ hasMagic r.bytes ∧ ∀ sent, backendReceives r.bytes sent = r.bytes.take sent) ∨
        ∃ hs, decodeClientHandshake (r.bytes.take 76) = .ok hs ∧
          validateTimestamp env.now hs.timestamp = true ∧
          (∀ u, h.validator.get hs.userID ≠ .ok u) ∧
          ∀ sent, backendReceives r.bytes sent = (r.bytes.drop 76).take sent) :=
  ⟨rfl, process_fallback_sound (A := toyAead) (X := toyX25519) (H := toyHkdf) _ _ _ rfl⟩

end Reflex
