import Reflex.Inbound
import Reflex.Outbound

/-!
# A session between an outbound and an inbound

The two handlers of one connection: the outbound writes its client handshake, the header frame
and the frames of its link's buffers; the inbound reads them after its handshake. The other way,
the inbound writes its server handshake and the frames of its link's buffers, and the outbound
reads them. The network may cut each direction into reads anywhere.

* `upstream_link`: once both sides hold the same key, what the inbound writes to its link is
  the header frame's payload past its twelfth byte, then the outbound's buffers, in order;
* `downstream_link`: what the outbound writes to its link is exactly the inbound's buffers;
* `outbound_split_response_misread`: a server handshake that arrives in two reads is decoded
  with the pooled buffer's old bytes;
* `session_end_to_end`: a whole connection, from the outbound's handshake through the inbound's
  `Process` to both relays: the inbound authenticates the user, both sides hold the same key,
  and each link gets the other's buffers.

Both directions use the one session key, and both encoders count from zero:

* `outbound_accepts_reflected_frames`: an outbound that gets back its own frames, after any
  server handshake, writes its own header and buffers to its link as the server's response;
* `session_directions_share_nonces`: the `i`-th frame each side seals is sealed under the same
  key and nonce as the `i`-th frame of the other, the outbound's header frame first.
-/

namespace Reflex

variable {A : Aead} {X : X25519} {H : Hkdf}

/-- Upstream, from the outbound's link to the inbound's: whatever the network does to the
    chunks, once the inbound holds the outbound's session key, its relay writes to its link the
    header frame's payload past its twelfth byte, then the buffers the outbound read from its
    link, in order. -/
theorem upstream_link (hA : A.Correct) (envOut : OutboundEnv) (userID : UserID)
    (target : Destination) {r r' : Conn} {serverHS : ServerHandshake}
    (hread : readServerHandshake envOut.responseBuffer r = (.ok serverHS, r')) {hdr : Bytes}
    (hhdr : encodeRequestHeader (requestOf target) = .ok hdr)
    (hsize : hdr.length ≤ maxDecodablePayload) (linkErr : GoError) (mbs : List (List Bytes))
    (hbs : ∀ b ∈ mbs.flatten, b.length ≤ maxDecodablePayload) (envIn : InboundEnv)
    (hdisp : envIn.dispatch = none) (user : MemoryUser) (response : Bytes) {fuel : Nat}
    (hfuel : mbs.flatten.length < fuel) :
    ∃ sOut, outboundStart A X H appendWrite envOut userID target [] r = .ok sOut ∧
      ∀ rIn : Conn, rIn.bytes = ((sOut.requestDone A appendWrite linkErr mbs).2.1).drop 76 →
        rIn.close = .eof →
        ∃ sIn, startSession A envIn user sOut.sessionKey response rIn = .session sIn ∧
          (sIn.requestDone A appendWrite [] fuel).2.2 =
            ((if 12 < hdr.length then hdr.drop 12 else []) ++ mbs.flatten.flatten,
              some (some (.err "EOF"))) := by
  refine ⟨_, outboundStart_appendWrite envOut userID target [] hread hhdr, fun rIn hrIn hcl => ?_⟩
  simp only [OutboundSession.requestDone, relayBuffers_appendWrite, List.nil_append,
    List.append_assoc, List.drop_left' (length_encodeClientHandshake _)] at hrIn
  obtain ⟨sIn, hs, hff, hdec, hrb, hrc⟩ := startSession_stream hA envIn hdisp user response
    (length_sessionKeyFor _ _ _ _) hhdr hsize hrIn
  refine ⟨sIn, hs, ?_⟩
  rw [requestDone_stream hA (by rw [hdec]; rfl) (by rw [hdec]; rfl) hbs hrb (hrc.trans hcl) hfuel,
    hff]

/-- An IPv6 destination: its header is 20 bytes, and the inbound puts the last 8 bytes of the
    address on its link in front of the client's data. -/
theorem upstream_ipv6_header_leaks :
    ∃ sOut, outboundStart toyAead toyX25519 toyHkdf appendWrite
        ⟨1000, ⟨List.replicate 32 1, rfl⟩, ⟨List.replicate 40 0, rfl⟩⟩ ⟨List.replicate 16 7, rfl⟩
        ⟨.tcp, .ipv6 ⟨List.replicate 15 0 ++ [1], by decide⟩, 443⟩ []
        ⟨[encodeServerHandshake ⟨⟨List.replicate 32 2, rfl⟩, 1000⟩], .eof⟩ = .ok sOut ∧
      ∀ rIn : Conn,
        rIn.bytes = ((sOut.requestDone toyAead appendWrite (.err "EOF")
          [[goBytes "hello"]]).2.1).drop 76 →
        rIn.close = .eof →
        ∃ sIn, startSession toyAead ⟨1000, ⟨List.replicate 32 2, rfl⟩, fun _ => none, none⟩
            ⟨⟨⟨List.replicate 16 7, rfl⟩⟩, "a"⟩ sOut.sessionKey [] rIn = .session sIn ∧
          (sIn.requestDone toyAead appendWrite [] 2).2.2 =
            ([0, 0, 0, 0, 0, 0, 0, 1] ++ goBytes "hello", some (some (.err "EOF"))) :=
  upstream_link toyAead_correct _ _ _ (readServerHandshake_whole _ _ _ _) rfl (by decide) _
    [[goBytes "hello"]] (by decide) _ rfl _ [] (by decide)

/-- Downstream, from the inbound's link to the outbound's: on the frames the inbound's relay
    writes, an outbound decoder in step writes to its link exactly the inbound's buffers. -/
theorem downstream_link (hA : A.Correct) {W : Type} (sIn : InboundSession)
    (sOut : OutboundSession W) (hk : sOut.decoder.key = sIn.encoder.key)
    (hc : sOut.decoder.counter = sIn.encoder.counter) (linkErr : GoError)
    (mbs : List (List Bytes)) (hbs : ∀ b ∈ mbs.flatten, b.length ≤ maxDecodablePayload)
    (hr : sOut.reader.bytes = (sIn.responseDone A appendWrite [] linkErr mbs).2.1)
    (hcl : sOut.reader.close = .eof) {fuel : Nat} (hfuel : mbs.flatten.length < fuel) :
    (sOut.responseDone A appendWrite [] fuel).2.2 =
      (mbs.flatten.flatten, some (some (.err "EOF"))) := by
  rw [InboundSession.responseDone, relayBuffers_appendWrite, List.nil_append] at hr
  exact relayFrames_stream hA _ hbs _ _ _ [] fuel hk hc hr hcl hfuel

/-- The inbound accepts the outbound's handshake and answers with its public key and the time
    `1000`; the answer reaches the outbound in two reads, of 39 bytes and then 1, and the
    outbound decodes the time as `768`, the low byte taken from its fresh buffer, and leaves the
    last byte of the answer in front of the frames. -/
theorem outbound_split_response_misread (X : X25519) (H : Hkdf) :
    let userID : UserID := ⟨List.replicate 16 7, rfl⟩
    let user : MemoryUser := ⟨⟨userID⟩, "a"⟩
    let serverKey : FixedBytes 32 := ⟨List.replicate 32 2, rfl⟩
    let envOut : OutboundEnv := ⟨1000, ⟨List.replicate 32 1, rfl⟩, ⟨List.replicate 40 0, rfl⟩⟩
    let answer := encodeServerHandshake ⟨X.publicKey serverKey, 1000⟩
    (∃ r', (Handler.mk (newValidator.add user).1 none).acceptHandshake X H
        ⟨1000, serverKey, fun _ => none, none⟩
        ⟨[encodeClientHandshake (clientHandshakeOf X envOut userID)], .eof⟩ =
      .accepted user (sessionKeyFor X H serverKey (X.publicKey envOut.clientPrivateKey)) answer
        r') ∧
    readServerHandshake envOut.responseBuffer ⟨[answer.take 39, answer.drop 39], .eof⟩ =
      (.ok ⟨X.publicKey serverKey, 768⟩, ⟨[answer.drop 39], .eof⟩) := by
  dsimp only
  constructor
  · obtain ⟨r', -, -, h⟩ := @acceptHandshake_encode X H
      (Handler.mk (newValidator.add ⟨⟨⟨List.replicate 16 7, rfl⟩⟩, "a"⟩).1 none)
      ⟨1000, ⟨List.replicate 32 2, rfl⟩, fun _ => none, none⟩ ⟨[_], .eof⟩
      (clientHandshakeOf X ⟨1000, ⟨List.replicate 32 1, rfl⟩, ⟨List.replicate 40 0, rfl⟩⟩
        ⟨List.replicate 16 7, rfl⟩) [] rfl (by decide : validateTimestamp 1000 1000 = true)
    exact ⟨r', h.trans rfl⟩
  · have hpk := (X.publicKey ⟨List.replicate 32 2, rfl⟩).length_bytes
    have hsplit : (encodeServerHandshake ⟨X.publicKey ⟨List.replicate 32 2, rfl⟩, 1000⟩).take 39 ++
        (List.replicate 40 0).drop
          ((encodeServerHandshake ⟨X.publicKey ⟨List.replicate 32 2, rfl⟩, 1000⟩).take 39).length =
        encodeServerHandshake ⟨X.publicKey ⟨List.replicate 32 2, rfl⟩, 768⟩ ++ [] := by
      simp only [encodeServerHandshake, List.take_append_eq_append_take, hpk, List.length_append,
        List.length_take, List.append_nil, List.append_assoc, List.take_of_length_le
          (show (X.publicKey ⟨List.replicate 32 2, rfl⟩).bytes.length ≤ 39 by omega)]
      rfl
    rw [readServerHandshake_split _ _ (by decide), hsplit, decodeServerHandshake_encode]
/-- The inbound's `Process` on the stream of an outbound that read its server handshake: it
    authenticates the user, derives the outbound's key, and starts the session from the header
    frame, with a fresh encoder and a decoder past that frame. -/
theorem process_outbound_stream (hA : A.Correct) (h : Handler) (u : MemoryUser)
    (hu : h.validator.get u.account.id = .ok u) (envOut : OutboundEnv) (envIn : InboundEnv)
    (hts : validateTimestamp envIn.now envOut.now = true) (hdisp : envIn.dispatch = none)
    {request : RequestHeader} {hdr : Bytes} (hhdr : encodeRequestHeader request = .ok hdr)
    (hsize : hdr.length ≤ maxDecodablePayload) {key : Bytes}
    (hkey : key = sessionKeyFor X H (generateKeyPair X envOut.clientPrivateKey).1
      (generateKeyPair X envIn.serverPrivateKey).2) {rIn : Conn} {rest : Bytes}
    (hrIn : rIn.bytes = encodeClientHandshake (clientHandshakeOf X envOut u.account.id) ++
      (((⟨key, 0, []⟩ : FrameEncoder).sealFrame A ⟨frameTypeData, hdr⟩).2 ++ rest)) :
    ∃ sIn, h.process A X H envIn rIn = .session sIn ∧ sIn.user = u ∧ sIn.sessionKey = key ∧
      sIn.response = encodeServerHandshake
        ⟨(generateKeyPair X envIn.serverPrivateKey).2, envIn.now⟩ ∧
      sIn.firstFrame = ⟨frameTypeData, hdr⟩ ∧ parseRequestHeader hdr = .ok sIn.request ∧
      sIn.decoder = ⟨key, 1⟩ ∧ sIn.encoder = ⟨key, 0, []⟩ ∧ sIn.reader.bytes = rest ∧
      sIn.reader.close = rIn.close := by
  subst hkey
  -- The inbound accepts the client handshake of the registered user, and derives from the
  -- outbound's public key the key the outbound derived from its own.
  have hu' : h.validator.get (clientHandshakeOf X envOut u.account.id).userID = .ok u := hu
  have hkey : sessionKeyFor X H (generateKeyPair X envIn.serverPrivateKey).1
      (clientHandshakeOf X envOut u.account.id).publicKey =
      sessionKeyFor X H (generateKeyPair X envOut.clientPrivateKey).1
        (generateKeyPair X envIn.serverPrivateKey).2 :=
    sessionKeyFor_agree X H _ _
  obtain ⟨r', hb, hc, hacc⟩ := acceptHandshake_encode (X := X) (H := H) h envIn hrIn hts
  rw [hu', hkey] at hacc
  -- Past the handshake, the inbound reads the header frame and starts the session.
  obtain ⟨sIn, hs, hff, hdec, hrb, hrc⟩ := startSession_stream hA envIn hdisp u
    (encodeServerHandshake ⟨(generateKeyPair X envIn.serverPrivateKey).2, envIn.now⟩)
    (length_sessionKeyFor _ _ _ _) hhdr hsize hb
  obtain ⟨e', he'⟩ | ⟨s', hs', hus, hks, hres, -, hreq, -, henc⟩ :=
    startSession_cases (A := A) envIn u _
      (encodeServerHandshake ⟨(generateKeyPair X envIn.serverPrivateKey).2, envIn.now⟩) r'
  · rw [hs] at he'; cases he'
  rw [hs] at hs'
  cases hs'
  refine ⟨sIn, ?_, hus, hks, hres, hff, by rwa [hff] at hreq, hdec, henc, hrb, hrc.trans hc⟩
  rw [Handler.process_eq, nonEOF_peek_of_le (by rw [hrIn]; simp)]
  dsimp only
  rw [if_pos (hrIn ▸ hasMagic_encodeClientHandshake _ _), Handler.handleReflexHandshake, hacc]
  exact hs

/-- For every registered user, every pair of private keys, clocks within the window of each
    other and every target, a whole connection between an outbound and an inbound works, as long
    as the header and every buffer hold at most `maxDecodablePayload` bytes, the most a decoder
    reads back. The outbound, reading the server handshake in one piece, derives its session
    key. The inbound's
    `Process`, on the bytes the outbound writes, authenticates the user, derives the same key,
    has written the server handshake the outbound read, and dispatches the outbound's target as
    its header reads back; its relay writes to its link the header frame's payload past its
    twelfth byte, then the outbound's buffers. The other way, on the inbound's frames, the
    outbound's relay writes to its link exactly the inbound's buffers. -/
theorem session_end_to_end (hA : A.Correct) (h : Handler) (u : MemoryUser)
    (hu : h.validator.get u.account.id = .ok u) (envOut : OutboundEnv) (envIn : InboundEnv)
    (hts : validateTimestamp envIn.now envOut.now = true) (hdisp : envIn.dispatch = none)
    (target : Destination) {hdr : Bytes} (hhdr : encodeRequestHeader (requestOf target) = .ok hdr)
    (hsize : hdr.length ≤ maxDecodablePayload) (chs : List Bytes) (e : StreamEnd) :
    ∃ sOut, outboundStart A X H appendWrite envOut u.account.id target []
        ⟨encodeServerHandshake ⟨(generateKeyPair X envIn.serverPrivateKey).2, envIn.now⟩ :: chs,
          e⟩ = .ok sOut ∧
      ∀ (linkErr : GoError) (mbs : List (List Bytes)) (rIn : Conn),
        (∀ b ∈ mbs.flatten, b.length ≤ maxDecodablePayload) →
        rIn.bytes = (sOut.requestDone A appendWrite linkErr mbs).2.1 → rIn.close = .eof →
        ∃ sIn, h.process A X H envIn rIn = .session sIn ∧ sIn.user = u ∧
          sIn.sessionKey = sOut.sessionKey ∧
          sIn.response = encodeServerHandshake
            ⟨(generateKeyPair X envIn.serverPrivateKey).2, envIn.now⟩ ∧
          sIn.request = ⟨(requestOf target).command, target.port, target.address.readBack⟩ ∧
          (∀ fuel, mbs.flatten.length < fuel →
            (sIn.requestDone A appendWrite [] fuel).2.2 =
              ((if 12 < hdr.length then hdr.drop 12 else []) ++ mbs.flatten.flatten,
                some (some (.err "EOF")))) ∧
          ∀ (linkErr' : GoError) (mbs' : List (List Bytes)),
            (∀ b ∈ mbs'.flatten, b.length ≤ maxDecodablePayload) →
            chs.flatten = (sIn.responseDone A appendWrite [] linkErr' mbs').2.1 → e = .eof →
            ∀ fuel, mbs'.flatten.length < fuel →
              (sOut.responseDone A appendWrite [] fuel).2.2 =
                (mbs'.flatten.flatten, some (some (.err "EOF"))) := by
  refine ⟨_, outboundStart_appendWrite envOut u.account.id target []
    (readServerHandshake_whole _ _ chs e) hhdr, fun linkErr mbs rIn hbs hrIn hcl => ?_⟩
  simp only [OutboundSession.requestDone, relayBuffers_appendWrite, List.nil_append,
    List.append_assoc] at hrIn
  obtain ⟨sIn, hproc, hus, hks, hres, hff, hreq, hdec, henc, hrb, hrc⟩ :=
    process_outbound_stream hA h u hu envOut envIn hts hdisp hhdr hsize rfl hrIn
  -- The request the inbound parses is the outbound's target, as the header reads back.
  obtain ⟨henc', hparse⟩ := @parseRequestHeader_encode_eq (requestOf target) target.address rfl
  rw [show hdr = _ from Except.ok.inj (hhdr.symm.trans henc'), hparse] at hreq
  refine ⟨sIn, hproc, hus, hks, hres, (Except.ok.inj hreq).symm, fun fuel hfuel => ?_,
    fun linkErr' mbs' hbs' hchs he fuel hfuel => ?_⟩
  · rw [requestDone_stream hA (by rw [hdec]; rfl) (by rw [hdec]; rfl) hbs hrb (hrc.trans hcl)
      hfuel, hff]
  · refine downstream_link hA sIn _ (by rw [henc]) (by rw [henc]) linkErr' mbs' hbs' ?_ he hfuel
    exact hchs

/-- A registered user, both clocks at `1000`, and an IPv4 target. -/
theorem session_end_to_end_ipv4 :
    validateTimestamp 1000 1000 = true ∧
    ∃ sOut, outboundStart toyAead toyX25519 toyHkdf appendWrite
        ⟨1000, ⟨List.replicate 32 1, rfl⟩, ⟨List.replicate 40 0, rfl⟩⟩ ⟨List.replicate 16 7, rfl⟩
        ⟨.tcp, .ipv4 ⟨[1, 2, 3, 4], rfl⟩, 443⟩ []
        ⟨[encodeServerHandshake ⟨toyX25519.publicKey ⟨List.replicate 32 2, rfl⟩, 1000⟩], .eof⟩ =
        .ok sOut ∧
      ∀ (linkErr : GoError) (mbs : List (List Bytes)) (rIn : Conn),
        (∀ b ∈ mbs.flatten, b.length ≤ maxDecodablePayload) →
        rIn.bytes = (sOut.requestDone toyAead appendWrite linkErr mbs).2.1 → rIn.close = .eof →
        ∃ sIn, (Handler.mk (newValidator.add ⟨⟨⟨List.replicate 16 7, rfl⟩⟩, "a"⟩).1 none).process
            toyAead toyX25519 toyHkdf ⟨1000, ⟨List.replicate 32 2, rfl⟩, fun _ => none, none⟩ rIn =
            .session sIn ∧
          sIn.user = ⟨⟨⟨List.replicate 16 7, rfl⟩⟩, "a"⟩ ∧ sIn.sessionKey = sOut.sessionKey ∧
          sIn.response =
            encodeServerHandshake ⟨toyX25519.publicKey ⟨List.replicate 32 2, rfl⟩, 1000⟩ ∧
          sIn.request = ⟨1, 443, some (.ipv4 ⟨[1, 2, 3, 4], rfl⟩)⟩ ∧
          (∀ fuel, mbs.flatten.length < fuel →
            (sIn.requestDone toyAead appendWrite [] fuel).2.2 =
              ((if 12 < [1, 1, 187, 1, 1, 2, 3, 4].length then [1, 1, 187, 1, 1, 2, 3, 4].drop 12
                else []) ++ mbs.flatten.flatten, some (some (.err "EOF")))) ∧
          ∀ (linkErr' : GoError) (mbs' : List (List Bytes)),
            (∀ b ∈ mbs'.flatten, b.length ≤ maxDecodablePayload) →
            ([] : List Bytes).flatten =
              (sIn.responseDone toyAead appendWrite [] linkErr' mbs').2.1 →
            StreamEnd.eof = .eof →
            ∀ fuel, mbs'.flatten.length < fuel →
              (sOut.responseDone toyAead appendWrite [] fuel).2.2 =
                (mbs'.flatten.flatten, some (some (.err "EOF"))) :=
  ⟨by decide, session_end_to_end toyAead_correct
    ⟨(newValidator.add ⟨⟨⟨List.replicate 16 7, rfl⟩⟩, "a"⟩).1, none⟩
    ⟨⟨⟨List.replicate 16 7, rfl⟩⟩, "a"⟩ rfl
    ⟨1000, ⟨List.replicate 32 1, rfl⟩, ⟨List.replicate 40 0, rfl⟩⟩
    ⟨1000, ⟨List.replicate 32 2, rfl⟩, fun _ => none, none⟩ (by decide) rfl
    ⟨.tcp, .ipv4 ⟨[1, 2, 3, 4], rfl⟩, 443⟩ rfl (by decide) [] .eof⟩

/-! ## The two directions share one key -/

/-- Whatever server handshake the outbound reads, even one it gets from someone other than the
    inbound, and reads in one piece, a network that answers with the frames the outbound itself
    wrote after its client handshake has them accepted: for a header and buffers of at most
    `maxDecodablePayload` bytes, its relay writes to its link its own header, then its own
    buffers, as the server's response. -/
theorem outbound_accepts_reflected_frames (hA : A.Correct) (env : OutboundEnv)
    (userID : UserID) (target : Destination) {r r' : Conn} {serverHS : ServerHandshake}
    (hread : readServerHandshake env.responseBuffer r = (.ok serverHS, r')) {hdr : Bytes}
    (hhdr : encodeRequestHeader (requestOf target) = .ok hdr)
    (hsize : hdr.length ≤ maxDecodablePayload) (linkErr : GoError) (mbs : List (List Bytes))
    (hbs : ∀ b ∈ mbs.flatten, b.length ≤ maxDecodablePayload) {fuel : Nat}
    (hfuel : mbs.flatten.length + 1 < fuel) :
    ∃ sOut, outboundStart A X H appendWrite env userID target [] r = .ok sOut ∧
      (r'.bytes = ((sOut.requestDone A appendWrite linkErr mbs).2.1).drop 76 → r'.close = .eof →
        (sOut.responseDone A appendWrite [] fuel).2.2 =
          (hdr ++ mbs.flatten.flatten, some (some (.err "EOF")))) := by
  refine ⟨_, outboundStart_appendWrite env userID target [] hread hhdr, fun hr hcl => ?_⟩
  simp only [OutboundSession.requestDone, relayBuffers_appendWrite, List.nil_append,
    List.append_assoc, List.drop_left' (length_encodeClientHandshake _)] at hr
  -- What the outbound wrote after its handshake is one stream of DATA frames from a fresh
  -- encoder under its key, and its decoder is a fresh one under the same key.
  rw [← stream_dataCalls_cons] at hr
  have hbs' : ∀ b ∈ hdr :: mbs.flatten, b.length ≤ maxDecodablePayload :=
    fun b hb => (List.mem_cons.1 hb).elim (· ▸ hsize) (hbs b)
  exact (relayFrames_stream hA _ hbs' _ _ _ [] fuel rfl rfl hr hcl (by simpa using hfuel)).trans
    (by rw [List.nil_append, List.flatten_cons])

/-- An outbound reads a server handshake with a public key of nines, and gets back its own
    frames: it writes to its link its IPv4 header, then `hi`. -/
theorem outbound_accepts_reflected_hello :
    let reflected := (⟨sessionKeyFor toyX25519 toyHkdf ⟨List.replicate 32 1, rfl⟩
      ⟨List.replicate 32 9, rfl⟩, 0, []⟩ : FrameEncoder).stream toyAead
        (dataCalls [[1, 1, 187, 1, 1, 2, 3, 4], goBytes "hi"])
    ∃ sOut, outboundStart toyAead toyX25519 toyHkdf appendWrite
        ⟨1000, ⟨List.replicate 32 1, rfl⟩, ⟨List.replicate 40 0, rfl⟩⟩ ⟨List.replicate 16 7, rfl⟩
        ⟨.tcp, .ipv4 ⟨[1, 2, 3, 4], rfl⟩, 443⟩ []
        ⟨[encodeServerHandshake ⟨⟨List.replicate 32 9, rfl⟩, 5⟩, reflected], .eof⟩ = .ok sOut ∧
      reflected =
        ((sOut.requestDone toyAead appendWrite (.err "EOF") [[goBytes "hi"]]).2.1).drop 76 ∧
      (sOut.responseDone toyAead appendWrite [] 3).2.2 =
        ([1, 1, 187, 1, 1, 2, 3, 4] ++ goBytes "hi", some (some (.err "EOF"))) := by
  intro reflected
  obtain ⟨sOut, hs, himp⟩ := outbound_accepts_reflected_frames (X := toyX25519) (H := toyHkdf)
    toyAead_correct ⟨1000, ⟨List.replicate 32 1, rfl⟩, ⟨List.replicate 40 0, rfl⟩⟩
    ⟨List.replicate 16 7, rfl⟩ ⟨.tcp, .ipv4 ⟨[1, 2, 3, 4], rfl⟩, 443⟩
    (readServerHandshake_whole _ ⟨⟨List.replicate 32 9, rfl⟩, 5⟩ [reflected] .eof) rfl
    (by decide) (.err "EOF") [[goBytes "hi"]] (by decide) (show 1 + 1 < 3 by decide)
  -- The outbound started, and wrote after its handshake exactly the frames it gets back.
  obtain rfl := Except.ok.inj (hs.symm.trans (outboundStart_appendWrite (X := toyX25519)
    (H := toyHkdf) _ _ _ [] (readServerHandshake_whole _ _ [reflected] .eof) rfl))
  refine ⟨_, hs, ?_, himp ((List.flatten_singleton _).trans ?_) rfl⟩ <;> rfl

/-- For every session as in `session_end_to_end`, the two directions seal under one key with
    counters that start together. The outbound's first seal is its header frame, under the nonce
    of counter `1`; and whatever buffers each side's relay sends, and whatever the inbound's
    writer does, the `i`-th frame the inbound seals and the `i`-th frame the outbound seals are
    sealed under the same key and the same nonce: the inbound's first frame reuses the key and
    nonce of the header frame. -/
theorem session_directions_share_nonces (hA : A.Correct) (h : Handler) (u : MemoryUser)
    (hu : h.validator.get u.account.id = .ok u) (envOut : OutboundEnv) (envIn : InboundEnv)
    (hts : validateTimestamp envIn.now envOut.now = true) (hdisp : envIn.dispatch = none)
    (target : Destination) {hdr : Bytes} (hhdr : encodeRequestHeader (requestOf target) = .ok hdr)
    (hsize : hdr.length ≤ maxFramePayloadSize) (chs : List Bytes) (e : StreamEnd) :
    ∃ sOut, outboundStart A X H appendWrite envOut u.account.id target []
        ⟨encodeServerHandshake ⟨(generateKeyPair X envIn.serverPrivateKey).2, envIn.now⟩ :: chs,
          e⟩ = .ok sOut ∧
      ∀ (linkErr : GoError) (mbs : List (List Bytes)) (rIn : Conn),
        rIn.bytes = (sOut.requestDone A appendWrite linkErr mbs).2.1 →
        (sOut.requestDone A appendWrite linkErr mbs).1.sealed[0]? =
          some (nonceAt 1, ⟨frameTypeData, hdr⟩) ∧
        ∃ sIn, h.process A X H envIn rIn = .session sIn ∧
          ∀ {W : Type} (write : W → Bytes → W × Option GoError) (conn : W) (linkErr' : GoError)
            (mbs' : List (List Bytes)),
            (sIn.responseDone A write conn linkErr' mbs').1.key =
              (sOut.requestDone A appendWrite linkErr mbs).1.key ∧
            ∀ (i : Nat) (p q : Bytes × Frame),
              (sIn.responseDone A write conn linkErr' mbs').1.sealed[i]? = some p →
              (sOut.requestDone A appendWrite linkErr mbs).1.sealed[i]? = some q → p.1 = q.1 := by
  refine ⟨_, outboundStart_appendWrite envOut u.account.id target []
    (readServerHandshake_whole _ _ chs e) hhdr, fun linkErr mbs rIn hrIn => ?_⟩
  simp only [OutboundSession.requestDone, relayBuffers_appendWrite, List.nil_append,
    List.append_assoc] at hrIn
  obtain ⟨sIn, hproc, -, -, -, -, -, -, henc, -, -⟩ :=
    process_outbound_stream hA h u hu envOut envIn hts hdisp hhdr
      (hsize.trans maxFramePayloadSize_le) rfl hrIn
  -- Both encoders start from a fresh one under the agreed key, the outbound's once it sealed
  -- the header frame; the relays that read the link keep the key and the invariant.
  have hnew : (⟨sessionKeyFor X H (generateKeyPair X envOut.clientPrivateKey).1
      (generateKeyPair X envIn.serverPrivateKey).2, 0, []⟩ : FrameEncoder).Inv := ⟨rfl, rfl⟩
  refine ⟨getElem?_relayBuffers_sealed appendWrite rfl linkErr mbs _, sIn, hproc,
    fun write conn linkErr' mbs' => ⟨?_, fun i p q hp hq => ?_⟩⟩
  · rw [InboundSession.responseDone, OutboundSession.requestDone, relayBuffers_key,
      relayBuffers_key, henc]
    rfl
  · rw [InboundSession.responseDone, henc] at hp
    exact ((hnew.relayBuffers write linkErr' mbs' conn).nonce_of_getElem? hp).trans
      (((hnew.sealFrame (A := A) ⟨frameTypeData, hdr⟩).relayBuffers appendWrite linkErr mbs
        _).nonce_of_getElem? hq).symm

/-- The session of `session_end_to_end_ipv4`: the two directions' seals share key and nonce. -/
theorem session_directions_share_nonces_ipv4 :
    let h : Handler := ⟨(newValidator.add ⟨⟨⟨List.replicate 16 7, rfl⟩⟩, "a"⟩).1, none⟩
    let envOut : OutboundEnv := ⟨1000, ⟨List.replicate 32 1, rfl⟩, ⟨List.replicate 40 0, rfl⟩⟩
    let envIn : InboundEnv := ⟨1000, ⟨List.replicate 32 2, rfl⟩, fun _ => none, none⟩
    ∃ sOut, outboundStart toyAead toyX25519 toyHkdf appendWrite envOut ⟨List.replicate 16 7, rfl⟩
        ⟨.tcp, .ipv4 ⟨[1, 2, 3, 4], rfl⟩, 443⟩ []
        ⟨[encodeServerHandshake ⟨toyX25519.publicKey envIn.serverPrivateKey, 1000⟩], .eof⟩ =
        .ok sOut ∧
      ∀ (linkErr : GoError) (mbs : List (List Bytes)) (rIn : Conn),
        rIn.bytes = (sOut.requestDone toyAead appendWrite linkErr mbs).2.1 →
        (sOut.requestDone toyAead appendWrite linkErr mbs).1.sealed[0]? =
          some (nonceAt 1, ⟨frameTypeData, [1, 1, 187, 1, 1, 2, 3, 4]⟩) ∧
        ∃ sIn, h.process toyAead toyX25519 toyHkdf envIn rIn = .session sIn ∧
          ∀ {W : Type} (write : W → Bytes → W × Option GoError) (conn : W) (linkErr' : GoError)
            (mbs' : List (List Bytes)),
            (sIn.responseDone toyAead write conn linkErr' mbs').1.key =
              (sOut.requestDone toyAead appendWrite linkErr mbs).1.key ∧
            ∀ (i : Nat) (p q : Bytes × Frame),
              (sIn.responseDone toyAead write conn linkErr' mbs').1.sealed[i]? = some p →
              (sOut.requestDone toyAead appendWrite linkErr mbs).1.sealed[i]? = some q →
                p.1 = q.1 :=
  session_directions_share_nonces toyAead_correct
    ⟨(newValidator.add ⟨⟨⟨List.replicate 16 7, rfl⟩⟩, "a"⟩).1, none⟩
    ⟨⟨⟨List.replicate 16 7, rfl⟩⟩, "a"⟩ rfl
    ⟨1000, ⟨List.replicate 32 1, rfl⟩, ⟨List.replicate 40 0, rfl⟩⟩
    ⟨1000, ⟨List.replicate 32 2, rfl⟩, fun _ => none, none⟩ (by decide) rfl
    ⟨.tcp, .ipv4 ⟨[1, 2, 3, 4], rfl⟩, 443⟩ rfl (by decide) [] .eof

end Reflex
