import Reflex.Handshake
import Reflex.Relay
import Reflex.Request

/-!
# The outbound handler

`outbound.Handler.Process` (the outbound package). It dials the target, sends the client
handshake of its user, reads the server handshake with one `Read` into a pooled 40-byte
buffer, derives the session key, and sends the request header as the first frame; then two
relays copy the link's buffers up as frames, and the frames that come back down to the link.

The environment is a parameter (`OutboundEnv`): the clock, the private key `GenerateKeyPair`
draws, and the 40 bytes the buffer pool hands out (zeros when it makes a new buffer). `Dial`
succeeds, and the user's account is a Reflex account.

* `readServerHandshake_whole`: when the first `Read` returns the whole response, the outbound
  decodes the server handshake the inbound encoded;
* `readServerHandshake_split`: when it returns only a part, the rest of the decoded handshake
  comes from the buffer's old bytes, and the rest of the response stays in front of the
  frames.
-/

namespace Reflex

/-- `net.Network`, of the destinations the outbound serves. -/
inductive Network
  | tcp
  | udp
  deriving DecidableEq, Repr

/-- `net.Destination`. -/
structure Destination where
  network : Network
  address : Address
  port : UInt16
  deriving DecidableEq, Repr

/-- What the outbound's `Process` takes from its environment. -/
structure OutboundEnv where
  /-- `time.Now().Unix()`. -/
  now : BitVec 64
  /-- The private key `GenerateKeyPair` draws. -/
  clientPrivateKey : FixedBytes 32
  /-- The 40 bytes `GetServerHandshakeBuffer` returns. -/
  responseBuffer : FixedBytes 40

/-- The request header `Process` builds for its target. -/
def requestOf (target : Destination) : RequestHeader :=
  ⟨if target.network = .udp then requestCommandUDP else requestCommandTCP, target.port,
    some target.address⟩

/-- The client handshake `Process` sends for the user ID: the nonce is left zero. -/
def clientHandshakeOf (X : X25519) (env : OutboundEnv) (userID : UserID) : ClientHandshake :=
  ⟨(generateKeyPair X env.clientPrivateKey).2, userID, env.now, ⟨List.replicate 16 0, rfl⟩⟩

/-- `rawConn.Read(responseData)` into the pooled buffer `buf`, then `DecodeServerHandshake` of
    the whole buffer: the bytes the `Read` returned, then what the buffer held before. -/
def readServerHandshake (buf : FixedBytes 40) (r : Conn) : Except GoError ServerHandshake × Conn :=
  match r.read 40 with
  | (_, some e, r') => (.error (.base "failed to read handshake response" e), r')
  | (chunk, none, r') =>
    match decodeServerHandshake (chunk ++ buf.bytes.drop chunk.length) with
    | .error e => (.error (.base "invalid server handshake" e), r')
    | .ok hs => (.ok hs, r')

/-- Where `Process` hands over to its two relays: the server handshake read, the session key,
    the codec, the connection's reader and what was written to it. -/
structure OutboundSession (W : Type) where
  serverHandshake : ServerHandshake
  sessionKey : Bytes
  encoder : FrameEncoder
  decoder : FrameDecoder
  reader : Conn
  conn : W

variable (A : Aead) (X : X25519) (H : Hkdf) {W : Type} (write : W → Bytes → W × Option GoError)

/-- `Process` up to the relays, for the user ID of its account and its target, writing to
    `conn` and reading `r`. -/
def outboundStart (env : OutboundEnv) (userID : UserID) (target : Destination) (conn : W)
    (r : Conn) : Except GoError (OutboundSession W) :=
  match write conn (encodeClientHandshake (clientHandshakeOf X env userID)) with
  | (_, some e) => .error (.base "failed to send handshake" e)
  | (conn, none) =>
    match readServerHandshake env.responseBuffer r with
    | (.error e, _) => .error e
    | (.ok serverHS, r') =>
      let sessionKey :=
        sessionKeyFor X H (generateKeyPair X env.clientPrivateKey).1 serverHS.publicKey
      match newFrameEncoder sessionKey, newFrameDecoder sessionKey with
      | .error e, _ => .error (.base "failed to create frame encoder" e)
      | _, .error e => .error (.base "failed to create frame decoder" e)
      | .ok encoder, .ok decoder =>
        match encodeRequestHeader (requestOf target) with
        | .error e => .error e
        | .ok requestData =>
          match encoder.writeFrame A write conn ⟨frameTypeData, requestData⟩ with
          | (_, _, some e) => .error (.base "failed to send request" e)
          | (encoder', conn', none) => .ok ⟨serverHS, sessionKey, encoder', decoder, r', conn'⟩

/-- `requestDone` of `Process`: the link's buffers, as frames to the server. -/
def OutboundSession.requestDone (s : OutboundSession W) (linkErr : GoError)
    (mbs : List (List Bytes)) : FrameEncoder × W × GoError :=
  relayBuffers A write linkErr s.encoder s.conn mbs

/-- `responseDone` of `Process`, for at most `fuel` frames: the server's frames, to the link. -/
def OutboundSession.responseDone {L : Type} (writeLink : L → Bytes → L × Option GoError)
    (s : OutboundSession W) (link : L) (fuel : Nat) :
    FrameDecoder × Conn × L × Option (Option GoError) :=
  relayFrames A writeLink fuel s.decoder s.reader link

/-! ## Reading the server handshake -/

theorem read_cons {ch : Bytes} {chs : List Bytes} {e : StreamEnd} {n : Nat}
    (h : ch.length ≤ n) : Conn.read ⟨ch :: chs, e⟩ n = (ch, none, ⟨chs, e⟩) := by
  simp [Conn.read, Nat.not_lt.2 h]

/-- When the first `Read` returns the whole response, the outbound decodes it exactly, and the
    reader keeps what follows. -/
theorem readServerHandshake_whole (buf : FixedBytes 40) (hs : ServerHandshake)
    (chs : List Bytes) (e : StreamEnd) :
    readServerHandshake buf ⟨encodeServerHandshake hs :: chs, e⟩ = (.ok hs, ⟨chs, e⟩) := by
  rw [readServerHandshake, read_cons (by simp)]
  dsimp only
  rw [length_encodeServerHandshake, List.drop_of_length_le (by rw [buf.length_bytes]),
    decodeServerHandshake_encode]

/-- When the first `Read` returns only the first `k` bytes of the response, the outbound decodes
    them followed by the old bytes of the buffer past `k`, and the rest of the response stays
    in front of whatever follows. -/
theorem readServerHandshake_split (buf : FixedBytes 40) (response : Bytes) {k : Nat}
    (hk : k ≤ 40) (chs : List Bytes) (e : StreamEnd) :
    readServerHandshake buf ⟨response.take k :: chs, e⟩ =
      (decodeServerHandshake (response.take k ++ buf.bytes.drop (response.take k).length),
        ⟨chs, e⟩) := by
  rw [readServerHandshake, read_cons ((List.length_take_le _ _).trans hk)]
  dsimp only
  have hl : 40 ≤ (response.take k ++ buf.bytes.drop (response.take k).length).length := by
    simp [buf.length_bytes]; omega
  rw [decodeServerHandshake, if_neg (Nat.not_lt.2 hl)]

/-! ## The start of a session -/

variable {A X H}

/-- `Process` up to the relays, once it read a server handshake: the session key from it, and
    on the connection the client handshake, then the header frame. -/
theorem outboundStart_appendWrite (env : OutboundEnv) (userID : UserID) (target : Destination)
    (conn : Bytes) {r r' : Conn} {serverHS : ServerHandshake}
    (hread : readServerHandshake env.responseBuffer r = (.ok serverHS, r')) {hdr : Bytes}
    (hhdr : encodeRequestHeader (requestOf target) = .ok hdr) :
    outboundStart A X H appendWrite env userID target conn r = .ok
      ⟨serverHS, sessionKeyFor X H (generateKeyPair X env.clientPrivateKey).1 serverHS.publicKey,
        ((⟨sessionKeyFor X H (generateKeyPair X env.clientPrivateKey).1 serverHS.publicKey, 0, []⟩ :
          FrameEncoder).sealFrame A ⟨frameTypeData, hdr⟩).1,
        ⟨sessionKeyFor X H (generateKeyPair X env.clientPrivateKey).1 serverHS.publicKey, 0⟩, r',
        conn ++ encodeClientHandshake (clientHandshakeOf X env userID) ++
          ((⟨sessionKeyFor X H (generateKeyPair X env.clientPrivateKey).1 serverHS.publicKey, 0,
            []⟩ : FrameEncoder).sealFrame A ⟨frameTypeData, hdr⟩).2⟩ := by
  simp only [outboundStart, appendWrite, hread, newFrameEncoder_of_length (length_sessionKeyFor ..),
    newFrameDecoder_of_length (length_sessionKeyFor ..), hhdr, FrameEncoder.writeFrame,
    FrameEncoder.encodeToWriter]

end Reflex
