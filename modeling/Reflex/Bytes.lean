import Mathlib.Data.List.Basic
import Mathlib.Algebra.Group.Nat.Basic

/-!
# Bytes on the wire

A Go `[]byte` is a list of `UInt8`, and the integers of the protocol are written on it by
`encoding/binary`: the frame length as a big-endian `uint16`, the handshake magic as a
big-endian `uint32`, the timestamps as big-endian `uint64`, and the nonce counter as a
little-endian `uint64`. One pair of functions, `putLE` and `leNat`, does all of them
(`putBE`/`beNat` read the bytes backwards), and `leNat_putLE`, `putLE_leNat` are the two
round trips every codec proof uses.

A Go array `[n]byte` is a `FixedBytes n`, which carries its length. A Go call that does not
return a value ends with an `error` or with a run-time panic (`GoError`); slicing `s[lo:hi]`
panics unless `lo ≤ hi ≤ len(s)` (`slice`).

The peer of a connection is a `Conn`: the chunks its successive `Read` calls return, then how
it ends (`io.EOF`, or a read deadline that passes while the peer waits). `io.ReadFull` and
`bufio.Reader.Peek` only see the bytes, whatever the chunks (`readFull_of_le`,
`readFull_of_lt`); a single `Read` sees one chunk (`Conn.read`).
-/

namespace Reflex

/-- A Go `[]byte`. -/
abbrev Bytes := List UInt8

theorem UInt8.toNat_ofNat (n : Nat) : (UInt8.ofNat n).toNat = n % 256 := rfl

theorem UInt8.ofNat_toNat (b : UInt8) : UInt8.ofNat b.toNat = b :=
  UInt8.toNat.inj (Nat.mod_eq_of_lt b.toNat_lt_size)

/-- Go's `uint64` increment wraps around. -/
theorem UInt64.toNat_add_one (a : UInt64) : (a + 1).toNat = (a.toNat + 1) % 2 ^ 64 := by
  simp [UInt64.toNat, UInt64.add_def, BitVec.toNat_add]

/-! ## Fixed-width integers -/

/-- The `n` low bytes of `v`, least significant first: `binary.LittleEndian.PutUintN`. -/
def putLE : Nat → Nat → Bytes
  | 0, _ => []
  | n + 1, v => UInt8.ofNat v :: putLE n (v / 256)

/-- The value of little-endian bytes: `binary.LittleEndian.UintN`. -/
def leNat : Bytes → Nat
  | [] => 0
  | b :: bs => b.toNat + 256 * leNat bs

/-- The `n` low bytes of `v`, most significant first: `binary.BigEndian.PutUintN`. -/
def putBE (n v : Nat) : Bytes := (putLE n v).reverse

/-- The value of big-endian bytes: `binary.BigEndian.UintN`. -/
def beNat (bs : Bytes) : Nat := leNat bs.reverse

@[simp] theorem length_putLE (n v : Nat) : (putLE n v).length = n := by
  induction n generalizing v <;> simp [putLE, *]

@[simp] theorem length_putBE (n v : Nat) : (putBE n v).length = n := by simp [putBE]

theorem leNat_putLE (n v : Nat) : leNat (putLE n v) = v % 256 ^ n := by
  induction n generalizing v with
  | zero => simp [putLE, leNat, Nat.mod_one]
  | succ n ih =>
    rw [putLE, leNat, ih, UInt8.toNat_ofNat, Nat.pow_succ', Nat.mod_mul]

theorem beNat_putBE (n v : Nat) : beNat (putBE n v) = v % 256 ^ n := by
  simp [beNat, putBE, leNat_putLE]

theorem leNat_lt (bs : Bytes) : leNat bs < 256 ^ bs.length := by
  induction bs with
  | nil => simp [leNat]
  | cons b bs ih =>
    have := b.toNat_lt_size
    simp only [leNat, List.length_cons, Nat.pow_succ']
    change _ < 256 at this
    omega

theorem beNat_lt (bs : Bytes) : beNat bs < 256 ^ bs.length := by
  simpa [beNat] using leNat_lt bs.reverse

theorem putLE_leNat (bs : Bytes) : putLE bs.length (leNat bs) = bs := by
  induction bs with
  | nil => rfl
  | cons b bs ih =>
    have hb := b.toNat_lt_size
    change _ < 256 at hb
    have hdiv : (b.toNat + 256 * leNat bs) / 256 = leNat bs := by omega
    have hmod : UInt8.ofNat (b.toNat + 256 * leNat bs) = b :=
      UInt8.toNat.inj (by rw [UInt8.toNat_ofNat]; omega)
    simp only [List.length_cons, leNat, putLE, hdiv, hmod, ih]

theorem putBE_beNat (bs : Bytes) : putBE bs.length (beNat bs) = bs := by
  simpa [putBE, beNat] using congrArg List.reverse (putLE_leNat bs.reverse)

/-- `putLE n` only sees its argument modulo `256 ^ n`. -/
theorem putLE_mod (n v : Nat) : putLE n (v % 256 ^ n) = putLE n v := by
  induction n generalizing v with
  | zero => rfl
  | succ n ih =>
    have h1 : UInt8.ofNat (v % 256 ^ (n + 1)) = UInt8.ofNat v :=
      UInt8.toNat.inj (by simp only [UInt8.toNat_ofNat, Nat.pow_succ', Nat.mod_mul_right_mod])
    rw [putLE, putLE, h1, Nat.pow_succ', Nat.mod_mul_right_div_self, ih]

/-- Little-endian encodings of values below `256 ^ n` are distinct. -/
theorem putLE_inj {n v w : Nat} (hv : v < 256 ^ n) (hw : w < 256 ^ n)
    (h : putLE n v = putLE n w) : v = w := by
  have := congrArg leNat h
  rwa [leNat_putLE, leNat_putLE, Nat.mod_eq_of_lt hv, Nat.mod_eq_of_lt hw] at this

theorem length_take_drop {l : Bytes} {a n : Nat} (h : a + n ≤ l.length) :
    ((l.drop a).take n).length = n := by
  rw [List.length_take, List.length_drop]; omega

/-! ## Arrays and strings -/

/-- A Go array `[n]byte`. -/
@[ext] structure FixedBytes (n : Nat) where
  bytes : Bytes
  length_bytes : bytes.length = n
  deriving DecidableEq, Repr

/-- `copy(a[:], s)` into a zeroed `[n]byte`: the first `n` bytes of `s`, the rest zero. -/
def FixedBytes.copyOf (n : Nat) (s : Bytes) : FixedBytes n :=
  ⟨(s ++ List.replicate n 0).take n, by simp⟩

theorem FixedBytes.copyOf_of_length {n : Nat} {s : Bytes} (h : s.length = n) :
    (FixedBytes.copyOf n s).bytes = s := by
  simp [FixedBytes.copyOf, ← h]

@[simp] theorem FixedBytes.copyOf_bytes {n : Nat} (a : FixedBytes n) :
    FixedBytes.copyOf n a.bytes = a :=
  FixedBytes.ext (FixedBytes.copyOf_of_length a.length_bytes)

/-- `[]byte(s)` of a string literal of the code, all of which are ASCII. -/
def goBytes (s : String) : Bytes := s.toList.map fun c => UInt8.ofNat c.toNat

/-! ## Errors and slices -/

/-- How a Go call ends when it returns no value: with an `error`, or with a run-time panic. -/
inductive GoError
  | err (msg : String)
  | panic (msg : String)
  deriving DecidableEq, Repr

/-- `errors.New(msg).Base(e)`: the message, then the one of the error it wraps; a panic is not
    an error value and goes through. -/
def GoError.base (msg : String) : GoError → GoError
  | .err m => .err (msg ++ " > " ++ m)
  | .panic m => .panic m

/-- `e` is a run-time panic. -/
def GoError.IsPanic : GoError → Prop
  | .panic _ => True
  | .err _ => False

instance : DecidablePred GoError.IsPanic := fun e => by
  cases e <;> simp only [GoError.IsPanic] <;> infer_instance

/-- The slice `s[lo:hi]`; Go panics unless `lo ≤ hi ≤ len(s)`. -/
def slice (s : Bytes) (lo hi : Nat) : Except GoError Bytes :=
  if lo ≤ hi ∧ hi ≤ s.length then .ok ((s.take hi).drop lo)
  else .error (.panic "runtime error: slice bounds out of range")

theorem slice_of_le {s : Bytes} {lo hi : Nat} (h₁ : lo ≤ hi) (h₂ : hi ≤ s.length) :
    slice s lo hi = .ok ((s.take hi).drop lo) := if_pos ⟨h₁, h₂⟩

theorem slice_of_gt {s : Bytes} {lo hi : Nat} (h : hi < lo) :
    slice s lo hi = .error (.panic "runtime error: slice bounds out of range") :=
  if_neg fun ⟨h₁, _⟩ => absurd h₁ (Nat.not_le.2 h)

/-! ## Connections and readers -/

/-- How the byte stream of a peer ends once its bytes are read: it closed its side
    (`io.EOF`), or it waits and the read deadline passes. -/
inductive StreamEnd
  | eof
  | deadline
  deriving DecidableEq, Repr

/-- The error a read returns at the end of the stream. -/
def StreamEnd.err : StreamEnd → GoError
  | .eof => .err "EOF"
  | .deadline => .err "i/o timeout"

/-- A peer as its reader sees it: the chunks successive `Read` calls return, then its end. -/
structure Conn where
  chunks : List Bytes
  close : StreamEnd

/-- All the bytes the peer sends. -/
def Conn.bytes (c : Conn) : Bytes := c.chunks.flatten

/-- `n` bytes off a list of chunks: the bytes taken and the chunks left. -/
def takeChunks : Nat → List Bytes → Bytes × List Bytes
  | _, [] => ([], [])
  | n, ch :: rest =>
    if n < ch.length then (ch.take n, ch.drop n :: rest)
    else ((ch ++ (takeChunks (n - ch.length) rest).1), (takeChunks (n - ch.length) rest).2)

theorem takeChunks_fst (n : Nat) (cs : List Bytes) :
    (takeChunks n cs).1 = cs.flatten.take n := by
  induction cs generalizing n with
  | nil => simp [takeChunks]
  | cons ch rest ih =>
    unfold takeChunks
    split_ifs with h
    · simp [List.take_append_of_le_length h.le]
    · simp [ih, List.take_append_eq_append_take, List.take_of_length_le (Nat.not_lt.1 h)]

theorem takeChunks_snd (n : Nat) (cs : List Bytes) :
    (takeChunks n cs).2.flatten = cs.flatten.drop n := by
  induction cs generalizing n with
  | nil => simp [takeChunks]
  | cons ch rest ih =>
    unfold takeChunks
    split_ifs with h
    · simp [List.drop_append_of_le_length h.le]
    · simp [ih, List.drop_append_eq_append_drop, List.drop_of_length_le (Nat.not_lt.1 h)]

/-- `io.ReadFull(r, buf)` with `len(buf) = n`: the next `n` bytes, or the error of the end of
    the stream (`io.ErrUnexpectedEOF` when it closed after some but not all of them); the
    reader keeps what follows. -/
def Conn.readFull (c : Conn) (n : Nat) : Except GoError Bytes × Conn :=
  if (takeChunks n c.chunks).1.length = n then
    (.ok (takeChunks n c.chunks).1, ⟨(takeChunks n c.chunks).2, c.close⟩)
  else
    (.error (if (takeChunks n c.chunks).1 = [] ∨ c.close = .deadline then c.close.err
      else .err "unexpected EOF"), ⟨[], c.close⟩)

theorem readFull_of_le {c : Conn} {n : Nat} (h : n ≤ c.bytes.length) :
    ∃ c', c.readFull n = (.ok (c.bytes.take n), c') ∧ c'.bytes = c.bytes.drop n ∧
      c'.close = c.close := by
  have hl : (takeChunks n c.chunks).1.length = n := by
    rw [takeChunks_fst, List.length_take]; exact min_eq_left h
  rw [Conn.readFull, if_pos hl, takeChunks_fst]
  exact ⟨_, rfl, takeChunks_snd n c.chunks, rfl⟩

theorem readFull_of_lt {c : Conn} {n : Nat} (h : c.bytes.length < n) :
    ∃ e, (c.readFull n).1 = .error e ∧ ¬ e.IsPanic := by
  have hl : (takeChunks n c.chunks).1.length ≠ n := by
    rw [takeChunks_fst, List.length_take]; exact (min_eq_right h.le).trans_ne h.ne
  rw [Conn.readFull, if_neg hl]
  refine ⟨_, rfl, ?_⟩
  split_ifs <;> cases c.close <;> simp [StreamEnd.err, GoError.IsPanic]

/-- A `ReadFull` that succeeds read the next `n` bytes, and the reader keeps what follows. -/
theorem readFull_eq_ok {c c' : Conn} {n : Nat} {d : Bytes} (h : c.readFull n = (.ok d, c')) :
    d = c.bytes.take n ∧ c'.bytes = c.bytes.drop n ∧ c'.close = c.close := by
  by_cases hn : n ≤ c.bytes.length
  · obtain ⟨c'', h', hb, hc⟩ := readFull_of_le hn
    obtain ⟨hd, rfl⟩ := Prod.mk.inj (h.symm.trans h')
    exact ⟨Except.ok.inj hd, hb, hc⟩
  · obtain ⟨e, he, -⟩ := readFull_of_lt (Nat.lt_of_not_le hn)
    rw [h] at he
    cases he

/-- `bufio.Reader.Peek(n)` (for `n` within the reader's 4096-byte buffer): the next `n`
    bytes, left unread, or all there are and the error that ended the stream. -/
def Conn.peek (c : Conn) (n : Nat) : Bytes × Option GoError :=
  if n ≤ c.bytes.length then (c.bytes.take n, none) else (c.bytes, some c.close.err)

/-- One `Read` into a buffer of `n > 0` bytes: the next chunk, cut to `n` bytes, or the
    error that ended the stream. -/
def Conn.read (c : Conn) (n : Nat) : Bytes × Option GoError × Conn :=
  match c.chunks with
  | [] => ([], some c.close.err, c)
  | ch :: rest =>
    if n < ch.length then (ch.take n, none, ⟨ch.drop n :: rest, c.close⟩)
    else (ch, none, ⟨rest, c.close⟩)

end Reflex
