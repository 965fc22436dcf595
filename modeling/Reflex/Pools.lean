import Mathlib.Logic.Function.Basic
import Reflex.Bytes

/-!
# The buffer pools

The pools of the `encoding` package: four tiers of frame buffers (2 KiB, 8 KiB, 32 KiB and
128 KiB, as `init` computes them) and two pools of handshake buffers (76 and 40 bytes), each a
`sync.Pool`. A `sync.Pool` hands out any buffer it holds, or a new one from its `New`, and may
drop any buffer it holds at any time. A history of the pools is any sequence of calls of the six
functions and of such drops (`PoolCall`); which buffer a `Get` hands out is an input of its call.

A slice is its length and capacity (`GoSlice`): the pools never read the bytes it holds.

* `Pools.Inv.call`: each call keeps the invariant of the pools (every buffer of tier `i` has
  capacity at least `framePoolSizes[i]`, the handshake pools hold 76- and 40-byte buffers), and
  each `Get` from pools that satisfy it returns a slice of the length asked for;
* `pool_history_safe`: so along every history from the empty pools `init` leaves, whatever
  slices are put back, `GetFrameBuffer(n)` returns `n` bytes and never panics, and the
  handshake `Get`s return 76 and 40 bytes.
-/

namespace Reflex

/-- A Go slice, of which the pools read `len(s)` and `cap(s)`. -/
structure GoSlice where
  len : Nat
  cap : Nat
  len_le_cap : len ≤ cap
  deriving DecidableEq, Repr

/-- `make([]byte, n)`. -/
def makeSlice (n : Nat) : GoSlice := ⟨n, n, Nat.le_refl n⟩

/-- The reslice `s[:n]`: Go panics unless `n ≤ cap(s)`. -/
def GoSlice.resliceTo (s : GoSlice) (n : Nat) : Except GoError GoSlice :=
  if h : n ≤ s.cap then .ok ⟨n, s.cap, h⟩
  else .error (.panic "runtime error: slice bounds out of range")

/-- `numFramePools`. -/
def numFramePools : Nat := 4
/-- `minPoolSize`. -/
def minPoolSize : Nat := 2048
/-- `poolSizeMulti`. -/
def poolSizeMulti : Nat := 4

/-- The loop of `init`: the size of each of `n` tiers, from `size` on, times `poolSizeMulti`
    from one tier to the next. -/
def initPoolSizes : Nat → Nat → List Nat
  | 0, _ => []
  | n + 1, size => size :: initPoolSizes n (size * poolSizeMulti)

/-- `framePoolSizes`, as `init` sets it. -/
def framePoolSizes : List Nat := initPoolSizes numFramePools minPoolSize

theorem framePoolSizes_eq : framePoolSizes = [2048, 8192, 32768, 131072] := rfl

/-- `framePoolSizes[i]`. -/
def tierSize (i : Fin numFramePools) : Nat := framePoolSizes.getD i 0

/-- The tier the loop of `GetFrameBuffer` takes a buffer of `size` bytes from: the first whose
    size is at least `size`. -/
def getTier (size : Nat) : Option (Fin numFramePools) :=
  (List.finRange numFramePools).find? fun i => size ≤ tierSize i

/-- The tier the loop of `PutFrameBuffer` puts a buffer of capacity `cap` in: the last whose size
    is at most `cap`. -/
def putTier (cap : Nat) : Option (Fin numFramePools) :=
  (List.finRange numFramePools).reverse.find? fun i => tierSize i ≤ cap

/-- `sync.Pool.Get` of a pool holding `held`, whose `New` makes `new`: the buffer at position
    `pick` if the pool holds one there, else a new one. -/
def poolGet (held : List GoSlice) (new : GoSlice) : Option Nat → GoSlice × List GoSlice
  | some i =>
    match held[i]? with
    | some buf => (buf, held.eraseIdx i)
    | none => (new, held)
  | none => (new, held)

/-- The buffers the pools hold. -/
structure Pools where
  frame : Fin numFramePools → List GoSlice
  clientHandshake : List GoSlice
  serverHandshake : List GoSlice

/-- The pools as `init` leaves them: empty. -/
def Pools.init : Pools := ⟨fun _ => [], [], []⟩

/-- `GetFrameBuffer(size)`: a buffer of the first tier that holds `size` bytes, resliced to
    `size`, or a new slice past the last tier. -/
def Pools.getFrameBuffer (s : Pools) (size : Nat) (pick : Option Nat) :
    Except GoError GoSlice × Pools :=
  match getTier size with
  | some i =>
    ((poolGet (s.frame i) (makeSlice (tierSize i)) pick).1.resliceTo size,
      { s with frame := Function.update s.frame i (poolGet (s.frame i) (makeSlice (tierSize i)) pick).2 })
  | none => (.ok (makeSlice size), s)

/-- `PutFrameBuffer(buf)`, with `none` for a nil slice: the buffer, resliced to its capacity,
    goes to the last tier whose size it reaches, and is dropped below the first. -/
def Pools.putFrameBuffer (s : Pools) : Option GoSlice → Pools
  | none => s
  | some buf =>
    match putTier buf.cap with
    | some i =>
      { s with frame := Function.update s.frame i (s.frame i ++ [⟨buf.cap, buf.cap, Nat.le_refl _⟩]) }
    | none => s

/-- `GetClientHandshakeBuffer`. -/
def Pools.getClientHandshakeBuffer (s : Pools) (pick : Option Nat) : GoSlice × Pools :=
  ((poolGet s.clientHandshake (makeSlice 76) pick).1,
    { s with clientHandshake := (poolGet s.clientHandshake (makeSlice 76) pick).2 })

/-- The `Put` of the two handshake pools, for buffers of `size` bytes: a non-nil buffer of
    capacity `size` is kept, resliced to `size`; any other is dropped. -/
def putHandshakeBuffer (held : List GoSlice) (size : Nat) : Option GoSlice → List GoSlice
  | some buf => if h : buf.cap = size then held ++ [⟨size, buf.cap, by omega⟩] else held
  | none => held

/-- `PutClientHandshakeBuffer(buf)`. -/
def Pools.putClientHandshakeBuffer (s : Pools) (buf : Option GoSlice) : Pools :=
  { s with clientHandshake := putHandshakeBuffer s.clientHandshake 76 buf }

/-- `GetServerHandshakeBuffer`. -/
def Pools.getServerHandshakeBuffer (s : Pools) (pick : Option Nat) : GoSlice × Pools :=
  ((poolGet s.serverHandshake (makeSlice 40) pick).1,
    { s with serverHandshake := (poolGet s.serverHandshake (makeSlice 40) pick).2 })

/-- `PutServerHandshakeBuffer(buf)`. -/
def Pools.putServerHandshakeBuffer (s : Pools) (buf : Option GoSlice) : Pools :=
  { s with serverHandshake := putHandshakeBuffer s.serverHandshake 40 buf }

/-- The `sync.Pool`s of the package. -/
inductive PoolId
  | frame (i : Fin numFramePools)
  | clientHandshake
  | serverHandshake

/-- A `sync.Pool` drops the buffer it holds at position `i`. -/
def Pools.drop (s : Pools) : PoolId → Nat → Pools
  | .frame t, i => { s with frame := Function.update s.frame t ((s.frame t).eraseIdx i) }
  | .clientHandshake, i => { s with clientHandshake := s.clientHandshake.eraseIdx i }
  | .serverHandshake, i => { s with serverHandshake := s.serverHandshake.eraseIdx i }

/-- A call on the pools, with the choice of each `Get`. -/
inductive PoolCall
  | getFrameBuffer (size : Nat) (pick : Option Nat)
  | putFrameBuffer (buf : Option GoSlice)
  | getClientHandshakeBuffer (pick : Option Nat)
  | putClientHandshakeBuffer (buf : Option GoSlice)
  | getServerHandshakeBuffer (pick : Option Nat)
  | putServerHandshakeBuffer (buf : Option GoSlice)
  | drop (pool : PoolId) (i : Nat)

/-- One call: the pools after it, and the slice a `Get` returns. -/
def Pools.call (s : Pools) : PoolCall → Pools × Option (Except GoError GoSlice)
  | .getFrameBuffer size pick => ((s.getFrameBuffer size pick).2, some (s.getFrameBuffer size pick).1)
  | .putFrameBuffer buf => (s.putFrameBuffer buf, none)
  | .getClientHandshakeBuffer pick =>
    ((s.getClientHandshakeBuffer pick).2, some (.ok (s.getClientHandshakeBuffer pick).1))
  | .putClientHandshakeBuffer buf => (s.putClientHandshakeBuffer buf, none)
  | .getServerHandshakeBuffer pick =>
    ((s.getServerHandshakeBuffer pick).2, some (.ok (s.getServerHandshakeBuffer pick).1))
  | .putServerHandshakeBuffer buf => (s.putServerHandshakeBuffer buf, none)
  | .drop pool i => (s.drop pool i, none)

/-- The pools after a history of calls from `s`. -/
def Pools.history (s : Pools) (calls : List PoolCall) : Pools :=
  calls.foldl (fun s c => (s.call c).1) s

/-! ## The invariant -/

/-- What the pools hold: every buffer of tier `i` has capacity at least `framePoolSizes[i]`, and
    the handshake pools hold 76- and 40-byte buffers. -/
structure Pools.Inv (s : Pools) : Prop where
  frame : ∀ i, ∀ b ∈ s.frame i, tierSize i ≤ b.cap
  clientHandshake : ∀ b ∈ s.clientHandshake, b.len = 76
  serverHandshake : ∀ b ∈ s.serverHandshake, b.len = 40

/-- What a call returns: a `Get` a slice of the length it is for, the other calls nothing. -/
def PoolCall.ResultOk : PoolCall → Option (Except GoError GoSlice) → Prop
  | .getFrameBuffer size _, r => ∃ b, r = some (.ok b) ∧ b.len = size
  | .getClientHandshakeBuffer _, r => ∃ b, r = some (.ok b) ∧ b.len = 76
  | .getServerHandshakeBuffer _, r => ∃ b, r = some (.ok b) ∧ b.len = 40
  | _, r => r = none

theorem Pools.inv_init : Pools.init.Inv := ⟨fun _ _ => nofun, fun _ => nofun, fun _ => nofun⟩

/-- `sync.Pool.Get` hands out a buffer it held or a new one, and keeps some of the others. -/
theorem poolGet_spec (held : List GoSlice) (new : GoSlice) (pick : Option Nat) :
    ((poolGet held new pick).1 ∈ held ∨ (poolGet held new pick).1 = new) ∧
      ∀ b ∈ (poolGet held new pick).2, b ∈ held := by
  cases pick with
  | none => exact ⟨.inr rfl, fun _ hb => hb⟩
  | some i =>
    rw [poolGet]
    cases hi : held[i]? with
    | none => exact ⟨.inr rfl, fun _ hb => hb⟩
    | some buf => exact ⟨.inl (List.getElem?_mem hi), fun _ hb => List.mem_of_mem_eraseIdx hb⟩

theorem le_tierSize_of_getTier {size : Nat} {i : Fin numFramePools} (h : getTier size = some i) :
    size ≤ tierSize i := by
  unfold getTier at h; exact of_decide_eq_true (List.find?_some h :)

theorem tierSize_le_of_putTier {cap : Nat} {i : Fin numFramePools} (h : putTier cap = some i) :
    tierSize i ≤ cap := by
  unfold putTier at h; exact of_decide_eq_true (List.find?_some h :)

theorem frame_update {f : Fin numFramePools → List GoSlice}
    (hf : ∀ j, ∀ b ∈ f j, tierSize j ≤ b.cap) {i : Fin numFramePools} {l : List GoSlice}
    (hl : ∀ b ∈ l, tierSize i ≤ b.cap) : ∀ j, ∀ b ∈ Function.update f i l j, tierSize j ≤ b.cap := by
  intro j b hb
  by_cases hj : j = i
  · subst hj; rw [Function.update_same] at hb; exact hl b hb
  · rw [Function.update_noteq hj] at hb; exact hf j b hb

/-- From a pool of `size`-byte buffers whose `New` makes `size` bytes, `Get` returns `size` bytes
    and keeps `size`-byte buffers. -/
theorem poolGet_len {held : List GoSlice} {size : Nat} (h : ∀ b ∈ held, b.len = size)
    (pick : Option Nat) :
    (poolGet held (makeSlice size) pick).1.len = size ∧
      ∀ b ∈ (poolGet held (makeSlice size) pick).2, b.len = size := by
  obtain ⟨hbuf | hbuf, hheld⟩ := poolGet_spec held (makeSlice size) pick
  · exact ⟨h _ hbuf, fun b hb => h b (hheld b hb)⟩
  · exact ⟨congrArg GoSlice.len hbuf, fun b hb => h b (hheld b hb)⟩

/-- Whatever it is given, the `Put` of a handshake pool keeps it a pool of `size`-byte
    buffers. -/
theorem putHandshakeBuffer_len {held : List GoSlice} {size : Nat} (h : ∀ b ∈ held, b.len = size) :
    ∀ buf, ∀ b ∈ putHandshakeBuffer held size buf, b.len = size
  | none => h
  | some buf => by
    rw [putHandshakeBuffer]
    split_ifs
    · intro b hb
      rcases List.mem_append.1 hb with hb | hb
      · exact h b hb
      · rw [List.mem_singleton.1 hb]
    · exact h

variable {s : Pools}

theorem Pools.Inv.getFrameBuffer (h : s.Inv) (size : Nat) (pick : Option Nat) :
    (s.getFrameBuffer size pick).2.Inv ∧
      ∃ b, (s.getFrameBuffer size pick).1 = .ok b ∧ b.len = size := by
  unfold Pools.getFrameBuffer
  cases hg : getTier size with
  | none => exact ⟨h, makeSlice size, rfl, rfl⟩
  | some i =>
    obtain ⟨hbuf, hheld⟩ := poolGet_spec (s.frame i) (makeSlice (tierSize i)) pick
    have hcap : tierSize i ≤ (poolGet (s.frame i) (makeSlice (tierSize i)) pick).1.cap := by
      rcases hbuf with hbuf | hbuf
      · exact h.frame i _ hbuf
      · rw [hbuf]; exact Nat.le_refl _
    refine ⟨⟨frame_update h.frame fun b hb => h.frame i b (hheld b hb), h.clientHandshake,
      h.serverHandshake⟩, _, dif_pos ((le_tierSize_of_getTier hg).trans hcap), rfl⟩

theorem Pools.Inv.putFrameBuffer (h : s.Inv) (buf : Option GoSlice) :
    (s.putFrameBuffer buf).Inv := by
  cases buf with
  | none => exact h
  | some buf =>
    rw [Pools.putFrameBuffer]
    cases hp : putTier buf.cap with
    | none => exact h
    | some i =>
      refine ⟨frame_update h.frame fun b hb => ?_, h.clientHandshake, h.serverHandshake⟩
      rcases List.mem_append.1 hb with hb | hb
      · exact h.frame i b hb
      · rw [List.mem_singleton.1 hb]; exact tierSize_le_of_putTier hp

theorem Pools.Inv.getClientHandshakeBuffer (h : s.Inv) (pick : Option Nat) :
    (s.getClientHandshakeBuffer pick).2.Inv ∧ (s.getClientHandshakeBuffer pick).1.len = 76 :=
  have hg := poolGet_len h.clientHandshake pick
  ⟨⟨h.frame, hg.2, h.serverHandshake⟩, hg.1⟩

theorem Pools.Inv.getServerHandshakeBuffer (h : s.Inv) (pick : Option Nat) :
    (s.getServerHandshakeBuffer pick).2.Inv ∧ (s.getServerHandshakeBuffer pick).1.len = 40 :=
  have hg := poolGet_len h.serverHandshake pick
  ⟨⟨h.frame, h.clientHandshake, hg.2⟩, hg.1⟩

theorem Pools.Inv.putClientHandshakeBuffer (h : s.Inv) (buf : Option GoSlice) :
    (s.putClientHandshakeBuffer buf).Inv :=
  ⟨h.frame, putHandshakeBuffer_len h.clientHandshake buf, h.serverHandshake⟩

theorem Pools.Inv.putServerHandshakeBuffer (h : s.Inv) (buf : Option GoSlice) :
    (s.putServerHandshakeBuffer buf).Inv :=
  ⟨h.frame, h.clientHandshake, putHandshakeBuffer_len h.serverHandshake buf⟩

theorem Pools.Inv.drop (h : s.Inv) (pool : PoolId) (i : Nat) : (s.drop pool i).Inv := by
  cases pool with
  | frame t =>
    exact ⟨frame_update h.frame fun b hb => h.frame t b (List.mem_of_mem_eraseIdx hb),
      h.clientHandshake, h.serverHandshake⟩
  | clientHandshake =>
    exact ⟨h.frame, fun b hb => h.clientHandshake b (List.mem_of_mem_eraseIdx hb),
      h.serverHandshake⟩
  | serverHandshake =>
    exact ⟨h.frame, h.clientHandshake,
      fun b hb => h.serverHandshake b (List.mem_of_mem_eraseIdx hb)⟩

/-- The step lemma: every call keeps the invariant, and from pools that keep it every `Get`
    returns a slice of the length it is for. -/
theorem Pools.Inv.call (h : s.Inv) (c : PoolCall) : (s.call c).1.Inv ∧ c.ResultOk (s.call c).2 := by
  cases c with
  | getFrameBuffer size pick =>
    obtain ⟨hi, b, hb, hl⟩ := h.getFrameBuffer size pick
    exact ⟨hi, b, by rw [Pools.call, hb], hl⟩
  | putFrameBuffer buf => exact ⟨h.putFrameBuffer buf, rfl⟩
  | getClientHandshakeBuffer pick =>
    obtain ⟨hi, hl⟩ := h.getClientHandshakeBuffer pick
    exact ⟨hi, _, rfl, hl⟩
  | putClientHandshakeBuffer buf => exact ⟨h.putClientHandshakeBuffer buf, rfl⟩
  | getServerHandshakeBuffer pick =>
    obtain ⟨hi, hl⟩ := h.getServerHandshakeBuffer pick
    exact ⟨hi, _, rfl, hl⟩
  | putServerHandshakeBuffer buf => exact ⟨h.putServerHandshakeBuffer buf, rfl⟩
  | drop pool i => exact ⟨h.drop pool i, rfl⟩

/-- The run lemma: a history of calls keeps the invariant. -/
theorem Pools.Inv.history (h : s.Inv) (calls : List PoolCall) : (s.history calls).Inv := by
  induction calls generalizing s with
  | nil => exact h
  | cons c calls ih => exact ih (h.call c).1

/-- Along every history of calls from the pools `init` leaves (any slices put back, any buffers
    handed out or dropped by the `sync.Pool`s), every buffer of tier `i` has capacity at least
    `framePoolSizes[i]`, and the next call, whatever it is, returns what it is for:
    `GetFrameBuffer(n)` a slice of length `n` and no panic, the handshake `Get`s 76 and 40
    bytes. -/
theorem pool_history_safe (calls : List PoolCall) (c : PoolCall) :
    (∀ i, ∀ b ∈ (Pools.init.history calls).frame i, framePoolSizes.getD i 0 ≤ b.cap) ∧
      (∀ b ∈ (Pools.init.history calls).clientHandshake, b.len = 76) ∧
      (∀ b ∈ (Pools.init.history calls).serverHandshake, b.len = 40) ∧
      c.ResultOk ((Pools.init.history calls).call c).2 :=
  have h := Pools.inv_init.history calls
  ⟨h.frame, h.clientHandshake, h.serverHandshake, (h.call c).2⟩

end Reflex
