import Reflex.Frame

/-!
# Frame batching

`BufferManager.BatchFrames` of the `encoding` package. It walks the buffers of a
`buf.MultiBuffer` and gathers their bytes into batches, each to go out as the payload of one
frame: a buffer that would overflow the current batch closes it, and a buffer larger than a
frame is cut into frame-sized pieces of its own.

A multi-buffer is given by the bytes of its buffers (`b.Bytes()`). The manager's read and write
buffers are read by `Release` only and are left out. `NewBufferManager` sets `maxFrameSize` to
`MaxFramePayloadSize`; the field is unexported, and the manager of the model carries
`0 < maxFrameSize`, without which the loop that cuts a large buffer never ends.

* `splitLoop_flatten`, `splitLoop_sizes`: that loop returns pieces of 1 to `maxFrameSize` bytes
  which concatenate back to the buffer;
* `BatchInv.batchStep`: one turn of the loop over the buffers keeps its invariant (the batches
  and the current batch concatenate to the buffers read so far, every batch saved holds 1 to
  `maxFrameSize` bytes and the current one at most `maxFrameSize`), and `BatchInv.foldl` carries
  it over the whole multi-buffer;
* `batchFrames_concat`: so for every multi-buffer the batches concatenate, in order, to its bytes,
  and each of them holds 1 to `MaxFramePayloadSize` bytes.
-/

namespace Reflex

/-- A `BufferManager`, of which `BatchFrames` reads `maxFrameSize`. -/
structure BufferManager where
  maxFrameSize : Nat
  maxFrameSize_pos : 0 < maxFrameSize

/-- `NewBufferManager()`. -/
def newBufferManager : BufferManager := ⟨maxFramePayloadSize, by decide⟩

/-- The loop `for i := 0; i < len(data); i += maxFrameSize` of `BatchFrames`, from `i` on and for
    at most `fuel` turns: each turn cuts `data[i:end]`, with `end` capped at `len(data)`. -/
def splitLoop (maxFrameSize : Nat) (data : Bytes) : Nat → Nat → List Bytes
  | 0, _ => []
  | fuel + 1, i =>
    if i < data.length then
      let endIdx := if i + maxFrameSize > data.length then data.length else i + maxFrameSize
      (data.take endIdx).drop i :: splitLoop maxFrameSize data fuel (i + maxFrameSize)
    else []

/-- One turn of the loop of `BatchFrames` over the buffers: the batches so far and the current
    batch, then the bytes `data` of the next buffer. When the current batch is saved it is
    replaced by an empty one, so in that branch it is empty whether or not it was saved. -/
def BufferManager.batchStep (bm : BufferManager) :
    List Bytes × Bytes → Bytes → List Bytes × Bytes
  | (batches, currentBatch), data =>
    if currentBatch.length + data.length > bm.maxFrameSize then
      let batches := if currentBatch.length > 0 then batches ++ [currentBatch] else batches
      if data.length > bm.maxFrameSize then
        (batches ++ splitLoop bm.maxFrameSize data data.length 0, [])
      else (batches, data)
    else (batches, currentBatch ++ data)

/-- `bm.BatchFrames(mb)`. -/
def BufferManager.batchFrames (bm : BufferManager) (mb : List Bytes) : List Bytes :=
  let (batches, currentBatch) := mb.foldl bm.batchStep ([], [])
  if currentBatch.length > 0 then batches ++ [currentBatch] else batches

/-! ## Cutting a large buffer -/

section Split

variable {m : Nat} {data : Bytes}

/-- The piece `data[i:end]` and the bytes from `end` on make up the bytes from `i` on. -/
theorem drop_take_append_drop {i j : Nat} (hij : i ≤ j) (hi : i ≤ data.length) :
    (data.take j).drop i ++ data.drop j = data.drop i := by
  rw [← List.drop_append_of_le_length (by simp; omega), List.take_append_drop]

/-- With fuel for the turns left, the pieces from `i` on concatenate to `data[i:]`. -/
theorem splitLoop_flatten (hm : 0 < m) :
    ∀ fuel i, data.length ≤ i + fuel * m → (splitLoop m data fuel i).flatten = data.drop i
  | 0, i, h => by simp [splitLoop, List.drop_eq_nil_of_le (by omega : data.length ≤ i)]
  | fuel + 1, i, h => by
    rw [Nat.succ_mul] at h
    rw [splitLoop]
    split_ifs with hi hend
    · rw [List.flatten_cons, splitLoop_flatten hm fuel _ (by omega),
        List.drop_eq_nil_of_le (by omega : data.length ≤ i + m), List.take_of_length_le le_rfl,
        List.append_nil]
    · rw [List.flatten_cons, splitLoop_flatten hm fuel _ (by omega),
        drop_take_append_drop (by omega) (by omega)]
    · simp [List.drop_eq_nil_of_le (by omega : data.length ≤ i)]

/-- Every piece holds 1 to `m` bytes. -/
theorem splitLoop_sizes (hm : 0 < m) :
    ∀ fuel i, ∀ c ∈ splitLoop m data fuel i, 0 < c.length ∧ c.length ≤ m
  | 0, _, _, hc => by simp [splitLoop] at hc
  | fuel + 1, i, c, hc => by
    rw [splitLoop] at hc
    by_cases hi : i < data.length
    · rw [if_pos hi] at hc
      rcases List.mem_cons.1 hc with rfl | hc
      · simp only [List.length_drop, List.length_take]; split_ifs <;> omega
      · exact splitLoop_sizes hm fuel _ c hc
    · simp [hi] at hc

end Split

/-! ## The loop over the buffers -/

/-- The invariant of the loop of `BatchFrames` once the buffers `read` are walked: the batches and
    the current batch concatenate to their bytes, every batch saved holds 1 to `maxFrameSize`
    bytes, and the current batch at most `maxFrameSize`. -/
structure BatchInv (bm : BufferManager) (read : List Bytes) (acc : List Bytes × Bytes) : Prop where
  concat : acc.1.flatten ++ acc.2 = read.flatten
  sizes : ∀ b ∈ acc.1, 0 < b.length ∧ b.length ≤ bm.maxFrameSize
  current_le : acc.2.length ≤ bm.maxFrameSize

section Inv

variable {bm : BufferManager} {read : List Bytes} {batches : List Bytes} {cur : Bytes}

theorem BatchInv.init : BatchInv bm [] ([], []) :=
  ⟨rfl, nofun, Nat.zero_le _⟩

/-- Saving the current batch if it holds bytes, and starting an empty one. -/
theorem BatchInv.flush (h : BatchInv bm read (batches, cur)) :
    BatchInv bm read ((if cur.length > 0 then batches ++ [cur] else batches), []) := by
  obtain ⟨hcat, hsz, hcur⟩ := h
  split_ifs with hpos
  · refine ⟨by simpa using hcat, fun b hb => ?_, Nat.zero_le _⟩
    rcases List.mem_append.1 hb with hb | hb
    · exact hsz b hb
    · rw [List.mem_singleton.1 hb]; exact ⟨hpos, hcur⟩
  · rw [List.eq_nil_of_length_eq_zero (by omega : cur.length = 0)] at hcat
    exact ⟨hcat, hsz, Nat.zero_le _⟩

/-- Adding the bytes of a buffer that fits to the current batch. -/
theorem BatchInv.append (h : BatchInv bm read (batches, cur)) (data : Bytes)
    (hfit : cur.length + data.length ≤ bm.maxFrameSize) :
    BatchInv bm (read ++ [data]) (batches, cur ++ data) := by
  obtain ⟨hcat, hsz, -⟩ := h
  refine ⟨?_, hsz, by simpa using hfit⟩
  simp only [List.flatten_append, List.flatten_singleton, ← hcat, List.append_assoc]

/-- Cutting a buffer into pieces of its own, after the current batch was saved. -/
theorem BatchInv.split (h : BatchInv bm read (batches, [])) (data : Bytes) :
    BatchInv bm (read ++ [data])
      (batches ++ splitLoop bm.maxFrameSize data data.length 0, []) := by
  obtain ⟨hcat, hsz, -⟩ := h
  refine ⟨?_, fun b hb => ?_, Nat.zero_le _⟩
  · have hfuel := Nat.le_mul_of_pos_right data.length bm.maxFrameSize_pos
    rw [List.flatten_append, splitLoop_flatten bm.maxFrameSize_pos _ _ (by omega)]
    simpa using hcat
  · rcases List.mem_append.1 hb with hb | hb
    · exact hsz b hb
    · exact splitLoop_sizes bm.maxFrameSize_pos _ _ b hb

/-- One turn of the loop keeps the invariant. -/
theorem BatchInv.batchStep {acc : List Bytes × Bytes} (h : BatchInv bm read acc) (data : Bytes) :
    BatchInv bm (read ++ [data]) (bm.batchStep acc data) := by
  obtain ⟨batches, cur⟩ := acc
  have hcur : cur.length ≤ bm.maxFrameSize := h.current_le
  rw [BufferManager.batchStep]
  by_cases hover : cur.length + data.length > bm.maxFrameSize
  · rw [if_pos hover]
    by_cases hbig : data.length > bm.maxFrameSize
    · rw [if_pos hbig]
      exact h.flush.split data
    · rw [if_neg hbig]
      simpa only [List.nil_append] using h.flush.append data (by simp only [List.length_nil]; omega)
  · rw [if_neg hover]
    exact h.append data (by omega)

/-- The loop over a whole multi-buffer keeps the invariant. -/
theorem BatchInv.foldl (mb : List Bytes) :
    ∀ {read acc}, BatchInv bm read acc →
      BatchInv bm (read ++ mb) (mb.foldl bm.batchStep acc) := by
  induction mb with
  | nil => intro read acc h; simpa using h
  | cons data mb ih =>
    intro read acc h
    simpa using ih (h.batchStep data)

end Inv

/-- For every multi-buffer the batches of `BatchFrames` concatenate, in order, to its bytes,
    and each of them holds 1 to `MaxFramePayloadSize` bytes. -/
theorem batchFrames_concat (mb : List Bytes) :
    (newBufferManager.batchFrames mb).flatten = mb.flatten ∧
      ∀ b ∈ newBufferManager.batchFrames mb,
        0 < b.length ∧ b.length ≤ maxFramePayloadSize := by
  have h := (BatchInv.init : BatchInv newBufferManager [] ([], [])).foldl mb
  rcases hf : mb.foldl newBufferManager.batchStep ([], []) with ⟨batches, cur⟩
  rw [hf] at h
  obtain ⟨hcat, hsz, -⟩ := h.flush
  simp only [BufferManager.batchFrames, hf]
  exact ⟨by simpa using hcat, hsz⟩

end Reflex
