import Reflex.Frame

/-!
# Traffic morphing

The morphing code of the `encoding` package, and `FrameEncoder.WriteFrameWithMorphing`. A
profile has a list of packet sizes and a list of delays; `GetPacketSize` and `GetDelay` draw
one of them from `math/rand`, and `AddPadding` fills a payload up to a size with random bytes.

The draws are inputs of the model. `rand.Float64()` and the running float sums of the weights
decide at which entry the loop of `GetPacketSize` stops; the model takes that position as the
draw (`Draw.size`; a position past the end is the fall-through to the last entry), so the
weights are left out. The same goes for `GetDelay` (`Draw.delay`), whose value only sets how
long the writer sleeps, and for the bytes `rand.Read` gives `AddPadding` (`Draw.noise`).

`WriteFrameWithMorphing` splits a payload longer than the size drawn, writes the head as a
frame and goes on with the rest; otherwise it pads the payload to the size and writes it. Each
level of its recursion uses one `Draw`, so a list of draws is also how far the call is followed:
the result is the encoder and writer after those draws, and what the call returned, or `none`
if it has not returned yet (as with a size of `0`, which makes it recurse for ever).
-/

namespace Reflex

/-- `TrafficProfile`: its name, packet sizes and delays (in milliseconds). -/
structure TrafficProfile where
  name : String
  packetSizes : List Nat
  delays : List Nat
  deriving DecidableEq, Repr

/-- `YouTubeProfile`. -/
def youTubeProfile : TrafficProfile := ⟨"YouTube", [1400, 1200, 1000, 800], [10, 20, 30]⟩
/-- `ZoomProfile`. -/
def zoomProfile : TrafficProfile := ⟨"Zoom", [500, 600, 700], [30, 40, 50]⟩
/-- `HTTP2APIProfile`. -/
def http2APIProfile : TrafficProfile := ⟨"HTTP/2 API", [200, 500, 1000, 1500], [5, 10, 15]⟩

/-- The loop shared by `GetPacketSize` and `GetDelay`: the entry at the position the draw
    stops at, the last entry on the fall-through, and a panic on indexing `[-1]` when there is
    no entry. -/
def weightedPick {α : Type} (entries : List α) (pick : Nat) : Except GoError α :=
  match entries.getLast? with
  | none => .error (.panic "runtime error: index out of range [-1]")
  | some last => .ok (entries.getD pick last)

/-- `TrafficProfile.GetPacketSize`. -/
def TrafficProfile.getPacketSize (p : TrafficProfile) (pick : Nat) : Except GoError Nat :=
  weightedPick p.packetSizes pick

/-- `TrafficProfile.GetDelay`. -/
def TrafficProfile.getDelay (p : TrafficProfile) (pick : Nat) : Except GoError Nat :=
  weightedPick p.delays pick

theorem weightedPick_mem {α : Type} {entries : List α} {pick : Nat} {a : α}
    (h : weightedPick entries pick = .ok a) : a ∈ entries := by
  unfold weightedPick at h
  split at h
  · cases h
  · rename_i last hl
    cases h
    rw [List.getD_eq_getElem?_getD]
    cases hp : entries[pick]? with
    | none => exact List.mem_of_getLast?_eq_some hl
    | some x => exact List.getElem?_mem hp

/-- With at least one entry, the loop returns an entry. -/
theorem weightedPick_ok {α : Type} {entries : List α} (h : entries ≠ []) (pick : Nat) :
    ∃ a, weightedPick entries pick = .ok a := by
  unfold weightedPick
  cases hl : entries.getLast? with
  | none => exact absurd (List.getLast?_eq_none_iff.1 hl) h
  | some last => exact ⟨_, rfl⟩

/-- `AddPadding`: the first `targetSize` bytes, or the data followed by random bytes. -/
def addPadding (data : Bytes) (targetSize : Nat) (noise : Nat → UInt8) : Bytes :=
  if targetSize ≤ data.length then data.take targetSize
  else data ++ (List.range (targetSize - data.length)).map noise

theorem addPadding_of_le {data : Bytes} {targetSize : Nat} (h : data.length ≤ targetSize)
    (noise : Nat → UInt8) :
    addPadding data targetSize noise = data ++ (List.range (targetSize - data.length)).map noise := by
  unfold addPadding
  split_ifs with h'
  · rw [List.take_of_length_le h, show targetSize - data.length = 0 by omega, List.range_zero,
      List.map_nil, List.append_nil]
  · rfl

@[simp] theorem length_addPadding (data : Bytes) (targetSize : Nat) (noise : Nat → UInt8) :
    (addPadding data targetSize noise).length = targetSize := by
  unfold addPadding
  split_ifs with h
  · exact List.length_take_of_le h
  · simp only [List.length_append, List.length_map, List.length_range]; omega

/-- `GetProfileByName`: unknown names and the empty name give the HTTP/2 API profile. -/
def getProfileByName (name : String) : TrafficProfile :=
  if name = "youtube" then youTubeProfile
  else if name = "zoom" then zoomProfile
  else http2APIProfile

/-- `MorphingConfig`; a nil `*MorphingConfig` is a disabled one. -/
structure MorphingConfig where
  enabled : Bool
  profile : Option TrafficProfile

/-- `NewMorphingConfig`. -/
def newMorphingConfig (enabled : Bool) (profileName : String) : MorphingConfig :=
  ⟨enabled, if enabled then some (getProfileByName profileName) else none⟩

/-- What one level of `WriteFrameWithMorphing` draws from `math/rand`. -/
structure Draw where
  /-- The position `GetPacketSize` stops at. -/
  size : Nat
  /-- The position `GetDelay` stops at. -/
  delay : Nat
  /-- The bytes `rand.Read` gives `AddPadding`. -/
  noise : Nat → UInt8

variable (A : Aead) {W : Type} (write : W → Bytes → W × Option GoError)

/-- The recursion of `WriteFrameWithMorphing` with an enabled config of profile `p` (the config
    is the same at every level), followed for the levels `draws` allows: the encoder and writer
    then, and the error the call returned (`some`), or `none` if it goes on. -/
def FrameEncoder.morphWith (p : TrafficProfile) :
    FrameEncoder → W → Frame → List Draw → FrameEncoder × W × Option (Option GoError)
  | e, w, _, [] => (e, w, none)
  | e, w, f, d :: ds =>
    match p.getPacketSize d.size with
    | .error err => (e, w, some (some err))
    | .ok targetSize =>
      if targetSize < f.payload.length then
        match e.writeFrame A write w ⟨f.type, f.payload.take targetSize⟩ with
        | (e', w', some err) => (e', w', some (some err))
        | (e', w', none) =>
          match p.getDelay d.delay with
          | .error err => (e', w', some (some err))
          | .ok _ => morphWith p e' w' ⟨f.type, f.payload.drop targetSize⟩ ds
      else
        match e.writeFrame A write w ⟨f.type, addPadding f.payload targetSize d.noise⟩ with
        | (e', w', some err) => (e', w', some (some err))
        | (e', w', none) =>
          match p.getDelay d.delay with
          | .error err => (e', w', some (some err))
          | .ok _ => (e', w', some none)

section Steps

variable {A write} {p : TrafficProfile} {e : FrameEncoder} {w : W} {f : Frame} {d : Draw}
  {ds : List Draw} {s : Nat}

/-- A level that splits: once its write went through and a delay was drawn, the rest of the
    payload goes to the next level. -/
theorem morphWith_split (hs : p.getPacketSize d.size = .ok s) (hlt : s < f.payload.length)
    (hw : (e.writeFrame A write w ⟨f.type, f.payload.take s⟩).2.2 = none) (hd : p.delays ≠ []) :
    e.morphWith A write p w f (d :: ds) =
      (e.writeFrame A write w ⟨f.type, f.payload.take s⟩).1.morphWith A write p
        (e.writeFrame A write w ⟨f.type, f.payload.take s⟩).2.1 ⟨f.type, f.payload.drop s⟩ ds := by
  obtain ⟨_, hdelay⟩ := weightedPick_ok hd d.delay
  rw [FrameEncoder.morphWith, hs]
  dsimp only
  rw [if_pos hlt]
  rcases h : e.writeFrame A write w ⟨f.type, f.payload.take s⟩ with ⟨e', w', _ | err⟩
  · rw [TrafficProfile.getDelay, hdelay]
  · rw [h] at hw; cases hw

/-- The level that pads: its write went through and a delay was drawn, so the call returns
    `nil`. -/
theorem morphWith_pad (hs : p.getPacketSize d.size = .ok s) (hle : f.payload.length ≤ s)
    (hw : (e.writeFrame A write w ⟨f.type, addPadding f.payload s d.noise⟩).2.2 = none)
    (hd : p.delays ≠ []) :
    e.morphWith A write p w f (d :: ds) =
      ((e.writeFrame A write w ⟨f.type, addPadding f.payload s d.noise⟩).1,
        (e.writeFrame A write w ⟨f.type, addPadding f.payload s d.noise⟩).2.1, some none) := by
  obtain ⟨_, hdelay⟩ := weightedPick_ok hd d.delay
  rw [FrameEncoder.morphWith, hs]
  dsimp only
  rw [if_neg (Nat.not_lt.2 hle)]
  rcases h : e.writeFrame A write w ⟨f.type, addPadding f.payload s d.noise⟩ with ⟨e', w', _ | err⟩
  · rw [TrafficProfile.getDelay, hdelay]
  · rw [h] at hw; cases hw

end Steps

/-- `FrameEncoder.WriteFrameWithMorphing`: without an enabled config and a profile, a plain
    `WriteFrame`. -/
def FrameEncoder.writeFrameWithMorphing (cfg : MorphingConfig) (e : FrameEncoder) (w : W)
    (f : Frame) (draws : List Draw) : FrameEncoder × W × Option (Option GoError) :=
  match cfg.enabled, cfg.profile with
  | true, some p => e.morphWith A write p w f draws
  | _, _ =>
    ((e.writeFrame A write w f).1, (e.writeFrame A write w f).2.1,
      some (e.writeFrame A write w f).2.2)

end Reflex
