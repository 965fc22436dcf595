import Mathlib.Algebra.Order.Ring.Nat
import Reflex.Relay

/-!
# The frames of `WriteFrameWithMorphing`

What one call of `WriteFrameWithMorphing` writes, level after level of its recursion, and what
a relay that reads those frames writes to its link.

* `morphWith_sampled_frames`: from a profile whose sizes are all at least some `m > 0` and whose
  delays are not empty, on a writer that does not fail, the call returns `nil` after at most
  `|P| / m + 1` frames of the frame's type, written in order: the payload `P` cut at the sums
  of the sizes drawn, the last piece padded to the size drawn for it;
* `morphWith_no_delays`: from a profile without delays, `GetDelay` panics after the first frame;
* `relayFrames_morphed_padding`: the padding is not taken off again, since a frame does not say
  how much of it is data: a relay in step with the encoder writes it to its link with the data.
-/

namespace Reflex

/-- The pieces `P[s₀ + … + sⱼ₋₁ .. s₀ + … + sⱼ]` of a payload `P` cut at the sums of the sizes
    `s₀, s₁, …`. -/
def payloadChunks (sizes : List Nat) (payload : Bytes) : List Bytes :=
  (List.range sizes.length).map fun j => (payload.drop (sizes.take j).sum).take (sizes.getD j 0)

theorem payloadChunks_cons (s : Nat) (sizes : List Nat) (payload : Bytes) :
    payloadChunks (s :: sizes) payload = payload.take s :: payloadChunks sizes (payload.drop s) := by
  simp only [payloadChunks, List.length_cons, List.range_succ_eq_map, List.map_cons, List.map_map]
  congr 1
  refine List.map_congr_left fun j _ => ?_
  simp only [Function.comp, List.take_succ_cons, List.sum_cons, List.getD_cons_succ,
    List.drop_drop]

theorem drop_sum_cons (payload : Bytes) (s : Nat) (sizes : List Nat) :
    payload.drop (s :: sizes).sum = (payload.drop s).drop sizes.sum := by
  rw [List.sum_cons, List.drop_drop]

/-- A split leaves fewer than `|P| / m` further levels to go: it writes at least `m` bytes. -/
theorem div_sub_add_one_le {n m s : Nat} (hm : 0 < m) (hms : m ≤ s) (hlt : s < n) :
    (n - s) / m + 1 ≤ n / m := by
  rw [Nat.le_div_iff_mul_le hm, Nat.add_one_mul]
  have := Nat.div_mul_le_self (n - s) m
  omega

variable {A : Aead} {W : Type} {write : W → Bytes → W × Option GoError}

/-- Take a frame of type `t` and payload `P`, a profile whose sizes are all at least `m > 0` and
    whose delays are not empty, and a writer whose `Write` does not fail. Whatever positions the
    draws stop at, as long as there are `|P| / m + 1` of them, `WriteFrameWithMorphing` returns
    `nil` after writing, in order, `k ≤ |P| / m + 1` frames of type `t`, where `s₀, …, sₖ₋₁` are
    the sizes `GetPacketSize` returned: frame `j < k - 1` carries `P[s₀ + … + sⱼ₋₁ .. s₀ + … + sⱼ]`,
    and frame `k - 1` the remaining `r ≤ sₖ₋₁` bytes of `P` followed by `sₖ₋₁ - r` bytes of
    padding, so that every payload written is as long as the size drawn for it. -/
theorem morphWith_sampled_frames {p : TrafficProfile} {m : Nat} (hm : 0 < m)
    (hsizes : ∀ s ∈ p.packetSizes, m ≤ s) (hne : p.packetSizes ≠ []) (hdelays : p.delays ≠ [])
    (hw : ∀ w b, (write w b).2 = none) (draws : List Draw) (e : FrameEncoder) (w : W) (f : Frame)
    (hfuel : f.payload.length / m + 1 ≤ draws.length) :
    ∃ (heads : List Nat) (s : Nat) (pad : Bytes),
      (draws.take (heads.length + 1)).map (fun d => p.getPacketSize d.size) =
        (heads ++ [s]).map .ok ∧
      heads.length + 1 ≤ f.payload.length / m + 1 ∧
      (f.payload.drop heads.sum).length ≤ s ∧
      pad.length = s - (f.payload.drop heads.sum).length ∧
      (payloadChunks heads f.payload ++ [f.payload.drop heads.sum ++ pad]).map List.length =
        heads ++ [s] ∧
      (e.writeFrameWithMorphing A write ⟨true, some p⟩ w f draws).2.2 = some none ∧
      ((e.writeFrameWithMorphing A write ⟨true, some p⟩ w f draws).1,
          (e.writeFrameWithMorphing A write ⟨true, some p⟩ w f draws).2.1) =
        e.run A write w ((payloadChunks heads f.payload ++ [f.payload.drop heads.sum ++ pad]).map
          fun b => .writeFrame ⟨f.type, b⟩) := by
  simp only [FrameEncoder.writeFrameWithMorphing]
  obtain ⟨t, P⟩ := f
  dsimp only at hfuel ⊢
  induction draws generalizing e w P with
  | nil => exact absurd hfuel (by simp)
  | cons d ds ih =>
    obtain ⟨s, hs⟩ : ∃ s, p.getPacketSize d.size = .ok s := weightedPick_ok hne d.size
    have hms : m ≤ s := hsizes s (weightedPick_mem hs)
    by_cases hlt : s < P.length
    · -- a level that splits
      have hdiv := div_sub_add_one_le hm hms hlt
      have hfuel' : (P.drop s).length / m + 1 ≤ ds.length := by
        rw [List.length_drop]; simp only [List.length_cons] at hfuel; omega
      obtain ⟨heads, s', pad, hdraws, hk, hr, hpad, hlen, hret, hrun⟩ := ih
        (e.writeFrame A write w ⟨t, P.take s⟩).1 (e.writeFrame A write w ⟨t, P.take s⟩).2.1
        (P.drop s) hfuel'
      have hstep := @morphWith_split A W write p e w ⟨t, P⟩ d ds s hs hlt (hw _ _) hdelays
      dsimp only at hstep
      refine ⟨s :: heads, s', pad, ?_, ?_, ?_, ?_, ?_, ?_, ?_⟩
      · simp only [List.length_cons, List.take_succ_cons, List.map_cons, hs, hdraws,
          List.cons_append]
      · rw [List.length_drop] at hk; simp only [List.length_cons]; omega
      · rwa [drop_sum_cons]
      · rwa [drop_sum_cons]
      · rw [payloadChunks_cons, drop_sum_cons, List.cons_append, List.map_cons, hlen,
          List.length_take_of_le hlt.le, List.cons_append]
      · rwa [hstep]
      · rw [hstep, hrun, payloadChunks_cons, drop_sum_cons, List.cons_append, List.map_cons]
        rfl
    · -- the level that pads
      have hle : P.length ≤ s := Nat.le_of_not_lt hlt
      have hstep := @morphWith_pad A W write p e w ⟨t, P⟩ d ds s hs hle (hw _ _) hdelays
      dsimp only at hstep
      rw [addPadding_of_le hle] at hstep
      refine ⟨[], s, (List.range (s - P.length)).map d.noise, by simp [hs], by simp, by simpa,
        by simp, ?_, by rw [hstep], by rw [hstep]; rfl⟩
      simp only [payloadChunks, List.length_nil, List.range_zero, List.map_nil, List.nil_append,
        List.sum_nil, List.drop_zero, List.map_cons, List.length_append, List.length_map,
        List.length_range]
      congr 1; omega

/-- "hello" through the Zoom profile, whose smallest size is 500: one frame of 500 bytes. -/
theorem morphWith_zoom_hello :
    let hello := goBytes "hello"
    let draws : List Draw := [⟨0, 0, fun _ => 0⟩]
    let out := FrameEncoder.writeFrameWithMorphing toyAead appendWrite ⟨true, some zoomProfile⟩
      ⟨List.replicate 32 0, 0, []⟩ [] ⟨frameTypeData, hello⟩ draws
    0 < 500 ∧ (∀ s ∈ zoomProfile.packetSizes, 500 ≤ s) ∧ zoomProfile.packetSizes ≠ [] ∧
      zoomProfile.delays ≠ [] ∧ (∀ w b, (appendWrite w b).2 = none) ∧
      hello.length / 500 + 1 ≤ draws.length ∧
      ∃ (heads : List Nat) (s : Nat) (pad : Bytes),
        (draws.take (heads.length + 1)).map (fun d => zoomProfile.getPacketSize d.size) =
          (heads ++ [s]).map .ok ∧
        heads.length + 1 ≤ hello.length / 500 + 1 ∧
        (hello.drop heads.sum).length ≤ s ∧
        pad.length = s - (hello.drop heads.sum).length ∧
        (payloadChunks heads hello ++ [hello.drop heads.sum ++ pad]).map List.length =
          heads ++ [s] ∧
        out.2.2 = some none ∧
        (out.1, out.2.1) = FrameEncoder.run toyAead appendWrite ⟨List.replicate 32 0, 0, []⟩ []
          ((payloadChunks heads hello ++ [hello.drop heads.sum ++ pad]).map
            fun b => .writeFrame ⟨frameTypeData, b⟩) :=
  have hsizes : ∀ s ∈ zoomProfile.packetSizes, 500 ≤ s := by decide
  have hne : zoomProfile.packetSizes ≠ [] := by decide
  have hdelays : zoomProfile.delays ≠ [] := by decide
  have hw : ∀ w b, (appendWrite w b).2 = none := fun _ _ => rfl
  have hfuel : (goBytes "hello").length / 500 + 1 ≤ [Draw.mk 0 0 fun _ => 0].length := by decide
  ⟨by decide, hsizes, hne, hdelays, hw, hfuel,
    morphWith_sampled_frames (by decide) hsizes hne hdelays hw _ _ _ ⟨frameTypeData, _⟩ hfuel⟩

/-- A profile without delays: after the first piece is written, `GetDelay` indexes
    `Delays[len(Delays)-1]`, here `[-1]`, and the call panics with the rest of the payload
    unwritten. -/
theorem morphWith_no_delays :
    FrameEncoder.writeFrameWithMorphing toyAead appendWrite ⟨true, some ⟨"x", [1], []⟩⟩
        ⟨List.replicate 32 0, 0, []⟩ [] ⟨frameTypeData, [1, 2]⟩
        [⟨0, 0, fun _ => 0⟩, ⟨0, 0, fun _ => 0⟩, ⟨0, 0, fun _ => 0⟩] =
      ((FrameEncoder.sealFrame toyAead ⟨List.replicate 32 0, 0, []⟩ ⟨frameTypeData, [1]⟩).1,
        (FrameEncoder.sealFrame toyAead ⟨List.replicate 32 0, 0, []⟩ ⟨frameTypeData, [1]⟩).2,
        some (some (.panic "runtime error: index out of range [-1]"))) := rfl

/-- "hello", morphed with the Zoom profile at the size 500 and whatever padding bytes are drawn,
    is written as one frame of 500 bytes, and the call returns `nil`. A relay in step with the
    encoder reads it back and writes all 500 bytes to its link: "hello" and 495 bytes of padding.
    Written with `WriteFrame`, the same payload reaches the link as the 5 bytes "hello". -/
theorem relayFrames_morphed_padding (noise : Nat → UInt8) :
    (FrameEncoder.writeFrameWithMorphing toyAead appendWrite (newMorphingConfig true "zoom")
        ⟨List.replicate 32 0, 0, []⟩ [] ⟨frameTypeData, goBytes "hello"⟩ [⟨0, 0, noise⟩]).2.2 =
        some none ∧
      (relayFrames toyAead appendWrite 2 ⟨List.replicate 32 0, 0⟩
          ⟨[(FrameEncoder.writeFrameWithMorphing toyAead appendWrite (newMorphingConfig true "zoom")
            ⟨List.replicate 32 0, 0, []⟩ [] ⟨frameTypeData, goBytes "hello"⟩
            [⟨0, 0, noise⟩]).2.1], .eof⟩ []).2.2 =
        (goBytes "hello" ++ (List.range 495).map noise, some (some (.err "EOF"))) ∧
      (relayFrames toyAead appendWrite 2 ⟨List.replicate 32 0, 0⟩
          ⟨[(FrameEncoder.writeFrame toyAead appendWrite ⟨List.replicate 32 0, 0, []⟩ []
            ⟨frameTypeData, goBytes "hello"⟩).2.1], .eof⟩ []).2.2 =
        (goBytes "hello", some (some (.err "EOF"))) := by
  have hle : (goBytes "hello").length ≤ 500 := by decide
  have hmorph := @morphWith_pad toyAead _ appendWrite zoomProfile ⟨List.replicate 32 0, 0, []⟩ []
    ⟨frameTypeData, goBytes "hello"⟩ ⟨0, 0, noise⟩ [] 500 rfl hle rfl (by decide)
  rw [addPadding_of_le hle] at hmorph
  have hrelay : ∀ b : Bytes, b.length ≤ maxDecodablePayload →
      (relayFrames toyAead appendWrite 2 ⟨List.replicate 32 0, 0⟩
        ⟨[(FrameEncoder.writeFrame toyAead appendWrite ⟨List.replicate 32 0, 0, []⟩ []
          ⟨frameTypeData, b⟩).2.1], .eof⟩ []).2.2 = (b, some (some (.err "EOF"))) := by
    intro b hb
    have h := relayFrames_stream toyAead_correct [b] (by simpa using hb) ⟨List.replicate 32 0, 0, []⟩
      ⟨List.replicate 32 0, 0⟩ ⟨[(FrameEncoder.writeFrame toyAead appendWrite
        ⟨List.replicate 32 0, 0, []⟩ [] ⟨frameTypeData, b⟩).2.1], .eof⟩ [] 2 rfl rfl ?_ rfl
      (by simp)
    · rwa [List.nil_append, List.flatten_cons, List.flatten_nil, List.append_nil] at h
    · rw [stream_dataCalls_cons]; rfl
  rw [show FrameEncoder.writeFrameWithMorphing toyAead appendWrite (newMorphingConfig true "zoom")
      ⟨List.replicate 32 0, 0, []⟩ [] ⟨frameTypeData, goBytes "hello"⟩ [⟨0, 0, noise⟩] =
      FrameEncoder.morphWith toyAead appendWrite zoomProfile ⟨List.replicate 32 0, 0, []⟩ []
        ⟨frameTypeData, goBytes "hello"⟩ [⟨0, 0, noise⟩] from rfl, hmorph]
  dsimp only
  refine ⟨rfl, hrelay _ ?_, hrelay _ (by decide)⟩
  simp only [List.length_append, List.length_map, List.length_range, maxDecodablePayload]
  omega

end Reflex
