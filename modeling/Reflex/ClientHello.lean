import Reflex.Fallback

/-!
# `extractSNI` on a ClientHello

`extractSNI` walks a TLS ClientHello by offsets. A ClientHello is laid out here field by field
(`ClientHello.bytes`): 43 bytes of record header, handshake header, client version and random;
the session ID, the cipher suites and the compression methods, each behind its length; then the
extensions behind their total length, each a 2-byte type, a 2-byte length and a body. What
`extractSNI` reads is any prefix of such a ClientHello and of whatever follows it.

* `extractSNI_clientHello_eq`: past the fixed part, `extractSNI` reaches its extension loop at
  the first extension exactly when the input holds everything before it;
* `sniLoop_skip`, `sniLoop_hit`: one turn of the loop steps over an extension of another type,
  or returns the first host name of a server-name extension the input holds whole;
* `extractSNI_of_clientHello`: so `extractSNI` returns the first host name of the first
  extension of type `0` once the input holds that extension, and the empty name when no
  extension has type `0`;
* `extractSNI_cut_in_extension`: an input that ends with the host name but not with its
  extension gives the empty name.
-/

namespace Reflex

/-- A TLS extension: a 2-byte type, and a body behind its 2-byte length. -/
structure TlsExtension where
  type : Nat
  body : Bytes
  type_lt : type < 2 ^ 16
  body_lt : body.length < 2 ^ 16

/-- The bytes of an extension. -/
def TlsExtension.bytes (x : TlsExtension) : Bytes :=
  putBE 2 x.type ++ putBE 2 x.body.length ++ x.body

/-- The bytes of a list of extensions, one after the other. -/
def extensionsBytes (xs : List TlsExtension) : Bytes := (xs.map TlsExtension.bytes).flatten

/-- A ClientHello, field by field. -/
structure ClientHello where
  /-- The record header (5 bytes), the handshake header (4), the client version (2) and the
      random (32). -/
  head : FixedBytes 43
  sessionID : Bytes
  cipherSuites : Bytes
  compressionMethods : Bytes
  extensions : List TlsExtension
  sessionID_lt : sessionID.length < 256
  cipherSuites_lt : cipherSuites.length < 2 ^ 16
  compressionMethods_lt : compressionMethods.length < 256
  extensions_lt : (extensionsBytes extensions).length < 2 ^ 16

/-- The offset of the first extension. -/
def ClientHello.extensionsStart (ch : ClientHello) : Nat :=
  43 + 1 + ch.sessionID.length + 2 + ch.cipherSuites.length + 1 + ch.compressionMethods.length + 2

/-- The bytes of a ClientHello. -/
def ClientHello.bytes (ch : ClientHello) : Bytes :=
  ch.head.bytes ++ putBE 1 ch.sessionID.length ++ ch.sessionID ++
    putBE 2 ch.cipherSuites.length ++ ch.cipherSuites ++
    putBE 1 ch.compressionMethods.length ++ ch.compressionMethods ++
    putBE 2 (extensionsBytes ch.extensions).length ++ extensionsBytes ch.extensions

/-! ## Reading a prefix of a ClientHello -/

theorem putBE_two_append (v : Nat) (t : Bytes) :
    putBE 2 v ++ t = UInt8.ofNat (v / 256) :: UInt8.ofNat v :: t := rfl

/-- A read at `p` of a prefix of `X` that reaches past `p` sees the byte of `X` there. -/
theorem getD_take_of_drop {X t : Bytes} {n p : Nat} {b : UInt8} (hX : X.drop p = b :: t)
    (hn : p < n) : (X.take n).getD p 0 = b := by
  have h := congrArg (·[0]?) hX
  simp only [List.getElem?_drop, Nat.add_zero, List.getElem?_cons_zero] at h
  simp [List.getElem?_take, hn, h]

theorem toNat_getD_take_of_drop {X t : Bytes} {n p v : Nat} (hX : X.drop p = putBE 1 v ++ t)
    (hv : v < 256) (hn : p < n) : ((X.take n).getD p 0).toNat = v := by
  rw [getD_take_of_drop hX hn, UInt8.toNat_ofNat, Nat.mod_eq_of_lt hv]

theorem be16At_take_of_drop {X t : Bytes} {n p v : Nat} (hX : X.drop p = putBE 2 v ++ t)
    (hv : v < 2 ^ 16) (hn : p + 2 ≤ n) : be16At (X.take n) p = v := by
  rw [putBE_two_append] at hX
  have h1 : X.drop (p + 1) = UInt8.ofNat v :: t := by rw [← List.drop_drop, hX]; rfl
  rw [be16At, getD_take_of_drop hX (by omega), getD_take_of_drop h1 (by omega),
    UInt8.toNat_ofNat, UInt8.toNat_ofNat]
  omega

/-- The cursor moves past a field. -/
theorem drop_add_of_drop {X a b : Bytes} {p i : Nat} (h : X.drop p = a ++ b) (ha : a.length = i) :
    X.drop (p + i) = b := by
  rw [← List.drop_drop, h, List.drop_left' ha]

theorem ClientHello.drop_head (ch : ClientHello) (rest : Bytes) :
    (ch.bytes ++ rest).drop 43 =
      putBE 1 ch.sessionID.length ++ (ch.sessionID ++ (putBE 2 ch.cipherSuites.length ++
        (ch.cipherSuites ++ (putBE 1 ch.compressionMethods.length ++ (ch.compressionMethods ++
          (putBE 2 (extensionsBytes ch.extensions).length ++
            (extensionsBytes ch.extensions ++ rest))))))) := by
  simp only [ClientHello.bytes, List.append_assoc]
  exact List.drop_left' ch.head.length_bytes

theorem ClientHello.drop_extensionsStart (ch : ClientHello) (rest : Bytes) :
    (ch.bytes ++ rest).drop ch.extensionsStart = extensionsBytes ch.extensions ++ rest := by
  rw [ClientHello.bytes, List.append_assoc]
  exact List.drop_left' (by simp [ch.head.length_bytes, ClientHello.extensionsStart]; omega)

theorem ClientHello.length_bytes (ch : ClientHello) :
    ch.bytes.length = ch.extensionsStart + (extensionsBytes ch.extensions).length := by
  simp [ClientHello.bytes, ClientHello.extensionsStart, ch.head.length_bytes]; omega

/-- The prefix of `extractSNI`: its four reads before the extensions see the lengths of the
    fields, and it goes on to the loop exactly when the input reaches the first extension. -/
theorem extractSNI_clientHello_eq (ch : ClientHello) (rest : Bytes) (n : Nat) :
    extractSNI ((ch.bytes ++ rest).take n) =
      if ch.extensionsStart ≤ n then
        sniLoop ((ch.bytes ++ rest).take n)
          (ch.extensionsStart + (extensionsBytes ch.extensions).length)
          ((ch.bytes ++ rest).take n).length ch.extensionsStart
      else [] := by
  have d0 := ch.drop_head rest
  have d2 := drop_add_of_drop (drop_add_of_drop d0 (length_putBE 1 _)) rfl
  have d4 := drop_add_of_drop (drop_add_of_drop d2 (length_putBE 2 _)) rfl
  have d6 := drop_add_of_drop (drop_add_of_drop d4 (length_putBE 1 _)) rfl
  have hL : ((ch.bytes ++ rest).take n).length =
      min n (ch.extensionsStart + (extensionsBytes ch.extensions).length + rest.length) := by
    rw [List.length_take, List.length_append, ch.length_bytes]
  simp only [extractSNI, ClientHello.extensionsStart] at hL ⊢
  set L := ((ch.bytes ++ rest).take n).length
  set s := ch.sessionID.length
  set c := ch.cipherSuites.length
  set k := ch.compressionMethods.length
  by_cases h0 : 43 < L
  swap
  · rw [if_neg (by omega : ¬ 43 + 1 + s + 2 + c + 1 + k + 2 ≤ n)]
    by_cases hl : L < 43
    · rw [if_pos hl]
    · rw [if_neg hl, if_pos (by omega : 43 ≥ L)]
  rw [if_neg (by omega : ¬ L < 43), if_neg (by omega : ¬ 43 ≥ L),
    toNat_getD_take_of_drop d0 ch.sessionID_lt (by omega)]
  by_cases h1 : 43 + 1 + s + 2 ≤ L
  swap
  · rw [if_pos (by omega : 43 + 1 + s + 2 > L), if_neg (by omega)]
  rw [if_neg (by omega : ¬ 43 + 1 + s + 2 > L), be16At_take_of_drop d2 ch.cipherSuites_lt (by omega)]
  by_cases h2 : 43 + 1 + s + 2 + c + 1 ≤ L
  swap
  · rw [if_pos (by omega : 43 + 1 + s + 2 + c + 1 > L), if_neg (by omega)]
  rw [if_neg (by omega : ¬ 43 + 1 + s + 2 + c + 1 > L),
    toNat_getD_take_of_drop d4 ch.compressionMethods_lt (by omega)]
  by_cases h3 : 43 + 1 + s + 2 + c + 1 + k + 2 ≤ L
  swap
  · rw [if_pos (by omega : 43 + 1 + s + 2 + c + 1 + k + 2 > L), if_neg (by omega)]
  rw [if_neg (by omega : ¬ 43 + 1 + s + 2 + c + 1 + k + 2 > L), if_pos (by omega),
    be16At_take_of_drop d6 ch.extensions_lt (by omega)]

/-! ## The extension loop -/

theorem TlsExtension.bytes_append (x : TlsExtension) (t : Bytes) :
    x.bytes ++ t = putBE 2 x.type ++ (putBE 2 x.body.length ++ (x.body ++ t)) := by
  simp only [TlsExtension.bytes, List.append_assoc]

@[simp] theorem TlsExtension.length_bytes (x : TlsExtension) : x.bytes.length = 4 + x.body.length := by
  simp only [TlsExtension.bytes, List.length_append, length_putBE]

theorem extensionsBytes_cons (x : TlsExtension) (xs : List TlsExtension) :
    extensionsBytes (x :: xs) = x.bytes ++ extensionsBytes xs := rfl

theorem extensionsBytes_append (xs ys : List TlsExtension) :
    extensionsBytes (xs ++ ys) = extensionsBytes xs ++ extensionsBytes ys := by
  simp only [extensionsBytes, List.map_append, List.flatten_append]

theorem four_mul_length_le (xs : List TlsExtension) : 4 * xs.length ≤ (extensionsBytes xs).length := by
  induction xs with
  | nil => simp [extensionsBytes]
  | cons x xs ih => rw [extensionsBytes_cons, List.length_append, x.length_bytes]; simp; omega

section Loop

variable {X T : Bytes} {n endPos fuel p : Nat} {x : TlsExtension}

/-- One turn of the loop over an extension of another type than `0`: the cursor moves past it. -/
theorem sniLoop_skip (hX : X.drop p = x.bytes ++ T) (hx : x.type ≠ 0) (hend : p + 4 ≤ endPos)
    (hn : p + 4 ≤ (X.take n).length) :
    sniLoop (X.take n) endPos (fuel + 1) p = sniLoop (X.take n) endPos fuel (p + x.bytes.length) := by
  rw [TlsExtension.bytes_append] at hX
  have hn' : p + 4 ≤ n := by rw [List.length_take] at hn; omega
  rw [sniLoop, if_pos ⟨hend, hn⟩, be16At_take_of_drop hX x.type_lt (by omega), if_neg hx,
    be16At_take_of_drop (drop_add_of_drop hX (length_putBE 2 _)) x.body_lt (by omega),
    x.length_bytes, Nat.add_assoc]

/-- The turn over the first extension of type `0`, held whole by the input: the first host name
    of its server-name list. -/
theorem sniLoop_hit {L : Nat} {h more : Bytes} (hX : X.drop p = x.bytes ++ T) (hx : x.type = 0)
    (hbody : x.body = putBE 2 L ++ [0] ++ putBE 2 h.length ++ h ++ more)
    (hend : p + 4 ≤ endPos) (hn : p + 4 + x.body.length ≤ (X.take n).length) :
    sniLoop (X.take n) endPos (fuel + 1) p = h := by
  have hlen : x.body.length = 5 + h.length + more.length := by
    rw [hbody]; simp only [List.length_append, length_putBE, List.length_singleton]
  have hh : h.length < 2 ^ 16 := by have := x.body_lt; omega
  have hn' : p + 4 + x.body.length ≤ n := by rw [List.length_take] at hn; omega
  rw [TlsExtension.bytes_append] at hX
  have h2 := drop_add_of_drop hX (length_putBE 2 _)
  have h4 := drop_add_of_drop h2 (length_putBE 2 _)
  rw [hbody] at h4
  simp only [List.append_assoc, List.singleton_append] at h4
  have h6 : X.drop (p + 6) = 0 :: (putBE 2 h.length ++ (h ++ (more ++ T))) :=
    drop_add_of_drop (p := p + 4) h4 (length_putBE 2 _)
  have h7 : X.drop (p + 7) = putBE 2 h.length ++ (h ++ (more ++ T)) :=
    drop_add_of_drop (p := p + 6) (a := [0]) h6 rfl
  have h9 : X.drop (p + 9) = h ++ (more ++ T) := drop_add_of_drop (p := p + 7) h7 (length_putBE 2 _)
  rw [sniLoop, if_pos ⟨hend, by omega⟩, be16At_take_of_drop hX x.type_lt (by omega), if_pos hx,
    be16At_take_of_drop h2 x.body_lt (by omega), getD_take_of_drop h6 (by omega),
    be16At_take_of_drop h7 hh (by omega)]
  simp only [ne_eq, not_true_eq_false, or_false]
  rw [if_neg (by omega : ¬ p + 4 + x.body.length > (X.take n).length),
    if_neg (by omega : ¬ p + 6 > (X.take n).length), if_neg (by omega : ¬ p + 6 ≥ (X.take n).length),
    if_neg (by omega : ¬ p + 9 > (X.take n).length),
    if_neg (by omega : ¬ p + 9 + h.length > (X.take n).length), List.take_take,
    Nat.min_eq_left (by omega), List.drop_take, h9, Nat.add_sub_cancel_left, List.take_left]

/-- The loop steps over extensions of other types than `0`, one turn each. -/
theorem sniLoop_skips : ∀ (pre : List TlsExtension) (p : Nat), (∀ y ∈ pre, y.type ≠ 0) →
    X.drop p = extensionsBytes pre ++ T → p + (extensionsBytes pre).length + 4 ≤ endPos →
    p + (extensionsBytes pre).length + 4 ≤ (X.take n).length →
    sniLoop (X.take n) endPos (fuel + pre.length) p =
      sniLoop (X.take n) endPos fuel (p + (extensionsBytes pre).length)
  | [], _, _, _, _, _ => rfl
  | y :: ys, p, hy, hX, hend, hn => by
    rw [extensionsBytes_cons, List.append_assoc] at hX
    rw [extensionsBytes_cons, List.length_append] at hend hn ⊢
    have hy4 := y.length_bytes
    rw [List.length_cons, ← Nat.add_assoc, sniLoop_skip hX (hy y (List.mem_cons_self _ _))
      (by omega) (by omega), sniLoop_skips ys _ (fun z hz => hy z (List.mem_cons_of_mem _ hz))
      (drop_add_of_drop hX rfl) (by omega) (by omega), Nat.add_assoc]

/-- With no extension of type `0`, the loop returns the empty name, whatever its fuel. -/
theorem sniLoop_none : ∀ (xs : List TlsExtension) (fuel p : Nat), (∀ y ∈ xs, y.type ≠ 0) →
    X.drop p = extensionsBytes xs ++ T → endPos = p + (extensionsBytes xs).length →
    sniLoop (X.take n) endPos fuel p = []
  | _, 0, _, _, _, _ => rfl
  | xs, fuel + 1, p, hy, hX, hend => by
    by_cases hc : p + 4 ≤ endPos ∧ p + 4 ≤ (X.take n).length
    swap; · rw [sniLoop, if_neg hc]
    cases xs with
    | nil => simp [extensionsBytes] at hend; omega
    | cons y ys =>
      rw [extensionsBytes_cons, List.append_assoc] at hX
      rw [sniLoop_skip hX (hy y (List.mem_cons_self _ _)) hc.1 hc.2]
      exact sniLoop_none ys fuel _ (fun z hz => hy z (List.mem_cons_of_mem _ hz))
        (drop_add_of_drop hX rfl) (by rw [hend, extensionsBytes_cons, List.length_append, Nat.add_assoc])

end Loop

/-! ## The server name -/

/-- Take a ClientHello laid out field by field, whatever bytes follow it, and the first `n` of
    them. If the first extension of type `0` holds a server-name list whose first entry has name
    type `0` and host name `h`, and the input holds that whole extension, `extractSNI` returns
    `h`. If no extension has type `0`, it returns the empty name, however short the input. -/
theorem extractSNI_of_clientHello (ch : ClientHello) (rest : Bytes) (n : Nat) :
    (∀ (pre : List TlsExtension) (x : TlsExtension) (post : List TlsExtension) (L : Nat)
        (h more : Bytes),
      ch.extensions = pre ++ x :: post → (∀ y ∈ pre, y.type ≠ 0) → x.type = 0 →
      x.body = putBE 2 L ++ [0] ++ putBE 2 h.length ++ h ++ more →
      ch.extensionsStart + (extensionsBytes pre).length + 4 + x.body.length ≤ n →
      extractSNI ((ch.bytes ++ rest).take n) = h) ∧
    ((∀ x ∈ ch.extensions, x.type ≠ 0) → extractSNI ((ch.bytes ++ rest).take n) = []) := by
  have hX := ch.drop_extensionsStart rest
  have hL : ((ch.bytes ++ rest).take n).length =
      min n (ch.extensionsStart + (extensionsBytes ch.extensions).length + rest.length) := by
    rw [List.length_take, List.length_append, ch.length_bytes]
  refine ⟨fun pre x post L h more hexts hpre hx hbody hn => ?_, fun hnone => ?_⟩
  · have hE : (extensionsBytes ch.extensions).length =
        (extensionsBytes pre).length + (4 + x.body.length + (extensionsBytes post).length) := by
      rw [hexts, extensionsBytes_append, extensionsBytes_cons, List.length_append,
        List.length_append, x.length_bytes]
    rw [hexts, extensionsBytes_append, extensionsBytes_cons, List.append_assoc,
      List.append_assoc] at hX
    have h4 := four_mul_length_le pre
    obtain ⟨fuel, hfuel⟩ : ∃ fuel, ((ch.bytes ++ rest).take n).length = fuel + 1 + pre.length :=
      ⟨((ch.bytes ++ rest).take n).length - 1 - pre.length, by omega⟩
    rw [extractSNI_clientHello_eq, if_pos (by omega), hfuel,
      sniLoop_skips pre _ hpre hX (by omega) (by omega)]
    exact sniLoop_hit (drop_add_of_drop hX rfl) hx hbody (by omega) (by omega)
  · rw [extractSNI_clientHello_eq]
    split_ifs
    · exact sniLoop_none _ _ _ hnone hX rfl
    · rfl

/-- A server-name list whose first entry, "a", is followed by one more byte, and an input that
    ends right after "a": `extractSNI` checks that the input holds the whole extension first,
    and returns the empty name. -/
theorem extractSNI_cut_in_extension :
    ∃ (ch : ClientHello) (x : TlsExtension), ch.extensions = [] ++ x :: [] ∧ x.type = 0 ∧
      x.body = putBE 2 4 ++ [0] ++ putBE 2 (goBytes "a").length ++ goBytes "a" ++ [0] ∧
      ch.extensionsStart + 4 + 5 + (goBytes "a").length ≤ 59 ∧
      extractSNI ((ch.bytes ++ []).take 59) = [] :=
  ⟨⟨⟨List.replicate 43 0, rfl⟩, [], [], [],
      [⟨0, putBE 2 4 ++ [0] ++ putBE 2 1 ++ [97] ++ [0], by decide, by decide⟩],
      by decide, by decide, by decide, by decide⟩,
    ⟨0, putBE 2 4 ++ [0] ++ putBE 2 1 ++ [97] ++ [0], by decide, by decide⟩,
    rfl, rfl, rfl, by decide, by decide⟩

end Reflex
