import Reflex.Fallback

/-!
# Index bounds of the classifiers

The classifiers of `inbound/conn.go` as Go runs them: every `data[i]` and `data[lo:hi]` checks its
bounds and panics out of range (`goIndex`, `slice`), and so does `bytes.HasPrefix`, which slices
its first argument (`hasPrefixChecked`). The model of `Reflex.Fallback` reads with `getD`, `take`
and `drop`, which never fail; here each checked run is shown to be `.ok` of it, so no access of
the Go code falls outside the bytes it reads.

The extension loop of `extractSNI` has no fuel here (`sniLoopChecked`): it is well founded, since
each turn moves the cursor by at least 4 and no turn starts unless 4 bytes remain before the end
of the data and of the declared extension list.

* `isTLSHandshakeChecked_eq`, `isHTTPRequestChecked_eq`, `extractHTTPHostChecked_eq`,
  `extractHTTPPathChecked_eq`: the classifiers and the HTTP extractors never index out of range;
* `sniLoopChecked_eq`: with fuel for a turn per 4 bytes left, the fuelled loop of the model is the
  loop of the code, so `extractSNIChecked_eq`: `extractSNI` never indexes out of range either;
* `classifiers_in_bounds`: all of it, with the exit and the step of the extension loop.
-/

namespace Reflex

/-- `xs[i]`: Go panics unless `i < len(xs)`. -/
def goIndex {α : Type} (xs : List α) (i : Nat) : Except GoError α :=
  if h : i < xs.length then .ok xs[i]
  else .error (.panic ("runtime error: index out of range [" ++ toString i ++ "] with length "
    ++ toString xs.length))

/-- `bytes.HasPrefix(s, prefix)`: `len(s) >= len(prefix) && Equal(s[0:len(prefix)], prefix)`. -/
def hasPrefixChecked (s pre : Bytes) : Except GoError Bool :=
  if s.length ≥ pre.length then do return (← slice s 0 pre.length) == pre
  else return false

/-- `isHTTPRequest`, with the checks of `bytes.HasPrefix`. -/
def isHTTPRequestChecked (data : Bytes) : Except GoError Bool :=
  if data.length < 4 then return false
  else ["GET ", "POST", "PUT ", "HEAD", "DELE", "OPTI", "PATC", "TRAC", "CONN"].anyM
    fun method => hasPrefixChecked data (goBytes method)

/-- `isTLSHandshake`, with Go's index checks. -/
def isTLSHandshakeChecked (data : Bytes) : Except GoError Bool := do
  if data.length < 5 then return false
  if (← goIndex data 0) ≠ 0x16 then return false
  if (← goIndex data 1) < 0x03 then return false
  if (← goIndex data 2) < 0x00 then return false
  return true

/-- `int(data[pos])<<8 | int(data[pos+1])`, with Go's index checks. -/
def be16AtChecked (data : Bytes) (pos : Nat) : Except GoError Nat := do
  let hi ← goIndex data pos
  let lo ← goIndex data (pos + 1)
  return hi.toNat * 256 + lo.toNat

/-- The extension loop of `extractSNI`, with Go's index checks, from the cursor `pos` on. -/
def sniLoopChecked (data : Bytes) (endPos pos : Nat) : Except GoError Bytes :=
  if h : pos + 4 ≤ endPos ∧ pos + 4 ≤ data.length then do
    let extType ← be16AtChecked data pos
    let extLen ← be16AtChecked data (pos + 2)
    if extType = 0 then
      let pos := pos + 4
      if pos + extLen > data.length then return []
      if pos + 2 > data.length then return []
      let pos := pos + 2
      if pos ≥ data.length then return []
      if (← goIndex data pos) ≠ 0x00 then return []
      let pos := pos + 1
      if pos + 2 > data.length then return []
      let sniLen ← be16AtChecked data pos
      let pos := pos + 2
      if pos + sniLen > data.length then return []
      slice data pos (pos + sniLen)
    else sniLoopChecked data endPos (pos + 4 + extLen)
  else return []
termination_by data.length - pos

/-- `extractSNI`, with Go's index checks. -/
def extractSNIChecked (data : Bytes) : Except GoError Bytes := do
  if data.length < 43 then return []
  let pos := 43
  if pos ≥ data.length then return []
  let sessionIDLen := (← goIndex data pos).toNat
  let pos := pos + 1 + sessionIDLen
  if pos + 2 > data.length then return []
  let cipherSuitesLen ← be16AtChecked data pos
  let pos := pos + 2 + cipherSuitesLen
  if pos + 1 > data.length then return []
  let compressionMethodsLen := (← goIndex data pos).toNat
  let pos := pos + 1 + compressionMethodsLen
  if pos + 2 > data.length then return []
  let extensionsLen ← be16AtChecked data pos
  let pos := pos + 2
  sniLoopChecked data (pos + extensionsLen) pos

/-- `extractHTTPHost`, with the checks of `bytes.HasPrefix` and of `line[5:]`. -/
def extractHTTPHostChecked (data : Bytes) : Except GoError Bytes := do
  match ← (splitCRLF data).findM? fun line =>
      hasPrefixChecked (line.map asciiLower) (goBytes "host:") with
  | some line => return trimSpace (← slice line 5 line.length)
  | none => return []

/-- `bytes.SplitN(s, sep, n)` for a one-byte separator: at most `n` parts, the last of them the
    rest of `s`. (Go first caps `n` at `len(s) + 1`, which never binds: there are never more
    parts than separators plus one.) -/
def splitN (sep : UInt8) : Nat → Bytes → List Bytes
  | 0, _ => []
  | 1, s => [s]
  | n + 2, s =>
    if sep ∈ s then s.takeWhile (· ≠ sep) :: splitN sep (n + 1) ((s.dropWhile (· ≠ sep)).drop 1)
    else [s]

/-- `extractHTTPPath`, with the check of `parts[1]`. -/
def extractHTTPPathChecked (data : Bytes) : Except GoError Bytes :=
  let parts := splitN 32 3 data
  if parts.length ≥ 2 then goIndex parts 1 else return goBytes "/"

/-! ## Accesses in range -/

theorem goIndex_of_lt {α : Type} {xs : List α} {i : Nat} (h : i < xs.length) (d : α) :
    goIndex xs i = pure (xs.getD i d) := by
  rw [goIndex, dif_pos h, List.getD_eq_getElem?_getD, List.getElem?_eq_getElem h]
  rfl

theorem be16AtChecked_of_lt {data : Bytes} {pos : Nat} (h : pos + 1 < data.length) :
    be16AtChecked data pos = pure (be16At data pos) := by
  rw [be16AtChecked, goIndex_of_lt (by omega) 0, goIndex_of_lt h 0]
  rfl

theorem hasPrefixChecked_eq (s pre : Bytes) : hasPrefixChecked s pre = pure (pre.isPrefixOf s) := by
  rw [hasPrefixChecked]
  split_ifs with h
  · rw [slice_of_le (Nat.zero_le _) h, List.drop_zero]
    show (pure (s.take pre.length == pre) : Except GoError Bool) = _
    congr 1
    rw [Bool.eq_iff_iff, beq_iff_eq, List.isPrefixOf_iff_prefix, List.prefix_iff_eq_take]
    exact eq_comm
  · rw [Bool.eq_false_iff.2 fun hp => h (List.isPrefixOf_iff_prefix.1 hp).length_le]

theorem anyM_pure {α : Type} {f : α → Except GoError Bool} {g : α → Bool}
    (h : ∀ a, f a = pure (g a)) : ∀ l : List α, l.anyM f = pure (l.any g)
  | [] => rfl
  | a :: l => by
    rw [List.anyM, h a, pure_bind, List.any_cons]
    cases g a
    · exact anyM_pure h l
    · rfl

theorem findM?_pure {α : Type} {p : α → Except GoError Bool} {q : α → Bool}
    (h : ∀ a, p a = pure (q a)) : ∀ l : List α, l.findM? p = pure (l.find? q)
  | [] => rfl
  | a :: l => by
    rw [List.findM?, h a, pure_bind, List.find?_cons]
    cases q a
    · exact findM?_pure h l
    · rfl

/-- A guard that returns early: the checked run and the model agree on both sides. -/
theorem ite_pure_ok {α : Type} {c : Prop} [Decidable c] {a y : α} {x : Except GoError α}
    (h : ¬ c → x = .ok y) : (if c then pure a else x) = .ok (if c then a else y) := by
  split_ifs with hc
  · rfl
  · exact h hc

/-! ## The classifiers -/

theorem isHTTPRequestChecked_eq (data : Bytes) :
    isHTTPRequestChecked data = .ok (isHTTPRequest data) := by
  rw [isHTTPRequestChecked, isHTTPRequest]
  split_ifs
  · rfl
  · exact anyM_pure (fun _ => hasPrefixChecked_eq _ _) _

theorem isTLSHandshakeChecked_eq (data : Bytes) :
    isTLSHandshakeChecked data = .ok (isTLSHandshake data) := by
  rw [isTLSHandshakeChecked, isTLSHandshake]
  refine ite_pure_ok fun h => ?_
  rw [goIndex_of_lt (by omega) 0, pure_bind]
  refine ite_pure_ok fun _ => ?_
  rw [goIndex_of_lt (by omega) 0, pure_bind]
  refine ite_pure_ok fun _ => ?_
  rw [goIndex_of_lt (by omega) 0]
  simp only [pure_bind]
  exact ite_pure_ok fun _ => rfl

/-- The loop exits once 4 bytes no longer remain before the end of the data or of the declared
    extension list. -/
theorem sniLoopChecked_exit {data : Bytes} {endPos pos : Nat}
    (h : ¬ (pos + 4 ≤ endPos ∧ pos + 4 ≤ data.length)) : sniLoopChecked data endPos pos = .ok [] := by
  rw [sniLoopChecked, dif_neg h]
  rfl

/-- A turn over an extension other than the SNI one moves the cursor past it: by its 4 header
    bytes and its declared length. -/
theorem sniLoopChecked_step {data : Bytes} {endPos pos : Nat}
    (h : pos + 4 ≤ endPos ∧ pos + 4 ≤ data.length) (ht : be16At data pos ≠ 0) :
    sniLoopChecked data endPos pos =
      sniLoopChecked data endPos (pos + 4 + be16At data (pos + 2)) := by
  rw [sniLoopChecked, dif_pos h, be16AtChecked_of_lt (by omega), be16AtChecked_of_lt (by omega)]
  simp only [pure_bind]
  rw [if_neg ht]

/-- With fuel for a turn per 4 bytes left, the fuelled loop of the model is the loop of the code,
    and it indexes nothing out of range. -/
theorem sniLoopChecked_eq (data : Bytes) (endPos : Nat) :
    ∀ fuel pos, data.length < pos + 4 * fuel →
      sniLoopChecked data endPos pos = .ok (sniLoop data endPos fuel pos)
  | 0, pos, h => by rw [sniLoopChecked_exit (by omega)]; rfl
  | fuel + 1, pos, h => by
    rw [sniLoop]
    by_cases hc : pos + 4 ≤ endPos ∧ pos + 4 ≤ data.length
    · rw [if_pos hc]
      by_cases ht : be16At data pos = 0
      · rw [if_pos ht, sniLoopChecked, dif_pos hc, be16AtChecked_of_lt (by omega),
          be16AtChecked_of_lt (by omega)]
        simp only [pure_bind]
        rw [if_pos ht]
        refine ite_pure_ok fun h1 => ite_pure_ok fun h2 => ?_
        by_cases h3 : pos + 6 ≥ data.length
        · rw [if_pos h3, if_pos (Or.inl h3)]; rfl
        rw [if_neg h3, goIndex_of_lt (by omega) 0, pure_bind]
        simp only [h3, false_or]
        refine ite_pure_ok fun h4 => ite_pure_ok fun h5 => ?_
        rw [be16AtChecked_of_lt (by omega), pure_bind]
        exact ite_pure_ok fun h6 => slice_of_le (by omega) (by omega)
      · rw [if_neg ht, sniLoopChecked_step hc ht]
        exact sniLoopChecked_eq data endPos fuel _ (by omega)
    · rw [if_neg hc, sniLoopChecked_exit hc]

theorem extractSNIChecked_eq (data : Bytes) : extractSNIChecked data = .ok (extractSNI data) := by
  rw [extractSNIChecked, extractSNI]
  refine ite_pure_ok fun h1 => ite_pure_ok fun h2 => ?_
  rw [goIndex_of_lt (by omega) 0, pure_bind]
  refine ite_pure_ok fun h3 => ?_
  rw [be16AtChecked_of_lt (by omega), pure_bind]
  refine ite_pure_ok fun h4 => ?_
  rw [goIndex_of_lt (by omega) 0, pure_bind]
  refine ite_pure_ok fun h5 => ?_
  rw [be16AtChecked_of_lt (by omega), pure_bind]
  exact sniLoopChecked_eq data _ _ _ (by omega)

/-! ## The HTTP extractors -/

theorem extractHTTPHostChecked_eq (data : Bytes) :
    extractHTTPHostChecked data = .ok (extractHTTPHost data) := by
  rw [extractHTTPHostChecked, findM?_pure (fun _ => hasPrefixChecked_eq _ _), pure_bind,
    extractHTTPHost]
  cases hf : (splitCRLF data).find? fun line => (goBytes "host:").isPrefixOf (line.map asciiLower)
    with
  | none => rfl
  | some line =>
    have hp := List.find?_some hf
    simp only at hp
    have hlen : 5 ≤ line.length := by simpa using (List.isPrefixOf_iff_prefix.1 hp).length_le
    dsimp only
    rw [slice_of_le hlen le_rfl, List.take_length]
    rfl

/-- The first part `bytes.SplitN` cuts, when it may cut two or more, is the bytes up to the first
    separator. -/
theorem splitN_head (sep : UInt8) (n : Nat) (s : Bytes) :
    ∃ tl, splitN sep (n + 2) s = s.takeWhile (· ≠ sep) :: tl := by
  rw [splitN]
  split_ifs with h
  · exact ⟨_, rfl⟩
  · refine ⟨[], ?_⟩
    rw [List.takeWhile_eq_self_iff.2 fun x hx => decide_eq_true (ne_of_mem_of_not_mem hx h)]

theorem extractHTTPPathChecked_eq (data : Bytes) :
    extractHTTPPathChecked data = .ok (extractHTTPPath data) := by
  rw [extractHTTPPathChecked, extractHTTPPath]
  by_cases h : 32 ∈ data
  · obtain ⟨tl, htl⟩ := splitN_head 32 0 ((data.dropWhile (· ≠ 32)).drop 1)
    rw [if_pos h, splitN, if_pos h, htl, if_pos (by simp), goIndex_of_lt (by simp) []]
    rfl
  · rw [if_neg h, splitN, if_neg h, if_neg (by simp)]
    rfl

/-- For every byte string, the classifiers and the extractors of the fallback index only inside
    it (the checked runs are `.ok` of the model), and the extension loop of `extractSNI` exits
    once 4 bytes no longer remain before the end of the data or of the extension list, and
    otherwise moves its cursor by 4 and the declared length of the extension it skips. -/
theorem classifiers_in_bounds (data : Bytes) :
    isTLSHandshakeChecked data = .ok (isTLSHandshake data) ∧
    isHTTPRequestChecked data = .ok (isHTTPRequest data) ∧
    extractSNIChecked data = .ok (extractSNI data) ∧
    extractHTTPHostChecked data = .ok (extractHTTPHost data) ∧
    extractHTTPPathChecked data = .ok (extractHTTPPath data) ∧
    ∀ endPos pos,
      (¬ (pos + 4 ≤ endPos ∧ pos + 4 ≤ data.length) → sniLoopChecked data endPos pos = .ok []) ∧
      (pos + 4 ≤ endPos ∧ pos + 4 ≤ data.length → be16At data pos ≠ 0 →
        sniLoopChecked data endPos pos =
          sniLoopChecked data endPos (pos + 4 + be16At data (pos + 2))) :=
  ⟨isTLSHandshakeChecked_eq data, isHTTPRequestChecked_eq data, extractSNIChecked_eq data,
    extractHTTPHostChecked_eq data, extractHTTPPathChecked_eq data,
    fun _ _ => ⟨sniLoopChecked_exit, sniLoopChecked_step⟩⟩

end Reflex
