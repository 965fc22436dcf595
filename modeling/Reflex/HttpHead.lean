import Mathlib.Data.List.Infix
import Reflex.Fallback

/-!
# HTTP request heads

What `extractHTTPHost` and `extractHTTPPath` read off the peek of an HTTP connection: an HTTP/1.x
request head (`HttpRequestHead`: the request line `METHOD SP target SP version`, the header lines
`name ":" value`, each line ended by CRLF, then an empty line), and whatever bytes follow it in
the peek, a body or a next request.

* `splitCRLF_line_append`: a line with no CRLF in it, then CRLF, is the first line
  `bytes.Split` cuts, so `extractHTTPHost` reads a line at a time (`extractHTTPHost_line_append`);
* `extractHTTPPath_head`: the path is the request target, whatever follows the head;
* `extractHTTPHost_head`: the host is the trimmed value of the first header line named `host` in
  any case; when the head has none, it is what `extractHTTPHost` reads off the bytes after the
  head;
* `extractHTTPHost_reads_body`: so a `POST` head with no `Host` line, followed by the body
  `Host: a`, gives the host `a`.
-/

namespace Reflex

/-- The bytes hold no CRLF. -/
def NoCRLF (s : Bytes) : Prop := ¬ [13, 10] <:+: s

instance (s : Bytes) : Decidable (NoCRLF s) := inferInstanceAs (Decidable (¬ _))

/-- The request line `METHOD SP target SP version`. -/
def requestLine (method target version : Bytes) : Bytes := method ++ 32 :: (target ++ 32 :: version)

/-- The header line `name ":" value`. -/
def headerLine (h : Bytes × Bytes) : Bytes := h.1 ++ 58 :: h.2

/-- An HTTP/1.x request head. The method and the header names are tokens, so hold no space and
    no colon; the target holds no space; no line holds a CRLF. -/
structure HttpRequestHead where
  method : Bytes
  target : Bytes
  version : Bytes
  headers : List (Bytes × Bytes)
  method_token : 32 ∉ method ∧ 58 ∉ method
  target_no_space : 32 ∉ target
  requestLine_noCRLF : NoCRLF (requestLine method target version)
  headers_wf : ∀ h ∈ headers, 58 ∉ h.1 ∧ NoCRLF (headerLine h)

/-- The header lines, each followed by CRLF, then the empty line. -/
def headerBytes : List (Bytes × Bytes) → Bytes
  | [] => [13, 10]
  | h :: hs => headerLine h ++ 13 :: 10 :: headerBytes hs

/-- The bytes of a head. -/
def HttpRequestHead.bytes (H : HttpRequestHead) : Bytes :=
  requestLine H.method H.target H.version ++ 13 :: 10 :: headerBytes H.headers

/-- The value of the first header line named `host` in any case. -/
def hostValue : List (Bytes × Bytes) → Option Bytes
  | [] => none
  | h :: hs => if h.1.map asciiLower = goBytes "host" then some h.2 else hostValue hs

/-! ## Lines -/

/-- A line with no CRLF in it, then CRLF, is the first line of the split. -/
theorem splitCRLF_line_append {line : Bytes} (h : NoCRLF line) (rest : Bytes) :
    splitCRLF (line ++ 13 :: 10 :: rest) = line :: splitCRLF rest := by
  induction line with
  | nil => rfl
  | cons b line ih =>
    have hb : ∀ t, b = 13 → line ++ 13 :: 10 :: rest = 10 :: t → False := by
      intro t hb ht
      cases line with
      | nil => exact absurd (List.cons.inj ht).1 (by decide)
      | cons c line =>
        obtain rfl : c = 10 := (List.cons.inj ht).1
        exact h ⟨[], line, by rw [hb]; rfl⟩
    rw [List.cons_append, splitCRLF.eq_3 _ _ hb, ih fun hi => h (List.infix_cons hi)]

/-- The test `extractHTTPHost` makes of each line: it starts with `host:` in any case. -/
def isHostLine (line : Bytes) : Bool := (goBytes "host:").isPrefixOf (line.map asciiLower)

theorem extractHTTPHost_eq (data : Bytes) :
    extractHTTPHost data = match (splitCRLF data).find? isHostLine with
      | some line => trimSpace (line.drop 5)
      | none => [] := rfl

/-- `extractHTTPHost` reads a line at a time. -/
theorem extractHTTPHost_line_append {line : Bytes} (h : NoCRLF line) (rest : Bytes) :
    extractHTTPHost (line ++ 13 :: 10 :: rest) =
      if isHostLine line then trimSpace (line.drop 5) else extractHTTPHost rest := by
  rw [extractHTTPHost_eq, extractHTTPHost_eq rest, splitCRLF_line_append h]
  by_cases hl : isHostLine line
  · rw [List.find?_cons_of_pos _ hl, if_pos hl]
  · rw [List.find?_cons_of_neg _ hl, if_neg hl]

/-! ## Which lines start with `host:` -/

/-- A prefix ending in `s` of a list with `t` after its first part `N`: it fits only if its own
    first part is `N` and `s = t`. -/
theorem append_singleton_prefix_iff {α : Type} {s t : α} {p N V : List α} (hs : s ∉ N)
    (ht : t ∉ p) : p ++ [s] <+: N ++ t :: V ↔ p = N ∧ s = t := by
  induction p generalizing N with
  | nil =>
    cases N with
    | nil => simp [List.cons_prefix_cons]
    | cons y N =>
      simpa [List.cons_prefix_cons] using fun h : s = y => hs (h ▸ List.mem_cons_self _ _)
  | cons x p ih =>
    cases N with
    | nil =>
      simpa [List.cons_prefix_cons] using fun (h : x = t) _ => ht (h ▸ List.mem_cons_self _ _)
    | cons y N =>
      simp only [List.cons_append, List.cons_prefix_cons, List.cons.injEq,
        ih (List.not_mem_of_not_mem_cons hs) (List.not_mem_of_not_mem_cons ht), and_assoc]

theorem asciiLower_eq_colon {b : UInt8} (h : asciiLower b = 58) : b = 58 := by
  unfold asciiLower at h
  split_ifs at h with hb
  · obtain ⟨h1, h2⟩ := hb
    rw [UInt8.le_def, UInt8.toBitVec_ofNat] at h1 h2
    have := congrArg UInt8.toBitVec h
    rw [UInt8.add_def, UInt8.toBitVec_ofNat, UInt8.toBitVec_ofNat] at this
    exfalso
    bv_omega
  · exact h

theorem colon_not_mem_map_asciiLower {n : Bytes} (h : 58 ∉ n) : 58 ∉ n.map asciiLower := by
  simp only [List.mem_map, not_exists, not_and]
  exact fun b hb hl => h (asciiLower_eq_colon hl ▸ hb)

theorem goBytes_host_colon : goBytes "host:" = goBytes "host" ++ [58] := rfl

/-- A header line starts with `host:` exactly when its name is `host` in any case. -/
theorem isHostLine_headerLine {h : Bytes × Bytes} (hn : 58 ∉ h.1) :
    isHostLine (headerLine h) ↔ h.1.map asciiLower = goBytes "host" := by
  rw [isHostLine, headerLine, List.map_append, List.map_cons, List.isPrefixOf_iff_prefix,
    goBytes_host_colon, append_singleton_prefix_iff (colon_not_mem_map_asciiLower hn) (by decide)]
  exact ⟨fun h => h.1.symm, fun h => ⟨h.symm, rfl⟩⟩

/-- A request line never starts with `host:`: its method holds no colon, and a space follows it. -/
theorem isHostLine_requestLine {method : Bytes} (hm : 58 ∉ method) (target version : Bytes) :
    isHostLine (requestLine method target version) = false := by
  rw [Bool.eq_false_iff, ne_eq, isHostLine, requestLine, List.map_append, List.map_cons,
    List.isPrefixOf_iff_prefix, goBytes_host_colon,
    append_singleton_prefix_iff (colon_not_mem_map_asciiLower hm) (by decide)]
  exact fun h => absurd h.2 (by decide)

/-! ## Host and path of a head -/

/-- Over the header lines, the host is the value of the first line named `host`, or else what
    follows the empty line gives. -/
theorem extractHTTPHost_headerBytes (hs : List (Bytes × Bytes))
    (hwf : ∀ h ∈ hs, 58 ∉ h.1 ∧ NoCRLF (headerLine h)) (rest : Bytes) :
    extractHTTPHost (headerBytes hs ++ rest) = match hostValue hs with
      | some v => trimSpace v
      | none => extractHTTPHost rest := by
  induction hs with
  | nil => exact @extractHTTPHost_line_append [] (by decide) rest
  | cons h hs ih =>
    obtain ⟨hn, hl⟩ := hwf h (List.mem_cons_self _ _)
    rw [headerBytes, List.append_assoc, List.cons_append, List.cons_append,
      extractHTTPHost_line_append hl, ih fun h' hh => hwf h' (List.mem_cons_of_mem _ hh), hostValue]
    by_cases hhost : h.1.map asciiLower = goBytes "host"
    · have hlen : h.1.length = 4 := by simpa using congrArg List.length hhost
      rw [if_pos ((isHostLine_headerLine hn).2 hhost), if_pos hhost, headerLine,
        List.drop_append_eq_append_drop, List.drop_eq_nil_of_le (by omega), hlen]
      rfl
    · rw [if_neg (mt (isHostLine_headerLine hn).1 hhost), if_neg hhost]

/-- The host read off a head and what follows it: the trimmed value of the head's first header
    line named `host` in any case; when the head has none, what the bytes after it give. -/
theorem extractHTTPHost_head (H : HttpRequestHead) (rest : Bytes) :
    extractHTTPHost (H.bytes ++ rest) = match hostValue H.headers with
      | some v => trimSpace v
      | none => extractHTTPHost rest := by
  rw [HttpRequestHead.bytes, List.append_assoc, List.cons_append, List.cons_append,
    extractHTTPHost_line_append H.requestLine_noCRLF, isHostLine_requestLine H.method_token.2,
    if_neg Bool.false_ne_true, extractHTTPHost_headerBytes _ H.headers_wf]

/-- A method and a target with no space in them: the path is the target. -/
theorem extractHTTPPath_requestLine {method target : Bytes} (hm : 32 ∉ method)
    (ht : 32 ∉ target) (rest : Bytes) :
    extractHTTPPath (method ++ 32 :: (target ++ 32 :: rest)) = target := by
  have hne : ∀ s : Bytes, 32 ∉ s → ∀ a ∈ s, decide (a ≠ 32) = true :=
    fun s hs a ha => decide_eq_true fun h => hs (h ▸ ha)
  rw [extractHTTPPath, if_pos (List.mem_append_right _ (List.mem_cons_self _ _)),
    List.dropWhile_append_of_pos (hne _ hm), List.dropWhile_cons_of_neg (by simp), List.drop_one,
    List.tail_cons, List.takeWhile_append_of_pos (hne _ ht), List.takeWhile_cons_of_neg (by simp),
    List.append_nil]

/-- The path read off a head and what follows it is the request target. -/
theorem extractHTTPPath_head (H : HttpRequestHead) (rest : Bytes) :
    extractHTTPPath (H.bytes ++ rest) = H.target := by
  rw [HttpRequestHead.bytes, requestLine]
  simp only [List.append_assoc, List.cons_append]
  exact extractHTTPPath_requestLine H.method_token.1 H.target_no_space _

/-- The head `POST / HTTP/1.0` with the one header line `Content-Length: 7`, and no `Host`. -/
def postNoHost : HttpRequestHead where
  method := goBytes "POST"
  target := goBytes "/"
  version := goBytes "HTTP/1.0"
  headers := [(goBytes "Content-Length", goBytes " 7")]
  method_token := by decide
  target_no_space := by decide
  requestLine_noCRLF := by decide
  headers_wf := by decide

/-- The head `postNoHost` has no header line named `host`, yet followed by the body `Host: a` it
    gives the host `a`: `extractHTTPHost` reads past the empty line that ends the head. -/
theorem extractHTTPHost_reads_body :
    hostValue postNoHost.headers = none ∧
      extractHTTPHost (postNoHost.bytes ++ goBytes "Host: a") = goBytes "a" := by
  refine ⟨by decide, ?_⟩
  rw [extractHTTPHost_head]
  decide

end Reflex
