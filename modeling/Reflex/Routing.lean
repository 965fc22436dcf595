import Mathlib.Data.List.GetD
import Reflex.HttpHead
import Reflex.Inbound

/-!
# Routing a client that is not Reflex

What `Process` does with a client that sends an HTTP request: the request cannot start with the
magic, the peek of 1024 bytes shows its head, `classify` reads the host and path off the head,
and `findFallback` routes by them.

* `take_four_of_isHTTPRequest`, `httpMethods_wf`: the HTTP test passes only on a stream that
  starts with one of the methods it knows, none of which starts a TLS record or the magic;
* `process_routes_http_head`: every HTTP/1.x head of one of those methods, with a `Host` line
  and no longer than the peek, is copied from its first byte to the entry `findFallback` gives
  for the trimmed value of its first `Host` line, the ALPN `http/1.1` and its target, whatever
  follows the head.
-/

namespace Reflex

variable {A : Aead} {X : X25519} {H : Hkdf}

/-- Each method `isHTTPRequest` knows is four bytes, and starts neither a TLS handshake record
    nor the magic. -/
theorem httpMethods_wf :
    ∀ m ∈ ["GET ", "POST", "PUT ", "HEAD", "DELE", "OPTI", "PATC", "TRAC", "CONN"],
      (goBytes m).length = 4 ∧ (goBytes m).getD 0 0 ≠ 0x16 ∧ goBytes m ≠ putBE 4 reflexMagic := by
  decide

/-- A stream that passes the HTTP test starts with one of the methods it knows. -/
theorem take_four_of_isHTTPRequest {d : Bytes} (h : isHTTPRequest d = true) :
    ∃ m ∈ ["GET ", "POST", "PUT ", "HEAD", "DELE", "OPTI", "PATC", "TRAC", "CONN"],
      goBytes m <+: d := by
  unfold isHTTPRequest at h
  split_ifs at h
  obtain ⟨m, hm, hp⟩ := List.any_eq_true.1 h
  exact ⟨m, hm, List.isPrefixOf_iff_prefix.1 hp⟩

theorem isHTTPRequest_append {d : Bytes} (h : isHTTPRequest d = true) (t : Bytes) :
    isHTTPRequest (d ++ t) = true := by
  unfold isHTTPRequest at h ⊢
  split_ifs at h with hl
  rw [if_neg (by simp only [List.length_append]; omega)]
  obtain ⟨m, hm, hp⟩ := List.any_eq_true.1 h
  exact List.any_eq_true.2 ⟨m, hm,
    List.isPrefixOf_iff_prefix.2 ((List.isPrefixOf_iff_prefix.1 hp).trans (d.prefix_append t))⟩

theorem isTLSHandshake_of_isHTTPRequest {d : Bytes} (h : isHTTPRequest d = true) :
    isTLSHandshake d = false := by
  obtain ⟨m, hm, t, rfl⟩ := take_four_of_isHTTPRequest h
  obtain ⟨hl, h16, -⟩ := httpMethods_wf m hm
  unfold isTLSHandshake
  rw [List.getD_append _ _ _ _ (by omega), if_pos h16]
  split_ifs <;> rfl

/-- The magic is the four bytes `RFXL`. -/
theorem take_four_of_hasMagic {d : Bytes} (h : hasMagic d) : d.take 4 = putBE 4 reflexMagic := by
  have hl : (d.take 4).length = 4 := by rw [List.length_take]; exact min_eq_left h.1
  rw [← h.2]
  exact ((congrArg (putBE · (beNat (d.take 4))) hl.symm).trans (putBE_beNat _)).symm

theorem not_hasMagic_of_isHTTPRequest {d : Bytes} (h : isHTTPRequest d = true) :
    ¬ hasMagic d := by
  intro hmagic
  obtain ⟨m, hm, t, rfl⟩ := take_four_of_isHTTPRequest h
  obtain ⟨hl, -, hne⟩ := httpMethods_wf m hm
  exact hne (by rw [← take_four_of_hasMagic hmagic, List.take_left' hl])

/-- For every validator, config and environment, a client that sends an HTTP/1.x head of one of
    the methods `isHTTPRequest` knows, with a `Host` line, no longer than the peek, then any bytes,
    and then closes its side or fills the peek: `Process` copies its stream to a fallback from its
    first byte, so that wherever the copy is cut the back end has got a prefix of the stream, and
    the entry is the one `findFallback` gives for the trimmed value of the head's first `Host`
    line, the ALPN `http/1.1` and the head's target. -/
theorem process_routes_http_head (h : Handler) (env : InboundEnv) (Hd : HttpRequestHead)
    (hm : isHTTPRequest Hd.bytes = true) {v : Bytes} (hv : hostValue Hd.headers = some v)
    (hlen : Hd.bytes.length ≤ 1024) {r : Conn} {rest : Bytes} (hr : r.bytes = Hd.bytes ++ rest)
    (hend : 1024 ≤ r.bytes.length ∨ r.close = .eof) :
    h.process A X H env r =
        .ofFallback (forwardTo h.fallbacks env.dial (r.bytes.take 1024) r.bytes) ∧
      pickFallback h.fallbacks (r.bytes.take 1024) =
        findFallback h.fallbacks (trimSpace v) (goBytes "http/1.1") Hd.target ∧
      ∀ fb dest src, h.process A X H env r = .fallback fb dest src →
        ∀ sent, backendReceives src sent = r.bytes.take sent := by
  have hpeek : r.bytes.take 1024 = Hd.bytes ++ rest.take (1024 - Hd.bytes.length) := by
    rw [hr, List.take_append_eq_append_take, List.take_of_length_le hlen]
  have hhttp := isHTTPRequest_append hm (rest.take (1024 - Hd.bytes.length))
  -- Not the magic, so the fallback, which peeks 1024 bytes.
  have hproc : h.process A X H env r =
      .ofFallback (forwardTo h.fallbacks env.dial (r.bytes.take 1024) r.bytes) := by
    rw [process_not_magic h env
      (hr ▸ not_hasMagic_of_isHTTPRequest (isHTTPRequest_append hm rest))
      (hend.imp_left fun h1024 => by omega), handleFallback_eq]
    split_ifs with h1024 heof
    · rfl
    · rw [List.take_of_length_le (by omega)]
    · exact absurd (hend.resolve_left h1024) heof
  refine ⟨hproc, ?_, fun fb dest src hp sent => ?_⟩
  · -- The peek shows the whole head: its host and target; the default entry adds nothing.
    have hclass : classify (r.bytes.take 1024) = (trimSpace v, goBytes "http/1.1", Hd.target) := by
      rw [hpeek, classify, isTLSHandshake_of_isHTTPRequest hhttp, if_neg Bool.false_ne_true,
        if_pos hhttp, extractHTTPHost_head, hv, extractHTTPPath_head]
    rw [pickFallback, hclass]
    exact Option.orElse_eq_left (findFallback_eq_none_of_wider (.inr rfl) (.inr rfl) (.inr rfl))
  · -- The copy reads the stream from its first byte.
    obtain ⟨rfl, -⟩ := forwardTo_eq_ok (ofFallback_eq_fallback (hproc ▸ hp))
    rfl

/-- The head `GET / HTTP/1.1` with the one header line `Host: a`. -/
def getWithHost : HttpRequestHead where
  method := goBytes "GET"
  target := goBytes "/"
  version := goBytes "HTTP/1.1"
  headers := [(goBytes "Host", goBytes " a")]
  method_token := by decide
  target_no_space := by decide
  requestLine_noCRLF := by decide
  headers_wf := by decide

/-- `GET / HTTP/1.1` with `Host: a`, from a client that then closes its side, goes to the entry
    for the host `a`, the ALPN `http/1.1` and the path `/`. -/
theorem process_routes_get_with_host :
    isHTTPRequest getWithHost.bytes = true ∧ hostValue getWithHost.headers = some (goBytes " a") ∧
    getWithHost.bytes.length ≤ 1024 ∧
    (Handler.mk newValidator
        (some [⟨goBytes "a", goBytes "http/1.1", goBytes "/", goBytes "80"⟩])).process
        toyAead toyX25519 toyHkdf ⟨1000, ⟨List.replicate 32 2, rfl⟩, fun _ => none, none⟩
        ⟨[getWithHost.bytes], .eof⟩ =
      .ofFallback (forwardTo (some [⟨goBytes "a", goBytes "http/1.1", goBytes "/", goBytes "80"⟩])
        (fun _ => none) (getWithHost.bytes.take 1024) getWithHost.bytes) ∧
    pickFallback (some [⟨goBytes "a", goBytes "http/1.1", goBytes "/", goBytes "80"⟩])
        (getWithHost.bytes.take 1024) =
      findFallback (some [⟨goBytes "a", goBytes "http/1.1", goBytes "/", goBytes "80"⟩])
        (trimSpace (goBytes " a")) (goBytes "http/1.1") getWithHost.target ∧
    ∀ fb dest src, (Handler.mk newValidator
        (some [⟨goBytes "a", goBytes "http/1.1", goBytes "/", goBytes "80"⟩])).process
        toyAead toyX25519 toyHkdf ⟨1000, ⟨List.replicate 32 2, rfl⟩, fun _ => none, none⟩
        ⟨[getWithHost.bytes], .eof⟩ = .fallback fb dest src →
      ∀ sent, backendReceives src sent = getWithHost.bytes.take sent :=
  ⟨by decide, rfl, by decide,
    process_routes_http_head _ _ getWithHost (by decide) rfl (by decide) rfl (.inr rfl)⟩

end Reflex
