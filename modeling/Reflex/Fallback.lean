import Reflex.Bytes

/-!
# The fallback

`inbound/conn.go`, and the fallback table `New` builds. A connection that is not Reflex is
classified by a peeked prefix of up to 1024 bytes (a TLS ClientHello by its SNI, an HTTP
request by its `Host` header and path, anything else by nothing), the table gives an entry for
the name, ALPN and path, and the connection is copied to the entry's destination, from the
reader's position on, while the back end's replies go to the client. The call returns when
either copy ends and closes the back end, so the back end gets a prefix of those bytes
(`backendReceives`).

Go strings are byte strings here. `bytes.ToLower` is taken on ASCII (no other character lowers
to one of `host:`), and `bytes.TrimSpace` trims the UTF-8 encodings of the white space runes.

* `trimSpace_trimmed`: what `trimSpace` leaves neither starts nor ends with a white space rune;
* `handleFallback_eq`: what `handleFallback` does when its peek ends: its copy reads every byte
  the reader still holds, classified by their first 1024;
* `findFallback_first_stored`: `findFallback` returns the entry stored under the first of its
  eight keys that the config has, and the default lookup of `handleFallback` adds nothing;
* `pickFallback_eq_some`: the entry picked is one of the config's, under one of the keys of the
  peeked prefix;
* `fallback_cascades_first_lookup`: `handleTLSFallback` and `handleHTTPFallback` (which nothing
  in the package calls) try more lookups after their first, but never get another entry from
  them: the later keys are among the first lookup's.
-/

namespace Reflex

/-- `Fallback`, with the fields the code reads. -/
structure Fallback where
  name : Bytes
  alpn : Bytes
  path : Bytes
  dest : Bytes
  deriving DecidableEq, Repr

/-! ## Classification -/

/-- `isHTTPRequest`. -/
def isHTTPRequest (data : Bytes) : Bool :=
  if data.length < 4 then false
  else ["GET ", "POST", "PUT ", "HEAD", "DELE", "OPTI", "PATC", "TRAC", "CONN"].any
    fun method => (goBytes method).isPrefixOf data

/-- `isTLSHandshake`. -/
def isTLSHandshake (data : Bytes) : Bool :=
  if data.length < 5 then false
  else if data.getD 0 0 ≠ 0x16 then false
  else if data.getD 1 0 < 0x03 then false
  else if data.getD 2 0 < 0x00 then false
  else true

/-- `int(data[pos])<<8 | int(data[pos+1])`. -/
def be16At (data : Bytes) (pos : Nat) : Nat :=
  (data.getD pos 0).toNat * 256 + (data.getD (pos + 1) 0).toNat

/-- The extension loop of `extractSNI` from the cursor `pos`, for at most `fuel` iterations;
    each one moves the cursor on by at least 4 within the data, so `len(data)` of them are
    enough. -/
def sniLoop (data : Bytes) (endPos : Nat) : Nat → Nat → Bytes
  | 0, _ => []
  | fuel + 1, pos =>
    if pos + 4 ≤ endPos ∧ pos + 4 ≤ data.length then
      if be16At data pos = 0 then
        if pos + 4 + be16At data (pos + 2) > data.length then []
        else if pos + 6 > data.length then []
        else if pos + 6 ≥ data.length ∨ data.getD (pos + 6) 0 ≠ 0x00 then []
        else if pos + 9 > data.length then []
        else if pos + 9 + be16At data (pos + 7) > data.length then []
        else (data.take (pos + 9 + be16At data (pos + 7))).drop (pos + 9)
      else sniLoop data endPos fuel (pos + 4 + be16At data (pos + 2))
    else []

/-- `extractSNI`: past the fixed part of a ClientHello, skip the session ID, the cipher suites
    and the compression methods, then look for the extension of type 0. -/
def extractSNI (data : Bytes) : Bytes :=
  if data.length < 43 then []
  else if 43 ≥ data.length then []
  else
    let pos := 43 + 1 + (data.getD 43 0).toNat
    if pos + 2 > data.length then []
    else
      let pos := pos + 2 + be16At data pos
      if pos + 1 > data.length then []
      else
        let pos := pos + 1 + (data.getD pos 0).toNat
        if pos + 2 > data.length then []
        else sniLoop data (pos + 2 + be16At data pos) data.length (pos + 2)

/-- `extractALPN`, which returns the empty string. -/
def extractALPN (_data : Bytes) : Bytes := []

/-- `bytes.Split(data, "\r\n")`. -/
def splitCRLF : Bytes → List Bytes
  | [] => [[]]
  | 13 :: 10 :: rest => [] :: splitCRLF rest
  | b :: rest =>
    match splitCRLF rest with
    | line :: lines => (b :: line) :: lines
    | [] => [[b]]

/-- A byte lowered as an ASCII letter. -/
def asciiLower (b : UInt8) : UInt8 := if 65 ≤ b ∧ b ≤ 90 then b + 32 else b

/-- The runes `unicode.IsSpace` holds of, in UTF-8: tab, line feed, vertical tab, form feed,
    carriage return and space, then U+0085, U+00A0, U+1680, U+2000 to U+200A, U+2028, U+2029,
    U+202F, U+205F and U+3000. -/
def spaceRunes : List Bytes :=
  [[9], [10], [11], [12], [13], [32], [0xC2, 0x85], [0xC2, 0xA0], [0xE1, 0x9A, 0x80],
    [0xE2, 0x80, 0x80], [0xE2, 0x80, 0x81], [0xE2, 0x80, 0x82], [0xE2, 0x80, 0x83],
    [0xE2, 0x80, 0x84], [0xE2, 0x80, 0x85], [0xE2, 0x80, 0x86], [0xE2, 0x80, 0x87],
    [0xE2, 0x80, 0x88], [0xE2, 0x80, 0x89], [0xE2, 0x80, 0x8A], [0xE2, 0x80, 0xA8],
    [0xE2, 0x80, 0xA9], [0xE2, 0x80, 0xAF], [0xE2, 0x81, 0x9F], [0xE3, 0x80, 0x80]]

/-- While `s` starts with one of `runes`, drop it; at most `fuel` times. -/
def dropRunes (runes : List Bytes) : Nat → Bytes → Bytes
  | 0, s => s
  | fuel + 1, s =>
    match runes.find? (·.isPrefixOf s) with
    | some r => dropRunes runes fuel (s.drop r.length)
    | none => s

/-- `bytes.TrimSpace`, that is `TrimRightFunc(TrimLeftFunc(s, unicode.IsSpace), unicode.IsSpace)`
    (its ASCII fast path gives the same): the white space runes at the front as
    `utf8.DecodeRune` reads them, then those at the back as `utf8.DecodeLastRune` reads them. A
    rune is white space exactly when its UTF-8 encoding stands at that end; bytes that are not
    valid UTF-8 decode to `RuneError`, which is not. Every rune has a byte at least, so
    `s.length` of them are enough (`dropRunes_stops`). -/
def trimSpace (s : Bytes) : Bytes :=
  let front := dropRunes spaceRunes s.length s
  (dropRunes (spaceRunes.map List.reverse) front.length front.reverse).reverse

/-- With a byte of fuel per byte, `dropRunes` stops only where no rune is left at the front. -/
theorem dropRunes_stops {runes : List Bytes} (hne : ∀ r ∈ runes, r ≠ []) :
    ∀ (fuel : Nat) (s : Bytes), s.length ≤ fuel →
      runes.find? (·.isPrefixOf (dropRunes runes fuel s)) = none
  | 0, s, h => by
    rw [List.length_eq_zero.1 (Nat.le_zero.1 h), dropRunes]
    refine List.find?_eq_none.2 fun r hr => ?_
    obtain ⟨b, r, rfl⟩ := List.exists_cons_of_ne_nil (hne _ hr)
    exact Bool.false_ne_true
  | fuel + 1, s, h => by
    unfold dropRunes
    cases hf : runes.find? (·.isPrefixOf s) with
    | none => exact hf
    | some r =>
      have hp : r.isPrefixOf s = true := List.find?_some (p := fun x : Bytes => x.isPrefixOf s) hf
      have hlen := (List.isPrefixOf_iff_prefix.1 hp).length_le
      have hpos := List.length_pos.2 (hne r (List.mem_of_find?_eq_some hf))
      exact dropRunes_stops hne fuel _ (by rw [List.length_drop]; omega)

/-- `dropRunes` only cuts the front. -/
theorem dropRunes_suffix (runes : List Bytes) :
    ∀ (fuel : Nat) (s : Bytes), dropRunes runes fuel s <:+ s
  | 0, s => List.suffix_refl s
  | fuel + 1, s => by
    unfold dropRunes
    split
    · exact (dropRunes_suffix runes fuel _).trans (List.drop_suffix _ _)
    · exact List.suffix_refl s

/-- What `trimSpace` leaves neither starts nor ends with the UTF-8 encoding of a white space
    rune. -/
theorem trimSpace_trimmed (s : Bytes) :
    ∀ r ∈ spaceRunes, ¬ r <+: trimSpace s ∧ ¬ r <:+ trimSpace s := by
  intro r hr
  have hne : ∀ r ∈ spaceRunes, r ≠ [] := by decide
  have hne' : ∀ r ∈ spaceRunes.map List.reverse, r ≠ [] := by decide
  -- No rune is left at the front of what the first pass leaves, nor at the back of what the
  -- second leaves, and the second only cuts the back.
  have hfront := List.find?_eq_none.1 (dropRunes_stops hne s.length s le_rfl)
  set front := dropRunes spaceRunes s.length s
  have hback := List.find?_eq_none.1
    (dropRunes_stops hne' front.length front.reverse (List.length_reverse _).le)
  have hcut := List.reverse_prefix.2 (dropRunes_suffix (spaceRunes.map List.reverse)
    front.length front.reverse)
  rw [List.reverse_reverse] at hcut
  refine ⟨fun hp => hfront r hr (List.isPrefixOf_iff_prefix.2 (hp.trans hcut)), fun hs => ?_⟩
  refine hback r.reverse (List.mem_map_of_mem _ hr) (List.isPrefixOf_iff_prefix.2 ?_)
  simpa only [trimSpace, List.reverse_reverse] using List.reverse_prefix.2 hs

example : trimSpace ([0xC2, 0xA0] ++ goBytes "a" ++ [0xE3, 0x80, 0x80]) = goBytes "a" := by
  decide

/-- `extractHTTPHost`: the first line that starts with `host:` in any case. -/
def extractHTTPHost (data : Bytes) : Bytes :=
  match (splitCRLF data).find? fun line => (goBytes "host:").isPrefixOf (line.map asciiLower) with
  | some line => trimSpace (line.drop 5)
  | none => []

/-- `extractHTTPPath`: the second part of `bytes.SplitN(data, " ", 3)`, or `/`. -/
def extractHTTPPath (data : Bytes) : Bytes :=
  if 32 ∈ data then ((data.dropWhile (· ≠ 32)).drop 1).takeWhile (· ≠ 32) else goBytes "/"

/-- The name, ALPN and path `handleFallback` picks its entry by. -/
def classify (peeked : Bytes) : Bytes × Bytes × Bytes :=
  if isTLSHandshake peeked then
    (extractSNI peeked,
      if extractALPN peeked = [] then goBytes "tls" else extractALPN peeked, [])
  else if isHTTPRequest peeked then
    (extractHTTPHost peeked, goBytes "http/1.1", extractHTTPPath peeked)
  else ([], [], [])

/-! ## The table -/

/-- A Go `map[string]V`, as its entries with the latest first: `m[k] = v` puts an entry in
    front, which every later lookup of `k` (`List.lookup`) finds first. -/
def mapSet {V : Type} (m : List (Bytes × V)) (k : Bytes) (v : V) : List (Bytes × V) :=
  (k, v) :: m

/-- The table `map[string]map[string]map[string]*Fallback` of `New`, by name, ALPN and path. -/
abbrev FallbackTable := List (Bytes × List (Bytes × List (Bytes × Fallback)))

/-- One iteration of the loop of `New` over the config's fallbacks: the maps of the entry's
    name and ALPN are made where they are `nil`, and the entry is stored under its path. -/
def FallbackTable.add (t : FallbackTable) (fb : Fallback) : FallbackTable :=
  let byAlpn := (t.lookup fb.name).getD []
  let byPath := (byAlpn.lookup fb.alpn).getD []
  mapSet t fb.name (mapSet byAlpn fb.alpn (mapSet byPath fb.path fb))

/-- The table `New` builds from the config's fallbacks. -/
def newFallbackTable (fbs : List Fallback) : FallbackTable :=
  fbs.foldl FallbackTable.add []

/-- The body of `Handler.findFallback`: the maps of the name, then those of `""`; in each, the
    map of the ALPN, then that of `""`; in each, the path, then `""`. Each level moves on when
    the one below finds nothing. -/
def FallbackTable.find (t : FallbackTable) (name alpn path : Bytes) : Option Fallback :=
  let inPaths (pfb : List (Bytes × Fallback)) : Option Fallback :=
    (pfb.lookup path).orElse fun _ => pfb.lookup []
  let inAlpns (apfb : List (Bytes × List (Bytes × Fallback))) : Option Fallback :=
    ((apfb.lookup alpn).bind inPaths).orElse fun _ => (apfb.lookup []).bind inPaths
  ((t.lookup name).bind inAlpns).orElse fun _ => (t.lookup []).bind inAlpns

/-- `Handler.findFallback`, on the table `New` builds from the config's entries (`none` for a
    nil `Fallbacks`, which leaves the table nil). -/
def findFallback (fallbacks : Option (List Fallback)) (name alpn path : Bytes) :
    Option Fallback :=
  match fallbacks with
  | none => none
  | some fbs => (newFallbackTable fbs).find name alpn path

/-- The destination `handleFallback` dials: a bare port is on `127.0.0.1`. The
    `strconv.Atoi` test that follows sets the same value, since a number has no colon. -/
def fallbackDest (dest : Bytes) : Bytes :=
  if (58 : UInt8) ∈ dest then dest else goBytes "127.0.0.1:" ++ dest

/-! ## Forwarding -/

/-- The error of a read, unless it is `io.EOF`. -/
def nonEOF : Option GoError → Option GoError
  | some e => if e = .err "EOF" then none else some e
  | none => none

/-- The entry `handleFallback` picks for a peeked prefix: the one for its name, ALPN and path,
    or else the default one. -/
def pickFallback (fallbacks : Option (List Fallback)) (peeked : Bytes) : Option Fallback :=
  (findFallback fallbacks (classify peeked).1 (classify peeked).2.1 (classify peeked).2.2).orElse
    fun _ => findFallback fallbacks [] [] []

/-- What `handleFallback` does past its peek: the entry for the peeked prefix, the address
    dialled (with the outcome `dial` of `net.Dial`), and the bytes its copy to the back end
    reads from. -/
def forwardTo (fallbacks : Option (List Fallback)) (dial : Bytes → Option GoError)
    (peeked source : Bytes) : Except GoError (Fallback × Bytes × Bytes) :=
  match pickFallback fallbacks peeked with
  | none => .error (.err "no fallback configured")
  | some fb =>
    match dial (fallbackDest fb.dest) with
    | some e => .error (.base "failed to connect to fallback" e)
    | none => .ok (fb, fallbackDest fb.dest, source)

/-- A copy that `forwardTo` sets up reads `source`, and goes to the entry picked by the peek, at
    the address derived from its destination, once the dial went through. -/
theorem forwardTo_eq_ok {fallbacks : Option (List Fallback)} {dial : Bytes → Option GoError}
    {peeked source : Bytes} {fb : Fallback} {dest src : Bytes}
    (h : forwardTo fallbacks dial peeked source = .ok (fb, dest, src)) :
    src = source ∧ pickFallback fallbacks peeked = some fb ∧ dest = fallbackDest fb.dest ∧
      dial dest = none := by
  unfold forwardTo at h
  split at h
  · cases h
  · rename_i fb' hpick
    split at h
    · cases h
    · rename_i hdial
      cases h
      exact ⟨rfl, hpick, rfl, hdial⟩

/-- `Handler.handleFallback` on the reader `r`: the copy to the fallback reads every byte the
    reader holds from its position (`newPreloadedConn` of the reader); the copy's own error,
    which `handleFallback` drops, is not modelled. -/
def handleFallback (fallbacks : Option (List Fallback)) (dial : Bytes → Option GoError)
    (r : Conn) : Except GoError (Fallback × Bytes × Bytes) :=
  match nonEOF (r.peek 1024).2 with
  | some e => .error e
  | none => forwardTo fallbacks dial (r.peek 1024).1 r.bytes

/-- `Handler.forwardToFallback` on the reader `r`: `dest` is dialled as it is, and the copy
    reads every byte the reader holds from its position (the address dialled, the bytes the copy
    reads from). The error of the copy that ends first, which it returns, is not modelled. -/
def forwardToFallback (dial : Bytes → Option GoError) (r : Conn) (dest : Bytes) :
    Except GoError (Bytes × Bytes) :=
  match dial dest with
  | some e => .error (.base "failed to connect to fallback" e)
  | none => .ok (dest, r.bytes)

/-- What the back end gets from the copy of `handleFallback` or `forwardToFallback`. They copy
    both ways at once, return when either copy ends, and then close the back end. The copy from
    the client reads `source` in order and writes each read on; `sent` is how many bytes it has
    written when the first copy ends: all of `source` if the client's side ends first, fewer if
    the back end's side does. -/
def backendReceives (source : Bytes) (sent : Nat) : Bytes := source.take sent

/-- `Handler.handleTLSFallback`: the entry for the SNI and ALPN, else for the ALPN, else the
    default one. -/
def handleTLSFallback (fallbacks : Option (List Fallback)) (dial : Bytes → Option GoError)
    (r : Conn) (sni alpn : Bytes) : Except GoError (Bytes × Bytes) :=
  let fb := findFallback fallbacks sni alpn []
  let fb := fb.orElse fun _ => findFallback fallbacks [] alpn []
  let fb := fb.orElse fun _ => findFallback fallbacks [] [] []
  match fb with
  | none => .error (.err "no TLS fallback configured")
  | some fb => forwardToFallback dial r fb.dest

/-- `Handler.handleHTTPFallback`: the entry for the host and path under the ALPN `http/1.1`,
    then for the host, then for the path, then for `http/1.1` alone, else the default one. -/
def handleHTTPFallback (fallbacks : Option (List Fallback)) (dial : Bytes → Option GoError)
    (r : Conn) (host path : Bytes) : Except GoError (Bytes × Bytes) :=
  let fb := findFallback fallbacks host (goBytes "http/1.1") path
  let fb := fb.orElse fun _ => findFallback fallbacks host (goBytes "http/1.1") []
  let fb := fb.orElse fun _ => findFallback fallbacks [] (goBytes "http/1.1") path
  let fb := fb.orElse fun _ => findFallback fallbacks [] (goBytes "http/1.1") []
  let fb := fb.orElse fun _ => findFallback fallbacks [] [] []
  match fb with
  | none => .error (.err "no HTTP fallback configured")
  | some fb => forwardToFallback dial r fb.dest

theorem peek_of_le {r : Conn} {n : Nat} (h : n ≤ r.bytes.length) :
    r.peek n = (r.bytes.take n, none) := if_pos h

theorem peek_of_lt {r : Conn} {n : Nat} (h : r.bytes.length < n) :
    r.peek n = (r.bytes, some r.close.err) := if_neg (Nat.not_le.2 h)

/-- `handleFallback` by how its peek of 1024 bytes ends: with the bytes there, at the end of a
    stream the client closed, or at the read deadline. -/
theorem handleFallback_eq (fallbacks : Option (List Fallback)) (dial : Bytes → Option GoError)
    (r : Conn) :
    handleFallback fallbacks dial r =
      if 1024 ≤ r.bytes.length then forwardTo fallbacks dial (r.bytes.take 1024) r.bytes
      else if r.close = .eof then forwardTo fallbacks dial r.bytes r.bytes
      else .error (.err "i/o timeout") := by
  unfold handleFallback
  by_cases h : 1024 ≤ r.bytes.length
  · rw [if_pos h, peek_of_le h]; rfl
  · rw [if_neg h, peek_of_lt (Nat.lt_of_not_le h)]
    cases hc : r.close <;> rfl

/-! ## The order of the lookups -/

/-- The entry stored under a name, ALPN and path: the last config entry with all three. -/
def storedUnder (fbs : List Fallback) (key : Bytes × Bytes × Bytes) : Option Fallback :=
  (fbs.filter fun fb => (fb.name, fb.alpn, fb.path) = key).getLast?

/-- The keys `findFallback` tries, in its order. -/
def fallbackKeys (name alpn path : Bytes) : List (Bytes × Bytes × Bytes) :=
  [(name, alpn, path), (name, alpn, []), (name, [], path), (name, [], []),
    ([], alpn, path), ([], alpn, []), ([], [], path), ([], [], [])]

/-- A lookup through the three levels of a table. -/
def FallbackTable.get (t : FallbackTable) (key : Bytes × Bytes × Bytes) : Option Fallback :=
  ((t.lookup key.1).bind (·.lookup key.2.1)).bind (·.lookup key.2.2)

theorem Option.bind_orElse {α β : Type} (x : Option α) (f g : α → Option β) :
    x.bind (fun a => (f a).orElse fun _ => g a) = (x.bind f).orElse fun _ => x.bind g := by
  cases x <;> rfl

theorem Option.orElse_orElse {β : Type} (x y z : Option β) :
    ((x.orElse fun _ => y).orElse fun _ => z) = x.orElse fun _ => y.orElse fun _ => z := by
  cases x <;> rfl

theorem Option.orElse_fun_none {β : Type} (x : Option β) : (x.orElse fun _ => none) = x := by
  cases x <;> rfl

theorem findSome?_cons_orElse {α β : Type} (f : α → Option β) (a : α) (l : List α) :
    (a :: l).findSome? f = (f a).orElse fun _ => l.findSome? f := by
  rw [List.findSome?_cons]; cases f a <;> rfl

theorem lookup_mapSet {V : Type} (m : List (Bytes × V)) (k k' : Bytes) (v : V) :
    (mapSet m k v).lookup k' = if k' = k then some v else m.lookup k' := by
  by_cases h : k' = k
  · simp [mapSet, List.lookup_cons, h]
  · simp [mapSet, List.lookup_cons, h, beq_false_of_ne h]

theorem lookup_getD_nil {V : Type} (x : Option (List (Bytes × V))) (k : Bytes) :
    (x.getD []).lookup k = x.bind (·.lookup k) := by
  cases x <;> rfl

/-- One iteration of the loop of `New` changes the lookup of its entry's key only. -/
theorem FallbackTable.get_add (t : FallbackTable) (fb : Fallback)
    (key : Bytes × Bytes × Bytes) :
    (t.add fb).get key = if (fb.name, fb.alpn, fb.path) = key then some fb else t.get key := by
  obtain ⟨n, a, p⟩ := key
  by_cases hn : n = fb.name <;> by_cases ha : a = fb.alpn <;> by_cases hp : p = fb.path <;>
    simp [FallbackTable.add, FallbackTable.get, lookup_mapSet, lookup_getD_nil, hn, ha, hp,
      Option.bind_assoc, eq_comm]

/-- The run lemma of the loop of `New`: after the entries `fbs`, a key holds the last of them
    with that key, or else what it held before. -/
theorem FallbackTable.get_foldl_add (fbs : List Fallback) (t : FallbackTable)
    (key : Bytes × Bytes × Bytes) :
    (fbs.foldl FallbackTable.add t).get key = (storedUnder fbs key).orElse fun _ => t.get key := by
  induction fbs generalizing t with
  | nil => rfl
  | cons fb fbs ih =>
    rw [List.foldl_cons, ih, FallbackTable.get_add, storedUnder, storedUnder]
    by_cases h : (fb.name, fb.alpn, fb.path) = key
    · rw [if_pos h, List.filter_cons_of_pos (by simpa using h), List.getLast?_cons]
      cases (fbs.filter fun fb => (fb.name, fb.alpn, fb.path) = key).getLast? <;> rfl
    · rw [if_neg h, List.filter_cons_of_neg (by simpa using h)]

/-- The nested lookups of `findFallback` try the eight keys in order, whatever the table: when
    an outer map is there but nothing below it matches, the next key is tried, as when it is
    missing. -/
theorem FallbackTable.find_eq_findSome (t : FallbackTable) (name alpn path : Bytes) :
    t.find name alpn path = (fallbackKeys name alpn path).findSome? t.get := by
  simp only [FallbackTable.find, FallbackTable.get, fallbackKeys, Option.bind_orElse,
    findSome?_cons_orElse, Option.orElse_orElse, Option.bind_assoc, List.findSome?_nil,
    Option.orElse_fun_none]

theorem FallbackTable.get_newFallbackTable (fbs : List Fallback)
    (key : Bytes × Bytes × Bytes) :
    (newFallbackTable fbs).get key = storedUnder fbs key := by
  rw [newFallbackTable, FallbackTable.get_foldl_add]
  exact Option.orElse_fun_none _

theorem findFallback_eq (fallbacks : Option (List Fallback)) (name alpn path : Bytes) :
    findFallback fallbacks name alpn path =
      (fallbackKeys name alpn path).findSome? (storedUnder (fallbacks.getD [])) := by
  cases fallbacks with
  | none => rfl
  | some fbs =>
    rw [findFallback, FallbackTable.find_eq_findSome]
    exact congrArg (List.findSome? · _) (funext (FallbackTable.get_newFallbackTable fbs))

theorem storedUnder_eq_none {fbs : List Fallback} {key : Bytes × Bytes × Bytes} :
    storedUnder fbs key = none ↔ ∀ fb ∈ fbs, (fb.name, fb.alpn, fb.path) ≠ key := by
  simp [storedUnder, List.getLast?_eq_none_iff, List.filter_eq_nil_iff]

theorem findFallback_eq_none {fallbacks : Option (List Fallback)} {name alpn path : Bytes} :
    findFallback fallbacks name alpn path = none ↔
      ∀ fb ∈ fallbacks.getD [], (fb.name, fb.alpn, fb.path) ∉ fallbackKeys name alpn path := by
  rw [findFallback_eq, List.findSome?_eq_none_iff]
  simp only [storedUnder_eq_none]
  exact ⟨fun h fb hfb hk => h _ hk fb hfb rfl, fun h key hk fb hfb he => h fb hfb (he ▸ hk)⟩

/-- For every table `New` builds, `findFallback` returns the entry stored under the first of its
    eight keys that some config entry has, the last config entry with that key; it returns `nil`
    exactly when no config entry has any of them, and then no entry has `("", "", "")` either,
    so the second lookup of `handleFallback` never changes the outcome. -/
theorem findFallback_first_stored (fallbacks : Option (List Fallback)) (name alpn path : Bytes) :
    findFallback fallbacks name alpn path =
      (fallbackKeys name alpn path).findSome? (storedUnder (fallbacks.getD [])) ∧
    (findFallback fallbacks name alpn path = none ↔
      ∀ fb ∈ fallbacks.getD [], (fb.name, fb.alpn, fb.path) ∉ fallbackKeys name alpn path) ∧
    ∀ peeked, pickFallback fallbacks peeked =
      findFallback fallbacks (classify peeked).1 (classify peeked).2.1 (classify peeked).2.2 := by
  refine ⟨findFallback_eq _ _ _ _, findFallback_eq_none, fun peeked => ?_⟩
  rw [pickFallback]
  cases h : findFallback fallbacks (classify peeked).1 (classify peeked).2.1 (classify peeked).2.2
  · refine findFallback_eq_none.2 fun fb hfb hk => findFallback_eq_none.1 h fb hfb ?_
    have hnil : (fb.name, fb.alpn, fb.path) = ([], [], []) := by simpa [fallbackKeys] using hk
    rw [hnil]
    simp [fallbackKeys]
  · rfl

/-! ## What a lookup returns, and the cascades -/

/-- The keys of `findFallback` are its name, ALPN and path, each as given or empty. -/
theorem mem_fallbackKeys {name alpn path : Bytes} {k : Bytes × Bytes × Bytes} :
    k ∈ fallbackKeys name alpn path ↔
      (k.1 = name ∨ k.1 = []) ∧ (k.2.1 = alpn ∨ k.2.1 = []) ∧ (k.2.2 = path ∨ k.2.2 = []) := by
  obtain ⟨n, a, p⟩ := k
  simp only [fallbackKeys, List.mem_cons, List.mem_singleton, Prod.mk.injEq, List.not_mem_nil,
    or_false]
  constructor
  · rintro (⟨rfl, rfl, rfl⟩ | ⟨rfl, rfl, rfl⟩ | ⟨rfl, rfl, rfl⟩ | ⟨rfl, rfl, rfl⟩ |
      ⟨rfl, rfl, rfl⟩ | ⟨rfl, rfl, rfl⟩ | ⟨rfl, rfl, rfl⟩ | ⟨rfl, rfl, rfl⟩) <;> simp
  · rintro ⟨rfl | rfl, rfl | rfl, rfl | rfl⟩ <;> simp

/-- An entry `findFallback` returns is one of the config's, stored under one of its keys. -/
theorem findFallback_eq_some {fallbacks : Option (List Fallback)} {name alpn path : Bytes}
    {fb : Fallback} (h : findFallback fallbacks name alpn path = some fb) :
    fb ∈ fallbacks.getD [] ∧ (fb.name, fb.alpn, fb.path) ∈ fallbackKeys name alpn path := by
  rw [findFallback_eq] at h
  obtain ⟨key, hkey, hstored⟩ := List.exists_of_findSome?_eq_some h
  obtain ⟨hmem, hk⟩ := List.mem_filter.1 (List.mem_of_getLast?_eq_some hstored)
  exact ⟨hmem, (of_decide_eq_true hk).symm ▸ hkey⟩

/-- The entry `handleFallback` picks for a peeked prefix is one of the config's, stored under
    one of the keys of the prefix's name, ALPN and path: the default entry's key is one of them
    too. -/
theorem pickFallback_eq_some {fallbacks : Option (List Fallback)} {peeked : Bytes}
    {fb : Fallback} (h : pickFallback fallbacks peeked = some fb) :
    fb ∈ fallbacks.getD [] ∧ (fb.name, fb.alpn, fb.path) ∈
      fallbackKeys (classify peeked).1 (classify peeked).2.1 (classify peeked).2.2 := by
  rw [pickFallback] at h
  cases hf : findFallback fallbacks (classify peeked).1 (classify peeked).2.1
      (classify peeked).2.2 with
  | some fb' =>
    rw [hf] at h
    cases h
    exact findFallback_eq_some hf
  | none =>
    rw [hf] at h
    obtain ⟨hmem, hk⟩ := findFallback_eq_some h
    obtain ⟨h1, h2, h3⟩ := mem_fallbackKeys.1 hk
    exact ⟨hmem, mem_fallbackKeys.2 ⟨.inr (h1.elim id id), .inr (h2.elim id id),
      .inr (h3.elim id id)⟩⟩

theorem eq_or_nil_trans {x y z : Bytes} (hx : x = y ∨ x = []) (hy : y = z ∨ y = []) :
    x = z ∨ x = [] := by
  rcases hx with rfl | rfl
  · exact hy
  · exact .inr rfl

/-- A lookup of a name, ALPN and path that are each those of another lookup or empty finds
    nothing where the other found nothing: its keys are among the other's. -/
theorem findFallback_eq_none_of_wider {fallbacks : Option (List Fallback)}
    {name alpn path name' alpn' path' : Bytes} (hn : name' = name ∨ name' = [])
    (ha : alpn' = alpn ∨ alpn' = []) (hp : path' = path ∨ path' = [])
    (h : findFallback fallbacks name alpn path = none) :
    findFallback fallbacks name' alpn' path' = none := by
  rw [findFallback_eq_none] at h ⊢
  intro fb hfb hk
  obtain ⟨h1, h2, h3⟩ := mem_fallbackKeys.1 hk
  exact h fb hfb (mem_fallbackKeys.2
    ⟨eq_or_nil_trans h1 hn, eq_or_nil_trans h2 ha, eq_or_nil_trans h3 hp⟩)

theorem Option.orElse_eq_left {β : Type} {x y : Option β} (h : x = none → y = none) :
    (x.orElse fun _ => y) = x := by
  cases x with
  | none => exact h rfl
  | some _ => rfl

/-- For every config, the lookups `handleTLSFallback` and `handleHTTPFallback` make after their
    first one never change the entry: each of them forwards to the entry of its first lookup,
    and fails when that one finds nothing. -/
theorem fallback_cascades_first_lookup (fallbacks : Option (List Fallback))
    (dial : Bytes → Option GoError) (r : Conn) (sni alpn host path : Bytes) :
    handleTLSFallback fallbacks dial r sni alpn =
      (match findFallback fallbacks sni alpn [] with
      | none => .error (.err "no TLS fallback configured")
      | some fb => forwardToFallback dial r fb.dest) ∧
    handleHTTPFallback fallbacks dial r host path =
      (match findFallback fallbacks host (goBytes "http/1.1") path with
      | none => .error (.err "no HTTP fallback configured")
      | some fb => forwardToFallback dial r fb.dest) := by
  constructor
  · -- `("", alpn, "")` and `("", "", "")` are among the keys of `(sni, alpn, "")`.
    simp only [handleTLSFallback,
      Option.orElse_eq_left (findFallback_eq_none_of_wider (.inr rfl) (.inl rfl) (.inl rfl)),
      Option.orElse_eq_left (findFallback_eq_none_of_wider (.inr rfl) (.inr rfl) (.inl rfl))]
  · -- Each later key is made of the host, `http/1.1` and the path, or of empty parts.
    simp only [handleHTTPFallback,
      Option.orElse_eq_left (findFallback_eq_none_of_wider (.inl rfl) (.inl rfl) (.inr rfl)),
      Option.orElse_eq_left (findFallback_eq_none_of_wider (.inr rfl) (.inl rfl) (.inl rfl)),
      Option.orElse_eq_left (findFallback_eq_none_of_wider (.inr rfl) (.inl rfl) (.inr rfl)),
      Option.orElse_eq_left (findFallback_eq_none_of_wider (.inr rfl) (.inr rfl) (.inr rfl))]

end Reflex
