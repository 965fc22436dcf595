import Reflex.Bytes

/-!
# The request header

The first frame of a session carries the destination: `command(1) ‖ port(2) ‖ addr_type(1) ‖
addr`, written by the outbound's `encodeRequestHeader` and read by the inbound's
`parseRequestHeader`. The address is four bytes (type `1`), sixteen (type `4`), or a length
byte and a domain (type `3`).

`parseRequestHeader` reads an address only from the seventh byte on: a shorter payload gives a
request without one. The length byte of a domain is `byte(len(domain))`.

* `parseRequestHeader_encode_eq`: what the inbound reads from every header the outbound
  writes: the address comes back unless it is a domain under two bytes or over 255;
* `parseRequestHeader_encode`: the inbound accepts every header the outbound writes.
-/

namespace Reflex

/-- `net.Address`, as the header carries it. -/
inductive Address
  | ipv4 (ip : FixedBytes 4)
  | ipv6 (ip : FixedBytes 16)
  | domain (name : Bytes)
  deriving DecidableEq, Repr

/-- `net.IPAddress` of xray-core: an IPv4-mapped IPv6 address (`::ffff:a.b.c.d`) is the IPv4
    address, and a length other than 4 or 16 gives `nil`. -/
def ipAddress (ip : Bytes) : Option Address :=
  if h : ip.length = 4 then some (.ipv4 ⟨ip, h⟩)
  else if h : ip.length = 16 then
    if ip.take 12 = List.replicate 10 0 ++ [0xff, 0xff] then some (.ipv4 (.copyOf 4 (ip.drop 12)))
    else some (.ipv6 ⟨ip, h⟩)
  else none

/-- `protocol.RequestHeader`, with the fields the two sides read. -/
structure RequestHeader where
  command : UInt8
  port : UInt16
  address : Option Address
  deriving DecidableEq, Repr

/-- `protocol.RequestCommandTCP`. -/
def requestCommandTCP : UInt8 := 0x01
/-- `protocol.RequestCommandUDP`. -/
def requestCommandUDP : UInt8 := 0x02

/-- The `switch` on the address family in `encodeRequestHeader`. -/
def encodeAddress : Address → Bytes
  | .ipv4 ip => 1 :: ip.bytes
  | .ipv6 ip => 4 :: ip.bytes
  | .domain name => 3 :: UInt8.ofNat name.length :: name

/-- `encodeRequestHeader`; `Family()` of a nil address is a nil dereference. -/
def encodeRequestHeader (request : RequestHeader) : Except GoError Bytes :=
  match request.address with
  | none => .error (.panic "runtime error: invalid memory address or nil pointer dereference")
  | some a => .ok (request.command :: putBE 2 request.port.toNat ++ encodeAddress a)

/-- `parseRequestHeader`; every index is below a length it checked. -/
def parseRequestHeader (payload : Bytes) : Except GoError RequestHeader :=
  if payload.length < 4 then .error (.err "payload too short")
  else
    let command := payload.getD 0 0
    let port := UInt16.ofNat (beNat ((payload.take 3).drop 1))
    if 7 ≤ payload.length then
      match payload.getD 3 0 with
      | 1 =>
        if payload.length < 8 then .error (.err "invalid IPv4 address")
        else .ok ⟨command, port, ipAddress ((payload.take 8).drop 4)⟩
      | 3 =>
        if payload.length < 5 then .error (.err "invalid domain address")
        else if payload.length < 5 + (payload.getD 4 0).toNat then
          .error (.err "incomplete domain address")
        else .ok ⟨command, port,
          some (.domain ((payload.take (5 + (payload.getD 4 0).toNat)).drop 5))⟩
      | 4 =>
        if payload.length < 20 then .error (.err "invalid IPv6 address")
        else .ok ⟨command, port, ipAddress ((payload.take 20).drop 4)⟩
      | addrType => .error (.err ("unknown address type: " ++ toString addrType.toNat))
    else .ok ⟨command, port, none⟩

@[simp] theorem length_encodeAddress_ipv4 (ip : FixedBytes 4) :
    (encodeAddress (.ipv4 ip)).length = 5 := by simp [encodeAddress, ip.length_bytes]

@[simp] theorem length_encodeAddress_ipv6 (ip : FixedBytes 16) :
    (encodeAddress (.ipv6 ip)).length = 17 := by simp [encodeAddress, ip.length_bytes]

@[simp] theorem length_encodeAddress_domain (name : Bytes) :
    (encodeAddress (.domain name)).length = name.length + 2 := by simp [encodeAddress]

theorem putBE_two (v : Nat) : putBE 2 v = [UInt8.ofNat (v / 256), UInt8.ofNat v] := rfl

theorem UInt16.toNat_ofNat (n : Nat) : (UInt16.ofNat n).toNat = n % 65536 := rfl

theorem ofNat_beNat_putBE_two (p : UInt16) : UInt16.ofNat (beNat (putBE 2 p.toNat)) = p := by
  have := p.toNat_lt_size
  simp only [UInt16.size] at this
  exact UInt16.toNat.inj (by rw [UInt16.toNat_ofNat, beNat_putBE]; omega)

/-! ## Reading a header back -/

/-- The address `parseRequestHeader` reads from the one `encodeRequestHeader` wrote: IPv4 as it
    is; IPv6 through `net.IPAddress`; a domain of fewer than two bytes not at all (its header is
    under seven bytes), and a longer one cut to its length modulo `256`. -/
def Address.readBack : Address → Option Address
  | .ipv4 ip => some (.ipv4 ip)
  | .ipv6 ip => ipAddress ip.bytes
  | .domain name =>
    if name.length < 2 then none else some (.domain (name.take (name.length % 256)))

/-- What the inbound reads from every header the outbound writes: the command and the port,
    and the address as `Address.readBack` gives it. -/
theorem parseRequestHeader_encode_eq {request : RequestHeader} {a : Address}
    (ha : request.address = some a) :
    encodeRequestHeader request =
      .ok (request.command :: putBE 2 request.port.toNat ++ encodeAddress a) ∧
    parseRequestHeader (request.command :: putBE 2 request.port.toNat ++ encodeAddress a) =
      .ok ⟨request.command, request.port, a.readBack⟩ := by
  refine ⟨by rw [encodeRequestHeader, ha], ?_⟩
  have hp := ofNat_beNat_putBE_two request.port
  rw [putBE_two] at hp
  cases a with
  | ipv4 ip =>
    simp [parseRequestHeader, putBE_two, encodeAddress, ip.length_bytes, Address.readBack, hp,
      ipAddress, List.take_of_length_le]
  | ipv6 ip =>
    simp [parseRequestHeader, putBE_two, encodeAddress, ip.length_bytes, Address.readBack, hp,
      List.take_of_length_le]
  | domain name =>
    have hL : (UInt8.ofNat name.length).toNat = name.length % 256 := UInt8.toNat_ofNat _
    have := Nat.mod_le name.length 256
    simp [parseRequestHeader, putBE_two, encodeAddress, hL, Address.readBack, hp, List.drop_take]
    split_ifs <;> first | rfl | omega

/-- The inbound accepts every header the outbound writes, whatever the address: the length
    byte of a domain never exceeds the domain's length, and a domain under two bytes leaves the
    header under seven bytes. -/
theorem parseRequestHeader_encode {request : RequestHeader} {b : Bytes}
    (h : encodeRequestHeader request = .ok b) : ∃ r, parseRequestHeader b = .ok r := by
  cases ha : request.address with
  | none => rw [encodeRequestHeader, ha] at h; cases h
  | some a =>
    obtain ⟨he, hp⟩ := parseRequestHeader_encode_eq ha
    rw [he] at h
    cases h
    exact ⟨_, hp⟩

/-- Headers that `parseRequestHeader` does not read as the format says: four bytes with the
    address type `0` and no address are accepted as a request without an address; the header
    of the one-byte domain `a` is read without its address; and the header of a 256-byte domain,
    whose length byte is `0`, is read with the empty domain. -/
theorem parseRequestHeader_drops_addresses :
    parseRequestHeader [1, 1, 187, 0] = .ok ⟨1, 443, none⟩ ∧
    encodeRequestHeader ⟨1, 443, some (.domain (goBytes "a"))⟩ = .ok [1, 1, 187, 3, 1, 97] ∧
    parseRequestHeader [1, 1, 187, 3, 1, 97] = .ok ⟨1, 443, none⟩ ∧
    parseRequestHeader (1 :: putBE 2 443 ++ encodeAddress (.domain (List.replicate 256 97))) =
      .ok ⟨1, 443, some (.domain [])⟩ := by
  have hback : Address.readBack (.domain (List.replicate 256 97)) = some (.domain []) := by
    rw [Address.readBack, List.length_replicate, if_neg (by decide)]; rfl
  refine ⟨rfl, rfl, rfl, ?_⟩
  exact (@parseRequestHeader_encode_eq ⟨1, 443, some (.domain (List.replicate 256 97))⟩ _
    rfl).2.trans (by rw [hback])

end Reflex
