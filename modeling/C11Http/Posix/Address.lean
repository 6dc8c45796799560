import Mathlib.Data.List.TakeWhile
import C11Http.Lib.DottedQuad
import C11Http.Lib.Memory
import C11Http.Posix.Connection

/-! # The address the posix client connects to

The part of `Client::Client` in `client/posix/Client.cpp` that fills `struct sockaddr_in server`,
in the layout of the system: 16 bytes with the family at 0, the port at 2 and the address at 4. The
contents are indeterminate at first, and the byte order is that of the host. `port` is an
`unsigned int`, of which `htons` gets the lower 16 bits.

`inet_pton` stores the address, and `memset` then clears all of the structure. So the structure that
is passed to `connect` has the family and the port and the address 0.0.0.0, whatever the host
(`connects_iff`). -/

namespace C11Http.Posix

open C11Http.Lib.DottedQuad C11Http.Lib.Memory

/-- The byte order of the host. -/
inductive ByteOrder
  | littleEndian
  | bigEndian
  deriving DecidableEq

namespace ByteOrder

/-- A `uint16_t` in memory. -/
def bytes (order : ByteOrder) (v : UInt16) : List UInt8 :=
  match order with
  | .littleEndian => [.ofNat (v.toNat % 256), .ofNat (v.toNat / 256)]
  | .bigEndian => [.ofNat (v.toNat / 256), .ofNat (v.toNat % 256)]

/-- `htons`: the value whose bytes in memory are those of `v` in network byte order. -/
def htons (order : ByteOrder) (v : UInt16) : UInt16 :=
  match order with
  | .littleEndian => .ofNat (v.toNat % 256 * 256 + v.toNat / 256)
  | .bigEndian => v

@[simp] theorem length_bytes (order : ByteOrder) (v : UInt16) : (order.bytes v).length = 2 := by
  cases order <;> rfl

/-- **`htons` converts to network byte order.** -/
theorem bytes_htons (order : ByteOrder) (v : UInt16) :
    order.bytes (order.htons v) = [.ofNat (v.toNat / 256), .ofNat (v.toNat % 256)] := by
  have hlt := v.toNat_lt
  cases order with
  | littleEndian =>
    have hval : (UInt16.ofNat (v.toNat % 256 * 256 + v.toNat / 256)).toNat =
        v.toNat % 256 * 256 + v.toNat / 256 := UInt16.toNat_ofNat_of_lt' (by
      show v.toNat % 256 * 256 + v.toNat / 256 < 65536
      omega)
    have hmod : (v.toNat % 256 * 256 + v.toNat / 256) % 256 = v.toNat / 256 := by omega
    have hdiv : (v.toNat % 256 * 256 + v.toNat / 256) / 256 = v.toNat % 256 := by omega
    unfold bytes htons
    simp only [hval, hmod, hdiv]
  | bigEndian => rfl

end ByteOrder

/-! ### The structure -/

/-- The offsets of `sin_family`, `sin_port` and `sin_addr`. -/
def sinFamily : ℕ := 0

def sinPort : ℕ := 2

def sinAddr : ℕ := 4

/-- `sizeof(server)`. -/
def sizeofServer : ℕ := 16

/-- `AF_INET`. -/
def afInet : UInt16 := 2

/-- `hostname.c_str()`, as far as a function reads it that stops at the first zero. -/
def c_str (hostname : Bytes) : Bytes := hostname.takeWhile fun ch => ch ≠ 0

/-- **The structure that the constructor passes to `connect`**, or the exception it throws before.
The result -1 of `inet_pton` is for other families only. -/
def address (order : ByteOrder) (server : ℕ → UInt8) (hostname : Bytes) (port : UInt32) :
    Except String (ℕ → UInt8) :=
  match inet_pton (c_str hostname) with
  | none => .error "not in presentation format"
  | some s_addr =>
    let server := store server sinAddr s_addr
    let server := fill server 0 0 sizeofServer
    let server := store server sinFamily (order.bytes afInet)
    let server := store server sinPort (order.bytes (order.htons port.toUInt16))
    .ok server

/-- The value of bytes in network byte order. -/
def fromNetwork (bytes : List UInt8) : ℕ := bytes.foldl (fun v b => v * 256 + b.toNat) 0

/-- **The structure names the host and the port.** -/
structure ConnectsTo (order : ByteOrder) (server : ℕ → UInt8) (host : Quad) (port : UInt32) :
    Prop where
  family : load server sinFamily 2 = order.bytes afInet
  port : fromNetwork (load server sinPort 2) = port.toNat
  address : load server sinAddr 4 = host.bytes

/-! ### What is passed -/

theorem c_str_of_notMem {hostname : Bytes} (h : 0 ∉ hostname) : c_str hostname = hostname := by
  unfold c_str
  rw [List.takeWhile_eq_self_iff]
  intro ch hch
  have hne : ch ≠ 0 := fun h0 => h (h0 ▸ hch)
  simpa using hne

theorem fromNetwork_bytes (v : UInt16) :
    fromNetwork [.ofNat (v.toNat / 256), .ofNat (v.toNat % 256)] = v.toNat := by
  have hlt := v.toNat_lt
  have hhigh : (UInt8.ofNat (v.toNat / 256)).toNat = v.toNat / 256 :=
    UInt8.toNat_ofNat_of_lt' (by
      show v.toNat / 256 < 256
      omega)
  have hlow : (UInt8.ofNat (v.toNat % 256)).toNat = v.toNat % 256 :=
    UInt8.toNat_ofNat_of_lt' (Nat.mod_lt _ (by decide))
  unfold fromNetwork
  rw [List.foldl_cons, List.foldl_cons, List.foldl_nil, hhigh, hlow]
  omega

/-- The constructor goes on to `connect` exactly for dotted quads. -/
theorem address_isOk_iff (order : ByteOrder) (server : ℕ → UInt8) (hostname : Bytes)
    (port : UInt32) :
    (∃ m, address order server hostname port = .ok m) ↔
      ∃ host : Quad, c_str hostname = host.text := by
  unfold address
  cases h : inet_pton (c_str hostname) with
  | none =>
    refine iff_of_false (fun ⟨m, hm⟩ => by cases hm) fun ⟨host, htext⟩ => ?_
    rw [htext, inet_pton_text] at h
    cases h
  | some s_addr =>
    obtain ⟨host, htext, -⟩ := inet_pton_eq_some_iff.mp h
    exact iff_of_true ⟨_, rfl⟩ ⟨host, htext⟩

/-- **What `connect` is passed**: the family, the lower 16 bits of the port, and no address. -/
theorem address_ok {order : ByteOrder} {server m : ℕ → UInt8} {hostname : Bytes} {port : UInt32}
    (h : address order server hostname port = .ok m) :
    load m sinFamily 2 = order.bytes afInet ∧
      fromNetwork (load m sinPort 2) = port.toNat % 65536 ∧
      load m sinAddr 4 = [0, 0, 0, 0] := by
  unfold address at h
  cases hp : inet_pton (c_str hostname) with
  | none =>
    rw [hp] at h
    cases h
  | some s_addr =>
    rw [hp] at h
    cases h
    have hfamily := order.length_bytes afInet
    have hport := order.length_bytes (order.htons port.toUInt16)
    refine ⟨?_, ?_, ?_⟩
    · rw [load_store_disjoint _ (Or.inl (by decide)), load_store_self _ _ hfamily]
    · rw [load_store_self _ _ hport, ByteOrder.bytes_htons, fromNetwork_bytes,
        UInt32.toNat_toUInt16]
    · rw [load_store_disjoint _ (Or.inr (by rw [hport]; decide)),
        load_store_disjoint _ (Or.inr (by rw [hfamily]; decide)),
        load_fill_of_le _ 0 (by decide) (by decide)]
      rfl

/-- **The client connects where it was told to** exactly if it was told to connect to 0.0.0.0. -/
theorem connects_iff (order : ByteOrder) (server : ℕ → UInt8) (host : Quad) (port : UInt32) :
    ∃ m, address order server host.text port = .ok m ∧
      (ConnectsTo order m host port ↔ host = ⟨0, 0, 0, 0⟩ ∧ port.toNat ≤ 65535) := by
  obtain ⟨m, hm⟩ := (address_isOk_iff order server host.text port).mpr
    ⟨host, c_str_of_notMem (zero_notMem_text host)⟩
  obtain ⟨hfamily, hport, haddress⟩ := address_ok hm
  refine ⟨m, hm, fun h => ⟨?_, ?_⟩, ?_⟩
  · obtain ⟨a, b, c, d⟩ := host
    have hbytes := h.address.symm.trans haddress
    simp only [Quad.bytes, List.cons.injEq] at hbytes
    obtain ⟨rfl, rfl, rfl, rfl, -⟩ := hbytes
    rfl
  · have hp := h.port
    rw [hport] at hp
    omega
  · rintro ⟨rfl, hle⟩
    exact ⟨hfamily, hport.trans (Nat.mod_eq_of_lt (by omega)), haddress⟩

/-- **A client that is told to connect to 10.0.0.1, port 80**, connects to 0.0.0.0. -/
theorem address_lost : ∃ m,
    address .littleEndian (fun _ => 204) (Quad.text ⟨10, 0, 0, 1⟩) 80 = .ok m ∧
    load m sinAddr 4 = [0, 0, 0, 0] ∧ ¬ ConnectsTo .littleEndian m ⟨10, 0, 0, 1⟩ 80 := by
  obtain ⟨m, hm⟩ := (address_isOk_iff .littleEndian (fun _ => 204) (Quad.text ⟨10, 0, 0, 1⟩)
    80).mpr ⟨⟨10, 0, 0, 1⟩, c_str_of_notMem (zero_notMem_text _)⟩
  obtain ⟨-, -, haddress⟩ := address_ok hm
  refine ⟨m, hm, haddress, fun h => ?_⟩
  have hbytes := h.address.symm.trans haddress
  simp [Quad.bytes] at hbytes

end C11Http.Posix
