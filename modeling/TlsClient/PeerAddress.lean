import TlsClient.ByteOrder
import TlsClient.DottedNumerals
import TlsClient.SocketAddress

/-!
# Socket addresses in memory

`create_sock_in_struct` writes an address into a `sockaddr_storage`, `bind` and
`connect` hand its first bytes to the kernel, and `accept` reads the address of the peer
back from such bytes and prints it.
-/

namespace TlsClient

open DecimalNumerals ByteOrder

/-- A part of an address in dotted decimal.  Whether a leading zero is taken is left
open by the description of `inet_pton`. -/
def octetFormat (leadingZeros : Bool) : PartFormat :=
  ⟨leadingZeros, 3, 256⟩

/-- `inet_pton ( AF_INET, ... )`: the four bytes it writes, as `s_addr`. -/
def inetPton (leadingZeros : Bool) (text : List Char) : Option Nat :=
  (parse (octetFormat leadingZeros) 4 text).map fun octets => ofBytes (octets.map UInt8.ofNat)

def inetNtop (sinAddr : Nat) : List Char :=
  render ((toBytes 4 sinAddr).map UInt8.toNat)

def afInet : Nat := 2

/-- A `sockaddr_in`, on a host that stores the low byte first. -/
def SockaddrIn.bytes (address : SockaddrIn) : List UInt8 :=
  toBytes 2 afInet ++
    (toBytes 2 address.sinPort ++ (toBytes 4 address.sinAddr ++ List.replicate 8 0))

/-- The `sockaddr_storage` that `create_sock_in_struct` clears and fills. -/
def SockaddrIn.storage (address : SockaddrIn) : List UInt8 :=
  address.bytes ++ List.replicate 112 0

/-- What `connect` copies for `::connect`, and what `bind` hands to `::bind`. -/
def kernelAddress (storage : List UInt8) : List UInt8 :=
  storage.take 16

/-- `::getpeername` puts the address of the peer at the start of the storage. -/
def getpeername (peer storage : List UInt8) : List UInt8 :=
  peer ++ storage.drop peer.length

structure PeerLog where
  host : List Char
  port : Nat
  sinFamily : Nat
  deriving DecidableEq, Repr

/-- What `accept` prints of `m_socket_address_dest`. -/
def acceptLog (socketAddressDest : List UInt8) : PeerLog where
  host := inetNtop (ofBytes ((socketAddressDest.drop 4).take 4))
  port := ntohs (ofBytes ((socketAddressDest.drop 2).take 2))
  sinFamily := ofBytes (socketAddressDest.take 2)

/-- The values that `create_sock_in_struct` can leave fit their fields. -/
structure SockaddrIn.Fits (address : SockaddrIn) : Prop where
  sinPort : address.sinPort < 2 ^ 16
  sinAddr : address.sinAddr < 2 ^ 32

@[simp]
theorem length_bytes (address : SockaddrIn) : address.bytes.length = 16 := by
  simp [SockaddrIn.bytes]

theorem kernelAddress_storage (address : SockaddrIn) :
    kernelAddress address.storage = address.bytes := by
  rw [kernelAddress, SockaddrIn.storage, ← length_bytes address]
  exact List.take_left

theorem acceptLog_getpeername {address : SockaddrIn} (fits : address.Fits)
    (storage : List UInt8) :
    acceptLog (getpeername address.bytes storage) =
      ⟨inetNtop address.sinAddr, ntohs address.sinPort, afInet⟩ := by
  obtain ⟨behind, split⟩ : ∃ behind, getpeername address.bytes storage =
      toBytes 2 afInet ++ (toBytes 2 address.sinPort ++ (toBytes 4 address.sinAddr ++ behind)) :=
    ⟨_, by simp only [getpeername, SockaddrIn.bytes, List.append_assoc]; rfl⟩
  have behindFamily : (toBytes 2 afInet ++ (toBytes 2 address.sinPort ++
      (toBytes 4 address.sinAddr ++ behind))).drop 2 =
        toBytes 2 address.sinPort ++ (toBytes 4 address.sinAddr ++ behind) :=
    List.drop_left' (length_toBytes 2 afInet)
  have behindPort : (toBytes 2 address.sinPort ++
      (toBytes 4 address.sinAddr ++ behind)).drop 2 = toBytes 4 address.sinAddr ++ behind :=
    List.drop_left' (length_toBytes 2 address.sinPort)
  have both : (4 : Nat) = 2 + 2 := rfl
  simp only [acceptLog, split, PeerLog.mk.injEq]
  refine ⟨?_, ?_, ?_⟩
  · rw [both, ← List.drop_drop, behindFamily, behindPort, List.take_left' (length_toBytes _ _),
      ofBytes_toBytes fits.sinAddr]
  · rw [behindFamily, List.take_left' (length_toBytes _ _), ofBytes_toBytes fits.sinPort]
  · rw [List.take_left' (length_toBytes _ _), ofBytes_toBytes (by decide)]

theorem bytes_inj {first second : SockaddrIn} (firstFits : first.Fits)
    (secondFits : second.Fits) : first.bytes = second.bytes ↔ first = second := by
  constructor
  · intro same
    obtain ⟨_, behindFamily⟩ := List.append_inj same (by simp)
    obtain ⟨ports, behindPort⟩ := List.append_inj behindFamily (by simp)
    obtain ⟨addrs, _⟩ := List.append_inj behindPort (by simp)
    have port := (toBytes_inj firstFits.sinPort secondFits.sinPort).mp ports
    have addr := (toBytes_inj firstFits.sinAddr secondFits.sinAddr).mp addrs
    cases first
    cases second
    simp only at port addr
    rw [port, addr]
  · rintro rfl
    rfl

theorem htons_lt (port : Nat) : htons port < 2 ^ 16 :=
  swapBytes_lt _

theorem htons_inj {first second : Nat} :
    htons first = htons second ↔ first % 2 ^ 16 = second % 2 ^ 16 := by
  constructor
  · intro same
    rw [← ntohs_htons first, same, ntohs_htons]
  · intro same
    rw [htons, same, htons]

/-- The octets that `inet_pton` finds, as bytes. -/
structure Octets (leadingZeros : Bool) (text : List Char) (octets : List Nat) : Prop where
  parsed : parse (octetFormat leadingZeros) 4 text = some octets
  four : octets.length = 4
  small : ∀ octet ∈ octets, octet < 256

theorem octets_of_inetPton {leadingZeros : Bool} {text : List Char} {sinAddr : Nat}
    (converted : inetPton leadingZeros text = some sinAddr) :
    ∃ octets, Octets leadingZeros text octets ∧ sinAddr = ofBytes (octets.map UInt8.ofNat) := by
  obtain ⟨octets, parsed, rfl⟩ := Option.map_eq_some_iff.mp converted
  obtain ⟨four, read⟩ := parse_eq_some.mp parsed
  refine ⟨octets, ⟨parsed, by rw [← read.length_eq, four], fun octet member => ?_⟩, rfl⟩
  obtain ⟨index, inside, rfl⟩ := List.getElem_of_mem member
  have part := read.get (read.length_eq ▸ inside) inside
  exact (readPart_eq_some.mp part).2.2.2

theorem Octets.map_toNat {leadingZeros : Bool} {text : List Char} {octets : List Nat}
    (read : Octets leadingZeros text octets) :
    (octets.map UInt8.ofNat).map UInt8.toNat = octets := by
  rw [List.map_map, List.map_congr_left (g := id), List.map_id]
  intro octet member
  have := read.small octet member
  simp only [Function.comp_apply, UInt8.toNat_ofNat', id_eq]
  omega

theorem Octets.toBytes_addr {leadingZeros : Bool} {text : List Char} {octets : List Nat}
    (read : Octets leadingZeros text octets) :
    toBytes 4 (ofBytes (octets.map UInt8.ofNat)) = octets.map UInt8.ofNat := by
  have length : (octets.map UInt8.ofNat).length = 4 := by rw [List.length_map, read.four]
  rw [← length, toBytes_ofBytes]

theorem Octets.inetNtop_addr {leadingZeros : Bool} {text : List Char} {octets : List Nat}
    (read : Octets leadingZeros text octets) :
    inetNtop (ofBytes (octets.map UInt8.ofNat)) = render octets := by
  rw [inetNtop, read.toBytes_addr, read.map_toNat]

theorem Octets.addr_inj {leadingZeros : Bool} {text other : List Char} {octets others : List Nat}
    (read : Octets leadingZeros text octets) (readOther : Octets leadingZeros other others) :
    ofBytes (octets.map UInt8.ofNat) = ofBytes (others.map UInt8.ofNat) ↔ octets = others := by
  constructor
  · intro same
    rw [← read.map_toNat, ← read.toBytes_addr, same, readOther.toBytes_addr, readOther.map_toNat]
  · rintro rfl
    rfl

/-- What `create_sock_in_struct` makes of an address and a port. -/
theorem octets_of_created {leadingZeros : Bool} {address : String} {port : Nat}
    {created : SockaddrIn}
    (returned : createSockInStruct (inetPton leadingZeros) address port = .returned created) :
    ∃ octets, Octets leadingZeros (cStr address) octets ∧
      created = ⟨htons port, ofBytes (octets.map UInt8.ofNat)⟩ ∧ created.Fits := by
  unfold createSockInStruct at returned
  split at returned
  · rename_i sinAddr converted
    cases returned
    obtain ⟨octets, read, rfl⟩ := octets_of_inetPton converted
    refine ⟨octets, read, rfl, htons_lt port, ?_⟩
    have below := ofBytes_lt (octets.map UInt8.ofNat)
    rwa [List.length_map, read.four] at below
  · cases returned

/-- The server prints of a peer what the peer was started with: its port modulo 2^16,
and its address as it was written, if no part of it has a leading zero. -/
theorem accept_logs_peer {leadingZeros : Bool} {address : String} {port : Nat}
    {peer : SockaddrIn} (storage : List UInt8)
    (created : createSockInStruct (inetPton leadingZeros) address port = .returned peer) :
    (acceptLog (getpeername (kernelAddress peer.storage) storage)).port = port % 2 ^ 16 ∧
    inetPton leadingZeros (acceptLog (getpeername (kernelAddress peer.storage) storage)).host =
      inetPton leadingZeros (cStr address) ∧
    ((acceptLog (getpeername (kernelAddress peer.storage) storage)).host = cStr address ↔
      ∀ part ∈ (cStr address).splitOn '.', Plain part) := by
  obtain ⟨octets, read, rfl, fits⟩ := octets_of_created created
  rw [kernelAddress_storage, acceptLog_getpeername fits]
  refine ⟨ntohs_htons port, ?_, ?_⟩
  · have again : parse (octetFormat leadingZeros) 4 (render octets) = some octets := by
      rw [← read.four]
      exact parse_render (by rintro rfl; cases read.four) (by simp [octetFormat])
        (by simp [octetFormat]) read.small
    simp only [read.inetNtop_addr, inetPton, read.parsed, again]
  · simp only [read.inetNtop_addr]
    exact render_eq_iff read.parsed

/-- The port 65616 is printed as 80. -/
theorem accept_logs_peer_wrapped :
    ∃ peer, createSockInStruct (inetPton false) "10.0.0.7" 65616 = .returned peer ∧
      (acceptLog (getpeername (kernelAddress peer.storage) [])).port = 80 ∧
      (acceptLog (getpeername (kernelAddress peer.storage) [])).host = "10.0.0.7".toList := by
  refine ⟨_, rfl, ?_⟩
  have logs := @accept_logs_peer false "10.0.0.7" 65616 _ [] rfl
  exact ⟨logs.1, logs.2.2.mpr (by decide)⟩

theorem kernelAddress_eq_iff {leadingZeros : Bool} {firstText secondText : String}
    {firstPort secondPort : Nat} {first second : SockaddrIn}
    (created : createSockInStruct (inetPton leadingZeros) firstText firstPort =
      .returned first)
    (createdToo : createSockInStruct (inetPton leadingZeros) secondText secondPort =
      .returned second) :
    kernelAddress first.storage = kernelAddress second.storage ↔
      parse (octetFormat leadingZeros) 4 (cStr firstText) =
          parse (octetFormat leadingZeros) 4 (cStr secondText) ∧
        firstPort % 2 ^ 16 = secondPort % 2 ^ 16 := by
  obtain ⟨octets, read, rfl, fits⟩ := octets_of_created created
  obtain ⟨others, readOthers, rfl, fitsToo⟩ := octets_of_created createdToo
  rw [kernelAddress_storage, kernelAddress_storage, bytes_inj fits fitsToo,
    SockaddrIn.mk.injEq, htons_inj, read.addr_inj readOthers, and_comm, read.parsed,
    readOthers.parsed, Option.some.injEq]

end TlsClient
