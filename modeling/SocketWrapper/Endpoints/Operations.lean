import SocketWrapper.Endpoints.Parsing

/-!
# Where the library connects, binds and sends to

The functions that take the text of an address, with the system calls that they make. What the kernel answers
may depend on all the calls that have been made so far.
-/

namespace SocketWrapper.Endpoints

open Descriptors Interfaces

/-- What is found in a `sockaddr_in` or `sockaddr_in6`, with the port as `htons` has cut it. -/
structure Target where
  address : SockAddr
  port : Nat
  deriving DecidableEq, Repr

inductive AddressCall
  | socket (family : Nat)
  | connect (fd : Fd) (server : Target)
  | bind (fd : Fd) (receiver : Target)
  | sendto (fd : Fd) (msgData : List Byte) (destination : Target)
  | reuseAddr (fd : Fd)
  | reusePort (fd : Fd)
  | addMembership (fd : Fd) (multiaddr interface : BitVec 32)
  deriving DecidableEq, Repr

/-- `errno` where the call fails, and the descriptor where `::socket` does not. -/
structure AddressAnswer where
  failure : Option Nat
  fd : Fd
  /-- The value of `errno` where the code reads it and no call has failed. -/
  errno : Nat
  deriving DecidableEq, Repr

abbrev AddressKernel := List AddressCall → AddressAnswer

def INADDR_ANY : BitVec 32 := 0

def in6addrAny : BitVec 128 := 0

/-- `htons` of an `int`. -/
def htons (port : Int) : Nat := (port % 2 ^ 16).toNat

/-! ## `StreamFactory` -/

/-- The `server_addr`. The result of `inet_pton` is not looked at, and the structure is full of zeros before. -/
def serverAddr (ipAddress : String) (port : UInt16) : IpVersion → Target
  | .IPv6 => ⟨.inet6 ((inetPton6 (cStr ipAddress)).getD 0), port.toNat⟩
  | .IPv4 => ⟨.inet (inetAddr ipAddress), port.toNat⟩

/-- `CreateTcpStreamToServer`, up to the construction of the `Stream` from the descriptor. -/
def createTcpStreamToServer (kernel : AddressKernel) (ipAddress : String) (port : UInt16) (version : IpVersion) :
    Outcome Fd × List AddressCall :=
  let made := [.socket (family version)]
  match (kernel made).failure with
  | some errno => (.socketError .SOCKET_SOCKET errno, made)
  | none =>
      let connected := made ++ [.connect (kernel made).fd (serverAddr ipAddress port version)]
      match (kernel connected).failure with
      | some errno => (.socketError .SOCKET_CONNECT errno, connected)
      | none => (.returned (kernel made).fd, connected)

/-! ## `UdpDatagram` -/

/-- The `receiver_address`. -/
def receiverAddress (listenerIpAddr : String) (listenerPort : UInt16) : IpVersion → Target
  | .IPv6 => ⟨.inet6 in6addrAny, listenerPort.toNat⟩
  | .IPv4 => ⟨.inet (inetAddr listenerIpAddr), listenerPort.toNat⟩

/-- The constructor, up to its `::bind`. The results of `::setsockopt` are not looked at. -/
def bindDatagram (kernel : AddressKernel) (listenerIpAddr : String) (listenerPort : UInt16)
    (version : IpVersion) : Outcome Fd × List AddressCall :=
  let made := [.socket (family version)]
  match (kernel made).failure with
  | some errno => (.socketError .SOCKET_SOCKET errno, made)
  | none =>
      let bound := made ++ [.reuseAddr (kernel made).fd, .reusePort (kernel made).fd,
        .bind (kernel made).fd (receiverAddress listenerIpAddr listenerPort version)]
      match (kernel bound).failure with
      | some errno => (.socketError .SOCKET_BIND errno, bound)
      | none => (.returned (kernel made).fd, bound)

def writeDatagram (kernel : AddressKernel) (fd : Fd) (version : IpVersion) (msgData : List Byte)
    (destinationIp : String) (port : Int) : Outcome Unit × List AddressCall :=
  match version with
  | .IPv6 => (.threw (.logicError "IPv6 is not supported as of now"), [])
  | .IPv4 =>
      let sent := [.sendto fd msgData ⟨.inet (inetAddr destinationIp), htons port⟩]
      match (kernel sent).failure with
      | some errno => (.socketError .SOCKET_WRITE errno, sent)
      | none => (.returned (), sent)

/-- The addresses are compared as numbers of the host. -/
def subscribeToMulticast (kernel : AddressKernel) (fd : Fd) (groupAddr : String) :
    Outcome Unit × List AddressCall :=
  let addrPrefix := inetAddr groupAddr
  if inetAddr "224.0.0.0" ≤ addrPrefix ∧ addrPrefix < inetAddr "240.0.0.0" then
    let joined := [.reuseAddr fd, .addMembership fd (inetAddr groupAddr) INADDR_ANY]
    match (kernel joined).failure with
    | some errno => (.socketError .SOCKET_BIND errno, joined)
    | none => (.returned (), joined)
  else (.socketError .SOCKET_JOIN_MULTICAST (kernel []).errno, [])

/-! ## What a text is for -/

/-- The text means the address to every function that takes one: a connection is made to that address, and a
datagram socket is bound to it, sends to it and joins the group that it is. It joins no other address. -/
structure Denotes (version : IpVersion) (text : String) (a : SockAddr) : Prop where
  connects : ∀ kernel port fd, (createTcpStreamToServer kernel text port version).1 = .returned fd →
    .connect fd ⟨a, port.toNat⟩ ∈ (createTcpStreamToServer kernel text port version).2
  connectsNowhereElse : ∀ kernel port fd server,
    .connect fd server ∈ (createTcpStreamToServer kernel text port version).2 → server = ⟨a, port.toNat⟩
  binds : version = .IPv4 → ∀ kernel port fd, (bindDatagram kernel text port version).1 = .returned fd →
    .bind fd ⟨a, port.toNat⟩ ∈ (bindDatagram kernel text port version).2
  sends : version = .IPv4 → ∀ kernel fd msgData port,
    (writeDatagram kernel fd version msgData text port).2 = [.sendto fd msgData ⟨a, htons port⟩]
  joins : version = .IPv4 → 224 ≤ (octets a.sinAddr).headD 0 ∧ (octets a.sinAddr).headD 0 < 240 →
    ∀ kernel fd, (subscribeToMulticast kernel fd text).2 = [.reuseAddr fd, .addMembership fd a.sinAddr INADDR_ANY]
  refuses : version = .IPv4 → ¬ (224 ≤ (octets a.sinAddr).headD 0 ∧ (octets a.sinAddr).headD 0 < 240) →
    ∀ kernel fd, (subscribeToMulticast kernel fd text).2 = [] ∧
      (subscribeToMulticast kernel fd text).1.ThrewType .SOCKET_JOIN_MULTICAST

/-- The address that the family says is meant. -/
def meant (version : IpVersion) (a : SockAddr) : SockAddr :=
  match version with
  | .IPv4 => .inet a.sinAddr
  | .IPv6 => .inet6 a.sin6Addr

end SocketWrapper.Endpoints
