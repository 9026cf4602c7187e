import LocalDesk.Data.Percent
import LocalDesk.Data.Records
import LocalDesk.Network.Model

/-!
# The dump of the links

The kernel answers a request for its links with datagrams of messages, and every message of a link
holds attributes.  All three are records that carry their own length.  The reader goes over a
datagram by offsets and over attributes by what remains of them.
-/

namespace LocalDesk
namespace Network

open Records

def rtmNewlink : Nat := 16
def nlmsgError : Nat := 2
def nlmsgDone : Nat := 3
def nlmsgOverrun : Nat := 4
def nlmFDumpIntr : Nat := 0x10
def iflaIfname : Nat := 3
def iflaStats : Nat := 7
def iflaLinkinfo : Nat := 18
def iflaStats64 : Nat := 23
def iflaInfoKind : Nat := 1
def iffUp : Nat := 0x1
def iffLoopback : Nat := 0x8
def iffLowerUp : Nat := 0x10000
def arphrdLoopback : Nat := 772
def maxDumpDatagramBytes : Nat := 64 * 1024
def maxRawInterfaces : Nat := 256
def maxDumpDatagrams : Nat := 256
def maxDumpBytes : Nat := 8 * 1024 * 1024

/-- `AF_NETLINK`. -/
def afNetlink : Nat := 16

/-- The size of a `sockaddr_nl`. -/
def sockaddrBytes : Nat := 12

inductive DumpLimit where
  | datagramBytes
  | datagrams
  | bytes
  | interfaces
  deriving DecidableEq, Repr

inductive CollectError where
  | io (code : Int)
  | protocol (reason : String)
  | kernel (code : Int)
  | receiveTimeout
  | dumpInterrupted
  | dumpOverrun
  | nonKernelSender (portId : Nat)
  | dumpLimitExceeded (limit : DumpLimit) (maximum observed : Nat)
  deriving DecidableEq, Repr

abbrev Collect (α : Type) : Type := Except (Halt CollectError) α

def refuse {α : Type} (e : CollectError) : Collect α := .error (.error e)

/-- `Attributes::next`: the kind and the value of the first attribute, and what remains. -/
def nextAttribute (remaining : List UInt8) : Collect (Option (Nat × List UInt8 × List UInt8)) :=
  if remaining = [] then .ok none
  else if remaining.length < 4 then refuse (.protocol "truncated rtnetlink attribute")
  else do
    let length := (readLe 2 remaining).getD 0
    let kind := (readLe 2 (← slice remaining 2 remaining.length)).getD 0 &&& 0x3fff
    if length < 4 ∨ remaining.length < length then
      refuse (.protocol "invalid rtnetlink attribute length")
    else do
      let value ← slice remaining 4 length
      let next ← align4 length
      let rest ← if remaining.length ≤ next then pure [] else slice remaining next remaining.length
      return some (kind, value, rest)

section Folding

variable {σ : Type} (take : σ → Nat → List UInt8 → Collect (σ ⊕ σ))

/-- A loop over the attributes.  Its body goes on with `inl` and breaks with `inr`. -/
def forAttributes : Nat → List UInt8 → σ → Collect σ
  | 0, _, _ => .error .endless
  | fuel + 1, remaining, s => do
    match ← nextAttribute remaining with
    | none => return s
    | some (kind, value, rest) =>
      match ← take s kind value with
      | .inl s => forAttributes fuel rest s
      | .inr s => return s

def overAttributes (bytes : List UInt8) (s : σ) : Collect σ :=
  forAttributes take (bytes.length + 1) bytes s

end Folding

def parseNulString (bytes : List UInt8) : Option String :=
  if 0 ∈ bytes then (Text.fromUtf8 (bytes.takeWhile (· ≠ 0))).map String.ofList else none

def readAt (width offset : Nat) (bytes : List UInt8) : Option Nat :=
  if bytes.length < offset then none else readLe width (bytes.drop offset)

def parseStats64 (bytes : List UInt8) : Option LinkCounters := do
  let rxBytes ← readAt 8 16 bytes
  let txBytes ← readAt 8 24 bytes
  return ⟨rxBytes, txBytes, .bits64⟩

def parseStats32 (bytes : List UInt8) : Option LinkCounters := do
  let rxBytes ← readAt 4 8 bytes
  let txBytes ← readAt 4 12 bytes
  return ⟨rxBytes, txBytes, .bits32⟩

def parseLinkKind (attributes : List UInt8) : Collect (Option String) :=
  overAttributes (fun found kind value =>
    if kind = iflaInfoKind then .ok (.inr (parseNulString value)) else .ok (.inl found))
    attributes none

def isTunnelKind (kind : String) : Bool :=
  ["tun", "tap", "wireguard", "gre", "gretap", "ip6gre", "ip6gretap", "ipip", "sit", "vti", "vti6",
    "xfrm", "erspan", "ip6erspan", "l2tp", "ppp"].contains kind

/-- `deviceExists` tells whether a name has a device below the directory of the classes. -/
def classifyInterface (deviceExists : String → Bool) (name : String) (hardwareType flags : Nat)
    (kernelKind : Option String) : InterfaceKind :=
  if hardwareType = arphrdLoopback ∨ flags &&& iffLoopback ≠ 0 then .loopback
  else if kernelKind.any isTunnelKind then .tunnel
  else if '/' ∉ name.toList ∧ deviceExists name then .physical
  else .virtual

structure InterfaceInfo where
  hardwareType : Nat
  index : Int
  flags : Nat
  deriving DecidableEq, Repr

/-- The size of an `ifinfomsg`, and its fields that the reader uses. -/
def interfaceInfoBytes : Nat := 16

def InterfaceInfo.read (payload : List UInt8) : InterfaceInfo where
  hardwareType := ofLe ((payload.drop 2).take 2)
  index := toI32 (ofLe ((payload.drop 4).take 4))
  flags := ofLe ((payload.drop 8).take 4)

/-- What the attributes of a link say.  A later attribute replaces an earlier one. -/
structure LinkParts where
  name : Option String := none
  counters64 : Option LinkCounters := none
  counters32 : Option LinkCounters := none
  kernelKind : Option String := none
  deriving DecidableEq, Repr

def LinkParts.take (parts : LinkParts) (kind : Nat) (value : List UInt8) :
    Collect (LinkParts ⊕ LinkParts) :=
  if kind = iflaIfname then .ok (.inl { parts with name := parseNulString value })
  else if kind = iflaStats64 then .ok (.inl { parts with counters64 := parseStats64 value })
  else if kind = iflaStats then .ok (.inl { parts with counters32 := parseStats32 value })
  else if kind = iflaLinkinfo then do
    let kernelKind ← parseLinkKind value
    return .inl { parts with kernelKind }
  else .ok (.inl parts)

def parseLink (deviceExists : String → Bool) (payload : List UInt8) : Collect RawInterface :=
  if payload.length < interfaceInfoBytes then refuse (.protocol "truncated ifinfomsg")
  else
    let info := InterfaceInfo.read payload
    if info.index ≤ 0 then refuse (.protocol "invalid interface index")
    else do
      let attributes ← slice payload (← align4 interfaceInfoBytes) payload.length
      let parts ← overAttributes LinkParts.take attributes {}
      match parts.name with
      | none => refuse (.protocol "link is missing IFLA_IFNAME")
      | some name =>
        return {
          id := ⟨info.index.toNat, name⟩
          kind := classifyInterface deviceExists name info.hardwareType info.flags parts.kernelKind
          kernelKind := parts.kernelKind
          isUp := info.flags &&& iffUp ≠ 0
          carrierUp := info.flags &&& iffLowerUp ≠ 0
          counters := parts.counters64.orElse fun _ => parts.counters32 }

structure NetlinkHeader where
  length : Nat
  messageType : Nat
  flags : Nat
  sequence : Nat
  portId : Nat
  deriving DecidableEq, Repr

def headerBytes : Nat := 16

def NetlinkHeader.read (bytes : List UInt8) : NetlinkHeader where
  length := ofLe (bytes.take 4)
  messageType := ofLe ((bytes.drop 4).take 2)
  flags := ofLe ((bytes.drop 6).take 2)
  sequence := ofLe ((bytes.drop 8).take 4)
  portId := ofLe ((bytes.drop 12).take 4)

def readHeader (bytes : List UInt8) : Collect NetlinkHeader :=
  if bytes.length < headerBytes then refuse (.protocol "truncated netlink header")
  else .ok (NetlinkHeader.read bytes)

/-- `false` for a message of another request. -/
def validateDumpHeader (header : NetlinkHeader) (sequence : Nat) : Collect Bool :=
  if header.messageType = nlmsgOverrun then refuse .dumpOverrun
  else if header.sequence ≠ sequence then .ok false
  else if header.flags &&& nlmFDumpIntr ≠ 0 then refuse .dumpInterrupted
  else .ok true

/-- `-code` of an `i32`. -/
def negI32 (code : Int) : Collect Int :=
  if code = -2 ^ 31 then .error (.panic .overflow) else .ok (-code)

def readI32 (bytes : List UInt8) : Option Int := (readLe 4 bytes).map toI32

def parseNetlinkError (payload : List UInt8) : Collect Unit :=
  match readI32 payload with
  | none => refuse (.protocol "truncated NLMSG_ERROR")
  | some code =>
    if code = 0 then .ok ()
    else do
      let errno ← negI32 code
      refuse (.kernel errno)

structure DumpBudget where
  datagrams : Nat := 0
  bytes : Nat := 0
  interfaces : Nat := 0
  deriving DecidableEq, Repr

/-- `usize::MAX`. -/
def usizeMax : Nat := 2 ^ 64 - 1

def charge (limit : DumpLimit) (maximum count more : Nat) : Collect Nat :=
  if usizeMax < count + more then refuse (.dumpLimitExceeded limit maximum usizeMax)
  else if maximum < count + more then refuse (.dumpLimitExceeded limit maximum (count + more))
  else .ok (count + more)

def DumpBudget.recordDatagram (budget : DumpBudget) (size : Nat) : Collect DumpBudget := do
  let datagrams ← charge .datagrams maxDumpDatagrams budget.datagrams 1
  let bytes ← charge .bytes maxDumpBytes budget.bytes size
  return { budget with datagrams, bytes }

def DumpBudget.recordInterface (budget : DumpBudget) : Collect DumpBudget := do
  let interfaces ← charge .interfaces maxRawInterfaces budget.interfaces 1
  return { budget with interfaces }

structure PartialDump where
  budget : DumpBudget := {}
  interfaces : List RawInterface := []
  deriving DecidableEq, Repr

inductive Progress where
  | done (interfaces : List RawInterface)
  | next (dump : PartialDump)
  deriving DecidableEq, Repr

structure Sender where
  length : Nat
  family : Nat
  portId : Nat
  deriving DecidableEq, Repr

/-- What a call of `recvfrom` brings, once the socket is readable.  The bytes of a datagram are all
that was sent, also where they are more than the buffer holds. -/
inductive Arrival where
  | again
  | failed (code : Int)
  | datagram (sender : Sender) (bytes : List UInt8)
  deriving DecidableEq, Repr

def validateKernelSender (sender : Sender) : Collect Unit :=
  if sender.length < sockaddrBytes ∨ sender.family ≠ afNetlink then
    refuse (.protocol "rtnetlink sender address was truncated or invalid")
  else if sender.portId ≠ 0 then refuse (.nonKernelSender sender.portId)
  else .ok ()

section Reading

variable (sequence : Nat) (deviceExists : String → Bool)

def takeMessage (dump : PartialDump) (header : NetlinkHeader) (payload : List UInt8) :
    Collect Progress := do
  if ← validateDumpHeader header sequence then
    if header.messageType = nlmsgDone then return .done dump.interfaces
    else if header.messageType = nlmsgError then
      parseNetlinkError payload
      return .next dump
    else if header.messageType = rtmNewlink then
      let budget ← dump.budget.recordInterface
      let interface ← parseLink deviceExists payload
      return .next ⟨budget, dump.interfaces ++ [interface]⟩
    else return .next dump
  else return .next dump

def walk (bytes : List UInt8) : Nat → Nat → PartialDump → Collect Progress
  | 0, _, _ => .error .endless
  | fuel + 1, offset, dump => do
    let behindHeader ← addUsize offset headerBytes
    if behindHeader ≤ bytes.length then
      let header ← readHeader (← slice bytes offset bytes.length)
      if header.length < headerBytes then refuse (.protocol "invalid netlink message length")
      else
        let behind ← addUsize offset header.length
        if bytes.length < behind then refuse (.protocol "invalid netlink message length")
        else
          let payload ← slice bytes behindHeader behind
          match ← takeMessage sequence deviceExists dump header payload with
          | .done interfaces => return .done interfaces
          | .next dump =>
            let size ← align4 header.length
            if usizeMax < offset + size then refuse (.protocol "netlink offset overflow")
            else walk bytes fuel (offset + size) dump
    else return .next dump

def takeDatagram (dump : PartialDump) (sender : Sender) (received : Nat) : Collect PartialDump :=
  if maxDumpDatagramBytes < received then
    refuse (.dumpLimitExceeded .datagramBytes maxDumpDatagramBytes received)
  else if received = 0 then refuse (.protocol "rtnetlink dump ended without NLMSG_DONE")
  else do
    validateKernelSender sender
    let budget ← dump.budget.recordDatagram received
    return { dump with budget }

def receiveFrom : PartialDump → List Arrival → Collect (List RawInterface)
  | _, [] => refuse .receiveTimeout
  | dump, .again :: arrivals => receiveFrom dump arrivals
  | _, .failed code :: _ => refuse (.io code)
  | dump, .datagram sender bytes :: arrivals => do
    let dump ← takeDatagram dump sender bytes.length
    match ← walk sequence deviceExists bytes (bytes.length + 1) 0 dump with
    | .done interfaces => return interfaces
    | .next dump => receiveFrom dump arrivals

def receiveLinkDump (arrivals : List Arrival) : Collect (List RawInterface) :=
  receiveFrom sequence deviceExists {} arrivals

end Reading

end Network
end LocalDesk
