import Mathlib.Data.List.Basic
import Mathlib.Data.Rat.Defs
import LocalDesk.Data.Machine

/-!
# Network traffic

The records of one sample: the links that a dump reports, the rates computed from their
counters, the totals by kind of link, and the events and capabilities published with them.  A
boot time is a number of nanoseconds and a rate is kept as an exact quotient.
-/

namespace LocalDesk
namespace Network

inductive CapabilityStatus where
  | healthy
  | degraded
  | unsupported
  | unreachable
  deriving DecidableEq, Repr

structure CapabilityState where
  status : CapabilityStatus
  reason : String
  deriving DecidableEq, Repr

namespace CapabilityState

def healthy (reason : String) : CapabilityState := ⟨.healthy, reason⟩

def degraded (reason : String) : CapabilityState := ⟨.degraded, reason⟩

def unsupported (reason : String) : CapabilityState := ⟨.unsupported, reason⟩

end CapabilityState

inductive InterfaceKind where
  | physical
  | loopback
  | tunnel
  | virtual
  deriving DecidableEq, Repr

inductive CounterWidth where
  | bits32
  | bits64
  deriving DecidableEq, Repr

structure LinkCounters where
  rxBytes : Nat
  txBytes : Nat
  width : CounterWidth
  deriving DecidableEq, Repr

structure InterfaceId where
  index : Nat
  name : String
  deriving DecidableEq, Repr

attribute [ext] InterfaceId

structure RawInterface where
  id : InterfaceId
  kind : InterfaceKind
  kernelKind : Option String
  isUp : Bool
  carrierUp : Bool
  counters : Option LinkCounters
  deriving DecidableEq, Repr

inductive RateState where
  | known
  | warmingUp
  | samplingGap
  | counterResetOrWrap
  | countersUnavailable
  deriving DecidableEq, Repr

structure TrafficRate where
  rxBytesPerSecond : Option ℚ
  txBytesPerSecond : Option ℚ
  state : RateState
  reason : String
  deriving DecidableEq

def TrafficRate.unavailable (state : RateState) (reason : String) : TrafficRate :=
  ⟨none, none, state, reason⟩

inductive InterfaceTransition where
  | stable
  | firstObservation
  | hotplugAdded
  | samplingGap
  | counterResetOrWrap
  | countersUnavailable
  deriving DecidableEq, Repr

structure InterfaceTraffic where
  interface : RawInterface
  rate : TrafficRate
  transition : InterfaceTransition
  deriving DecidableEq

inductive NetworkEvent where
  | interfaceAdded (id : InterfaceId)
  | interfaceRemoved (id : InterfaceId)
  | interfaceRenamed (index : Nat) (previousName currentName : String)
  | counterResetOrWrap (id : InterfaceId)
  | samplingGap
  deriving DecidableEq, Repr

structure ByteTotals where
  rxBytes : Nat
  txBytes : Nat
  deriving DecidableEq, Repr

namespace ByteTotals

def zero : ByteTotals := ⟨0, 0⟩

def add (totals : ByteTotals) (counters : LinkCounters) : ByteTotals :=
  ⟨saturatingAddU64 totals.rxBytes counters.rxBytes,
    saturatingAddU64 totals.txBytes counters.txBytes⟩

end ByteTotals

structure TrafficTotals where
  /-- Inclusive sum of every reported interface.  It is not unique host traffic. -/
  allInterfaces : ByteTotals
  physical : ByteTotals
  loopback : ByteTotals
  tunnel : ByteTotals
  otherVirtual : ByteTotals
  deriving DecidableEq, Repr

inductive LayeredAccounting where
  | notDetected
  | possibleVpnUnderlayDoubleCounting
  deriving DecidableEq, Repr

structure NetworkCoverage where
  reportedInterfaces : Nat
  interfacesWithCounters : Nat
  includesLoopback : Bool
  includesTunnels : Bool
  layeredAccounting : LayeredAccounting
  reason : String
  deriving DecidableEq, Repr

structure ApplicationTraffic where
  applicationKey : String
  rxBytes : Nat
  txBytes : Nat
  deriving DecidableEq, Repr

structure NetworkSnapshot where
  observedBoottime : Nat
  systemTraffic : CapabilityState
  perApplication : CapabilityState
  coverage : NetworkCoverage
  totals : TrafficTotals
  aggregateRate : TrafficRate
  interfaces : List InterfaceTraffic
  applications : List ApplicationTraffic
  events : List NetworkEvent
  deriving DecidableEq

end Network
end LocalDesk
