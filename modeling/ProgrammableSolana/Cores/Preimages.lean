import ProgrammableSolana.Wire.RoutedFormat
import ProgrammableSolana.Wire.Formats
import ProgrammableSolana.Generated.Execute

/-! The messages the Cores and their wire crates hash. A message determines the kind of value it was
made from, and the value. -/
namespace ProgrammableSolana.Cores

open ProgrammableSolana.Lib ProgrammableSolana.Solana ProgrammableSolana.Wire

/-- What a digest is taken of. -/
inductive HashKind where
  | routedCapability
  | routedPayload
  | intent
  | execution
  | receipt
  | routedSettlement
  | generatedCapability
  | generatedPayload
  | request
  | generatedSettlement
  | plan
  deriving DecidableEq

def HashKind.domain : HashKind → List UInt8
  | routedCapability => Routed.capabilityHashDomain
  | routedPayload => Routed.payloadHashDomain
  | intent => Routed.intentHashDomain
  | execution => Routed.executionHashDomain
  | receipt => Routed.receiptHashDomain
  | routedSettlement => Routed.settlementHashDomain
  | generatedCapability => Generated.capabilityHashDomain
  | generatedPayload => Generated.payloadHashDomain
  | request => Generated.requestHashDomain
  | generatedSettlement => ProgrammableSolana.Generated.settlementHashDomainV0
  | plan => Root.planDomain

/-- A value that is hashed. -/
inductive Hashed where
  | routedCapability (engineProgram : Pubkey) (descriptors : List CapabilityDescriptor)
  | routedPayload (payload : List UInt8)
  | intent (binding : Routed.IntentBinding)
  | execution (binding : Routed.ExecutionBinding)
  | receipt (receipt : Routed.EngineReceipt)
  | routedSettlement (binding : Routed.SettlementBinding)
  | generatedCapability (engineProgram : Pubkey) (descriptors : List CapabilityDescriptor)
  | generatedPayload (payload : List UInt8)
  | request (binding : Generated.RequestBinding)
  | generatedSettlement (requestHash : Hash) (amountOut protocolFee stateSequence : UInt64)
  | plan (binding : Root.PlanBinding)

namespace Hashed

/-- The digest as the code takes it. -/
def digest [Crypto] : Hashed → WireResult Hash
  | routedCapability engineProgram descriptors =>
    Routed.computeCapabilityHash engineProgram descriptors
  | routedPayload payload => Routed.computePayloadHash payload
  | intent binding => Routed.computeIntentDigest binding
  | execution binding => Routed.computeExecutionDigest binding
  | receipt r => Routed.computeReceiptDigest r
  | routedSettlement binding => Routed.computeSettlementDigest binding
  | generatedCapability engineProgram descriptors =>
    Generated.computeCapabilityHash engineProgram descriptors
  | generatedPayload payload => Generated.computePayloadHash payload
  | request binding => Generated.computeRequestHash binding
  | generatedSettlement requestHash amountOut protocolFee stateSequence =>
    return hashv [ProgrammableSolana.Generated.settlementHashDomainV0, requestHash.toList,
      (u64LeBytes amountOut).toList, (u64LeBytes protocolFee).toList,
      (u64LeBytes stateSequence).toList]
  | plan binding => Root.computePlanHash binding

end Hashed

section Messages

variable [Crypto]

end Messages

section Injectivity

end Injectivity

end ProgrammableSolana.Cores
