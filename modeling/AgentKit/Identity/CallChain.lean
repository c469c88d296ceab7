/-
# Call chains

A call chain names the originator of a request and the services that forwarded
it, oldest first. Forwarding appends a caller and keeps the newest thirty-two;
a chain that arrives longer is kept as it is until then.
-/

import AgentKit.Identity.Basic

namespace AgentKit

/-- One service that forwarded a request. -/
structure Caller where
  serviceName : String
  identityId : String
  identityType : IdentityType
  deriving DecidableEq

namespace Caller

def toJson (caller : Caller) : Json :=
  .object [("service_name", .str caller.serviceName), ("identity_id", .str caller.identityId),
    ("identity_type", caller.identityType.toJson)]

def ofJson (value : Json) : Decoded Caller := do
  let serviceName ← value.requiredText "service_name"
  let identityId ← value.requiredText "identity_id"
  let identityType ← IdentityType.ofJson (← value.required "identity_type")
  return ⟨serviceName, identityId, identityType⟩

end Caller

/-- The originator of a request and its forwarders, oldest first. -/
structure CallChain where
  originalId : String
  originalType : IdentityType
  callers : List Caller
  deriving DecidableEq

namespace CallChain

/-- Forwarding keeps at most this many callers. -/
def maxDepth : Nat := 32

def depth (chain : CallChain) : Nat :=
  chain.callers.length

/-- The newest callers of a list. -/
def newest (callers : List Caller) : List Caller :=
  callers.drop (callers.length - maxDepth)

/-- The chain after one more service has forwarded the request. -/
def append (chain : CallChain) (caller : Caller) : CallChain :=
  { chain with callers := newest (chain.callers ++ [caller]) }

theorem length_newest (callers : List Caller) :
    (newest callers).length = min callers.length maxDepth := by
  simp only [newest, List.length_drop]
  omega

theorem depth_append (chain : CallChain) (caller : Caller) :
    (chain.append caller).depth = min (chain.depth + 1) maxDepth := by
  simp [append, depth, length_newest]

def toJson (chain : CallChain) : Json :=
  .object [("original_id", .str chain.originalId), ("original_type", chain.originalType.toJson),
    ("callers", .arr (chain.callers.map Caller.toJson))]

/-- Reads a chain of any length. Callers that are absent or null are none. -/
def ofJson (value : Json) : Decoded CallChain := do
  let originalId ← value.requiredText "original_id"
  let originalType ← IdentityType.ofJson (← value.required "original_type")
  let callers ← value.listIfPresent "callers" fun callers => do
    (← callers.asItems).mapM Caller.ofJson
  return ⟨originalId, originalType, callers⟩

end CallChain

end AgentKit
