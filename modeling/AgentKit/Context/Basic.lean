/-
# Contexts

A context accompanies a request. It can be cancelled, it can have a deadline,
and it can carry values. Contexts are derived from one another, and a derived
context shares the fate of those it comes from: it is cancelled when one of
them is, and the earliest of all their deadlines is its own. The other way
round nothing is shared.

A context knows its lineage, which never changes. The one thing that changes is
which contexts have been cancelled, and that is kept for all of them together in
`Contexts`. A copy of a context is the same context.
-/

import AgentKit.Identity.CallChain

namespace AgentKit

/-- The places where a context can carry a value: one for the identity behind
the request, one for the service that made the current call, one for its call
chain, and any number of named ones for other uses. -/
inductive Slot
  | named (name : String)
  | identity
  | callerService
  | callChain
  deriving DecidableEq

/-- What is carried in a slot. -/
def Slot.Value : Slot → Type
  | named _ => String
  | identity => Identity
  | callerService => String
  | callChain => CallChain

/-- A value put in a slot. It may be missing, and then the slot is as if it had
not been touched. -/
structure Binding where
  slot : Slot
  value : Option slot.Value

/-- The value that a binding puts in a slot. -/
def Binding.valueAt? (slot : Slot) (binding : Binding) : Option slot.Value :=
  if same : binding.slot = slot then same ▸ binding.value else none

/-- What a context adds to the one it is derived from. Deadlines are in
nanoseconds of the monotonic clock. -/
structure ContextNode where
  id : Nat
  deadline : Option Int := none
  binding : Option Binding := none

/-- A context with those it is derived from, nearest first. -/
structure Context where
  node : ContextNode
  ancestors : List ContextNode

namespace Context

/-- The context itself and those it is derived from, nearest first. -/
def lineage (context : Context) : List ContextNode :=
  context.node :: context.ancestors

/-- The earliest deadline of the lineage. -/
def deadline (context : Context) : Option Int :=
  (context.lineage.filterMap (·.deadline)).min?

/-- Whether the deadline has been reached at a time. -/
def deadlineExceeded (context : Context) (now : Int) : Bool :=
  context.deadline.any fun deadline => deadline ≤ now

/-- The nearest value in a slot. -/
def value? (context : Context) (slot : Slot) : Option slot.Value :=
  context.lineage.findSome? fun node => node.binding.bind (Binding.valueAt? slot)

end Context

/-- How many contexts have been made, and which of them have been cancelled. -/
structure Contexts where
  made : Nat := 0
  cancelled : List Nat := []

namespace Contexts

/-- A context derived from nothing. -/
def background (contexts : Contexts) : Context × Contexts :=
  (⟨{ id := contexts.made }, []⟩, { contexts with made := contexts.made + 1 })

/-- A context derived from another, with what it adds to it. -/
def derive (contexts : Contexts) (parent : Context) (deadline : Option Int)
    (binding : Option Binding) : Context × Contexts :=
  (⟨⟨contexts.made, deadline, binding⟩, parent.lineage⟩,
    { contexts with made := contexts.made + 1 })

/-- A context that can be cancelled without its parent. -/
def withCancel (contexts : Contexts) (parent : Context) : Context × Contexts :=
  contexts.derive parent none none

/-- A context with a deadline of its own. -/
def withDeadline (contexts : Contexts) (parent : Context) (deadline : Int) : Context × Contexts :=
  contexts.derive parent (some deadline) none

/-- A context whose deadline is so many nanoseconds from now, in a 64-bit count: a while
that is too long for the clock leads back to the past. -/
def withTimeout (contexts : Contexts) (parent : Context) (now timeout : Int) :
    Context × Contexts :=
  contexts.withDeadline parent (wrap64 (now + timeout))

/-- A context that carries a value. -/
def withValue (contexts : Contexts) (parent : Context) (slot : Slot) (value : Option slot.Value) :
    Context × Contexts :=
  contexts.derive parent none (some ⟨slot, value⟩)

/-- Cancels a context and with it all contexts derived from it, now or later. -/
def cancel (contexts : Contexts) (context : Context) : Contexts :=
  { contexts with cancelled := context.node.id :: contexts.cancelled }

/-- Whether a context or one it is derived from has been cancelled. -/
def isCancelled (contexts : Contexts) (context : Context) : Bool :=
  context.lineage.any fun node => contexts.cancelled.contains node.id

/-- Why a context is done at a time, if it is. Cancellation comes before the
deadline. -/
def err (contexts : Contexts) (context : Context) (now : Int) : Option Error :=
  if contexts.isCancelled context then some (.make .timeout "context canceled")
  else if context.deadlineExceeded now then some (.make .timeout "context deadline exceeded")
  else none

/-- Cancelling reaches the contexts that have the cancelled one in their
lineage, and no others. -/
theorem isCancelled_cancel (contexts : Contexts) (context other : Context) :
    (contexts.cancel context).isCancelled other
      ↔ contexts.isCancelled other ∨ ∃ node ∈ other.lineage, node.id = context.node.id := by
  simp only [isCancelled, cancel, List.any_eq_true, List.contains_iff_mem, List.mem_cons]
  constructor
  · rintro ⟨node, member, same | cancelled⟩
    · exact Or.inr ⟨node, member, same⟩
    · exact Or.inl ⟨node, member, cancelled⟩
  · rintro (⟨node, member, cancelled⟩ | ⟨node, member, same⟩)
    · exact ⟨node, member, Or.inr cancelled⟩
    · exact ⟨node, member, Or.inl same⟩

end Contexts

end AgentKit
