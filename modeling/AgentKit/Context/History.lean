/-
# Histories of contexts

Contexts are obtained, copied and cancelled by many parties, in any order. Whoever
obtains a context holds it by a handle, and handles are known by their places among
all that were ever given out. A copy is one more handle to the same context.

A history keeps for every handle how it was obtained, and every handle by which a
context has been cancelled. Clocks can be read at any time; what a timeout finds the
time to be is part of the derivation.
-/

import AgentKit.Context.Carried

namespace AgentKit

/-- The ways to derive a context from another. -/
inductive Derivation
  | withCancel
  | withDeadline (deadline : Int)
  | withTimeout (now timeout : Int)
  | withValue (slot : Slot) (value : Option slot.Value)
  | withIdentity (identity : Option Identity)
  | withCallerService (serviceName : String)
  | withCallChain (chain : CallChain)

namespace Derivation

/-- The context derived from a parent. -/
def make (derivation : Derivation) (contexts : Contexts) (parent : Context) : Context × Contexts :=
  match derivation with
  | withCancel => contexts.withCancel parent
  | withDeadline deadline => contexts.withDeadline parent deadline
  | withTimeout now timeout => contexts.withTimeout parent now timeout
  | withValue slot value => contexts.withValue parent slot value
  | withIdentity identity => contexts.withIdentity parent identity
  | withCallerService serviceName => contexts.withCallerService parent serviceName
  | withCallChain chain => contexts.withCallChain parent chain

/-- The deadline that is given with a derivation. -/
def deadline? : Derivation → Option Int
  | withDeadline deadline => some deadline
  | withTimeout now timeout => some (wrap64 (now + timeout))
  | _ => none

/-- What is put in a slot with a derivation. -/
def binding? : Derivation → Option Binding
  | withValue slot value => some ⟨slot, value⟩
  | withIdentity identity => some ⟨.identity, identity⟩
  | withCallerService serviceName => some ⟨.callerService, some serviceName⟩
  | withCallChain chain => some ⟨.callChain, some chain⟩
  | _ => none

/-- Derivations differ in what they give to the new context, and in nothing else. -/
theorem make_eq (derivation : Derivation) (contexts : Contexts) (parent : Context) :
    derivation.make contexts parent =
      contexts.derive parent derivation.deadline? derivation.binding? := by
  cases derivation <;> rfl

end Derivation

/-- How a handle is obtained. Other handles are named by their places. -/
inductive Origin
  | background
  | copy (source : Nat)
  | derived (parent : Nat) (derivation : Derivation)

namespace Origin

/-- The deadline that was given when the handle was obtained. -/
def deadline? : Origin → Option Int
  | derived _ derivation => derivation.deadline?
  | _ => none

/-- A handle to a context that was there before. -/
def IsCopy : Origin → Prop
  | copy _ => True
  | _ => False

end Origin

/-- A context with how its holder has come by it. -/
structure Handle where
  origin : Origin
  context : Context

/-- What can be done with contexts. -/
inductive ContextAction
  | acquire (origin : Origin)
  | cancel (place : Nat)

/-- All handles in the order in which they were given out, and those by which a
context has been cancelled, last one first. -/
structure ContextHistory where
  contexts : Contexts := {}
  handles : List Handle := []
  cancels : List Nat := []

namespace ContextHistory

/-- The context that is held by a handle. -/
def context? (history : ContextHistory) (place : Nat) : Option Context :=
  history.handles[place]?.map Handle.context

/-- The context that a new handle is for. -/
def make? (history : ContextHistory) : Origin → Option (Context × Contexts)
  | .background => some history.contexts.background
  | .copy source => (history.context? source).map fun context => (context, history.contexts)
  | .derived parent derivation =>
    (history.context? parent).map (derivation.make history.contexts)

/-- The history after an action. Nothing can be done by a handle that has not been
given out. -/
def after? (history : ContextHistory) : ContextAction → Option ContextHistory
  | .acquire origin =>
    (history.make? origin).map fun (context, contexts) =>
      { history with contexts, handles := history.handles ++ [⟨origin, context⟩] }
  | .cancel place =>
    (history.context? place).map fun context =>
      { history with
        contexts := history.contexts.cancel context, cancels := place :: history.cancels }

/-- A history goes on to another by any number of actions. -/
inductive LeadsTo (history : ContextHistory) : ContextHistory → Prop
  | refl : history.LeadsTo history
  | next {middle later : ContextHistory} (onwards : history.LeadsTo middle)
      (action : ContextAction) (done : middle.after? action = some later) :
      history.LeadsTo later

/-- The histories that there can be, from no contexts on. -/
def IsPossible (history : ContextHistory) : Prop :=
  LeadsTo {} history

/-- The history after a number of actions, or without them if one of them cannot be
carried out. -/
def afterAll (history : ContextHistory) (actions : List ContextAction) : ContextHistory :=
  (actions.foldlM after? history).getD history

theorem leadsTo_of_foldlM {history middle later : ContextHistory} {actions : List ContextAction}
    (onwards : history.LeadsTo middle) (done : actions.foldlM after? middle = some later) :
    history.LeadsTo later := by
  induction actions generalizing middle with
  | nil =>
      cases done
      exact onwards
  | cons action actions ih =>
      obtain ⟨next, first, rest⟩ := Option.bind_eq_some_iff.mp done
      exact ih (onwards.next action first) rest

theorem leadsTo_afterAll (history : ContextHistory) (actions : List ContextAction) :
    history.LeadsTo (history.afterAll actions) := by
  unfold afterAll
  cases done : actions.foldlM after? history with
  | none => exact .refl
  | some later => exact leadsTo_of_foldlM .refl done

end ContextHistory

end AgentKit
