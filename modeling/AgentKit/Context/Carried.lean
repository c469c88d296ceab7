/-
# What contexts carry about the caller

Once a request has been authenticated, its context carries the identity behind
it, and downstream also the calling service and the call chain. Each has a slot
of its own.
-/

import AgentKit.Context.Basic

namespace AgentKit

namespace Contexts

/-- A context that carries an identity; a missing one leaves the parent's. -/
def withIdentity (contexts : Contexts) (parent : Context) (identity : Option Identity) :
    Context × Contexts :=
  contexts.withValue parent .identity identity

/-- A context that carries the name of the service that made the current
call. -/
def withCallerService (contexts : Contexts) (parent : Context) (serviceName : String) :
    Context × Contexts :=
  contexts.withValue parent .callerService (some serviceName)

/-- A context that carries the call chain of the request. -/
def withCallChain (contexts : Contexts) (parent : Context) (chain : CallChain) :
    Context × Contexts :=
  contexts.withValue parent .callChain (some chain)

end Contexts

namespace Context

/-- The identity that a context carries. -/
def identity? (context : Context) : Option Identity :=
  context.value? .identity

/-- The service that made the current call. -/
def callerService? (context : Context) : Option String :=
  context.value? .callerService

/-- The call chain of the request. -/
def callChain? (context : Context) : Option CallChain :=
  context.value? .callChain

/-- The identity that a context carries, for code that runs after
authentication. -/
def requireIdentity (context : Context) : Except Error Identity :=
  match context.identity? with
  | some identity => .ok identity
  | none => .error (.make .authentication "auth: no identity in context")

end Context

end AgentKit
