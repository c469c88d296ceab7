/-
# Sessions

A session is a number of named agents with the contexts of their callers. Calls
are made one at a time, but the hooks of a call can make calls of their own, to
the same agent or to others, which run within it. Everything that can be
noticed is written down in order.

Hooks that call each other without end would never return. A session lets them
nest to a limit, and a request beyond it, or one that names an agent or context
that does not exist, has no answer at all.
-/

import AgentKit.Agent.Program
import AgentKit.Context.Basic

namespace AgentKit

/-- What happens in a session: an agent is noticed, a hook is entered, with the
state of its owner and the error of its context, or a hook is given an
answer. -/
inductive SessionEvent
  | noticed (notice : Notice)
  | entered (operation : Operation) (state : AgentState) (contextError : Option Error)
  | answered (request : Request) (reply : Reply)

/-- Named agents and contexts, how often each hook has been entered, the two
clocks, and what has happened, last event first. -/
structure Session where
  agents : List (String × Agent Hook) := []
  contexts : Contexts := {}
  contextNames : List (String × Context) := []
  entries : List ((String × Operation) × Nat) := []
  now : Instant
  monotonicNow : Int
  reversedEvents : List SessionEvent := []

/-- An activity in a session, which may have no outcome. -/
abbrev SessionM := StateT Session Option

namespace Session

/-- Hooks nest at most this deep. -/
def nestingLimit : Nat := 1000

/-- Adds an agent, in place of an earlier one with its name. -/
def addAgent (session : Session) (name : String) (agent : Agent Hook) : Session :=
  { session with agents := Fields.insert name agent session.agents }

/-- Adds a named context. -/
def addContext (session : Session) (name : String)
    (make : Contexts → Context × Contexts) : Session :=
  let (context, contexts) := make session.contexts
  { session with contexts, contextNames := Fields.insert name context session.contextNames }

/-- What has happened, in order. -/
def events (session : Session) : List SessionEvent :=
  session.reversedEvents.reverse

/-- The session with nothing written down. -/
def forgetEvents (session : Session) : Session :=
  { session with reversedEvents := [] }

/-- How often a hook has been entered. -/
def entryCount (session : Session) (owner : String) (operation : Operation) : Nat :=
  (session.entries.lookup (owner, operation)).getD 0

/-! ## Steps -/

/-- The agent with a name. -/
def agent (name : String) : SessionM (Agent Hook) := do
  (Fields.find? name (← get).agents : Option _)

/-- The context with a name. -/
def context (name : String) : SessionM Context := do
  (Fields.find? name (← get).contextNames : Option _)

/-- The error of a context now. -/
def contextError (context : Context) : SessionM (Option Error) := do
  let session ← get
  return session.contexts.err context session.monotonicNow

/-- Writes down an event. -/
def write (event : SessionEvent) : SessionM Unit :=
  modify fun session => { session with reversedEvents := event :: session.reversedEvents }

/-- Lets a locked section of an agent take effect. -/
def perform (name : String) (agent : Agent Hook) (locked : LockedSection) :
    SessionM (Except Error Unit) := do
  modify fun session => session.addAgent name { agent with vitals := locked.vitals }
  locked.notices.forM fun notice => write (.noticed notice)
  return locked.result

/-- Cancels a named context. -/
def cancel (name : String) : SessionM Unit := do
  let context ← context name
  modify fun session => { session with contexts := session.contexts.cancel context }

/-- Changes the state of an agent directly. -/
def setState (name : String) (target : AgentState) : SessionM (Except Error Unit) := do
  let agent ← agent name
  perform name agent (agent.profile.setState agent.vitals target)

/-- Changes the state of an agent directly a number of times, and counts the
changes that succeed. -/
def countWins (name : String) (target : AgentState) : Nat → SessionM Nat
  | 0 => return 0
  | callers + 1 => do
    match ← setState name target with
    | .ok () => return (← countWins name target callers) + 1
    | .error _ => countWins name target callers

/-- Carries out an operation section by section, where `enter` enters the
hook. -/
def operate (enter : Hook → Operation → Context → SessionM HookOutcome) (name : String)
    (operation : Operation) (context : Context) : SessionM (Except Error Unit) := do
  let before ← agent name
  match operation.refusal? (← contextError context) with
  | some refusal => return .error refusal
  | none =>
    if operation.isComplete before.state then return .ok ()
    else
      match ← perform name before (operation.commence before.profile before.vitals) with
      | .error error => return .error error
      | .ok () =>
        let outcome ←
          match before.profile.hooks.get operation with
          | some hook => enter hook operation context
          | none => pure (.returned (.ok ()))
        let after ← agent name
        perform name after
          (operation.settle after.profile after.vitals (← get).now outcome)

/-- Answers a request, where `enter` enters hooks. -/
def answerWith (enter : Hook → Operation → Context → SessionM HookOutcome) :
    Request → SessionM Reply
  | .operate name operation contextName => do
    return .done (← operate enter name operation (← context contextName))
  | .setState name target => return .done (← setState name target)
  | .health name => return .done (← agent name).health
  | .state name => return .state (← agent name).state
  | .info name => return .info ((← agent name).info (← get).now)
  | .identity name => do
    let profile := (← agent name).profile
    return .identity profile.id profile.name profile.version
  | .capabilities name => return .capabilities (← agent name).capabilities
  | .race name callers target => do
    let wins ← countWins name target callers
    return .race wins (callers - wins)

/-- Runs a hook's program with the context of its call. -/
def runProgram (answer : Request → SessionM Reply) (context : Context) :
    Program → SessionM HookOutcome
  | .finish outcome => return outcome
  | .cancel name next => do
    cancel name
    runProgram answer context next
  | .look next => do
    runProgram answer context (next (← contextError context))
  | .ask request next => do
    let reply ← answer request
    write (.answered request reply)
    runProgram answer context (next reply)

/-- Enters a hook and runs its program. The calls it makes may enter hooks to
the given depth. -/
def enterHook : (depth : Nat) → Hook → Operation → Context → SessionM HookOutcome
  | 0, _, _, _ => failure
  | depth + 1, hook, operation, context => do
    let count := (← get).entryCount hook.owner operation
    modify fun session =>
      { session with entries := ((hook.owner, operation), count + 1) :: session.entries }
    write (.entered operation (← agent hook.owner).state (← contextError context))
    runProgram (answerWith (enterHook depth)) context (hook.program count)

/-- Answers a request from outside. -/
def answer (request : Request) : SessionM Reply :=
  answerWith (enterHook nestingLimit) request

end Session

end AgentKit
