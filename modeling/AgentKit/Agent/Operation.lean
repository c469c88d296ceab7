/-
# The sections of an operation

An operation is carried out in sections, between which other calls may come in:

1. at the gate the context is asked whether it is done;
2. a stop looks whether the agent is stopped already, and then has nothing to
   do;
3. on commencement, a start or stop enters its transient state, and a pause or
   resume checks that it may be carried out;
4. the hook runs, without any lock;
5. on settlement, the agent moves to the operation's target state, or, if the
   hook failed, to the failed state as far as the table of states allows.

Each function here is one section. Running a call from beginning to end and
interleaving the sections of several calls are both put together from them.
-/

import AgentKit.Agent.Basic

namespace AgentKit

/-- How a hook ends: it returns a result, it throws with a text, or it throws
something without one. -/
inductive HookOutcome
  | returned (result : Except Error Unit)
  | threw (text : String)
  | threwOther

/-- The result a hook counts as having returned. -/
def HookOutcome.result : HookOutcome → Except Error Unit
  | returned result => result
  | threw text => .error (.make .internal ("hook threw: " ++ Text.untilNul text))
  | threwOther => .error (.make .internal "hook threw a non-standard exception")

namespace Operation

def name : Operation → String
  | start => "start"
  | stop => "stop"
  | pause => "pause"
  | resume => "resume"

/-- The name of an operation that is being carried out. -/
def progressiveName : Operation → String
  | start => "starting"
  | stop => "stopping"
  | pause => "pausing"
  | resume => "resuming"

/-- The name of an operation that has been carried out. -/
def perfectName : Operation → String
  | start => "started"
  | stop => "stopped"
  | pause => "paused"
  | resume => "resumed"

/-- The state that an agent is in while the hook runs, where the operation has
such a state of its own. -/
def transient? : Operation → Option AgentState
  | start => some .starting
  | stop => some .stopping
  | pause => none
  | resume => none

/-- The state that an operation leads to. -/
def target : Operation → AgentState
  | start => .running
  | stop => .stopped
  | pause => .paused
  | resume => .running

/-- What a completed operation does to the recorded start time. -/
def startTime (now : Instant) : Operation → StartTime
  | start => .record now
  | stop => .erase
  | pause => .keep
  | resume => .keep

/-- A call whose context is done is refused at the gate. -/
def refusal? (operation : Operation) (contextError : Option Error) : Option Error :=
  contextError.map fun error =>
    error.wrapping .timeout ("lifecycle: " ++ operation.name ++ " canceled before execution")

/-- Stopping a stopped agent is complete at once. -/
def isComplete (operation : Operation) (state : AgentState) : Bool :=
  operation = stop && state = .stopped

/-- Whether an operation without a transient state may be carried out. A resume
wants a paused agent, although a starting one could move to running too. -/
def precondition (operation : Operation) (state : AgentState) : Bool :=
  state.canMoveTo operation.target && (operation ≠ resume || state = .paused)

variable {H : Type}

/-- The record of an operation that begins. A start also tells the version. -/
def beginRecord (operation : Operation) (profile : Profile H) : List Notice :=
  profile.record .info
    ("lifecycle: " ++ operation.progressiveName ++ " agent" ++ profile.tag
      ++ if operation = start then " agent_version=" ++ profile.version else "")

/-- The record of an operation that is complete. -/
def endRecord (operation : Operation) (profile : Profile H) : List Notice :=
  profile.record .info ("lifecycle: agent " ++ operation.perfectName ++ profile.tag)

/-- Commencement: enters the transient state or checks the precondition. -/
def commence (operation : Operation) (profile : Profile H) (vitals : Vitals) : LockedSection :=
  let entry : LockedSection :=
    match operation.transient? with
    | some transient => profile.setState vitals transient
    | none =>
      if operation.precondition vitals.state then ⟨vitals, [], .ok ()⟩
      else ⟨vitals, [], .error (Vitals.invalidMove vitals.state operation.target)⟩
  match entry.result with
  | .ok () => { entry with notices := entry.notices ++ operation.beginRecord profile }
  | .error _ => entry

/-- Settlement after a hook that succeeded: moves to the target state. -/
def complete (operation : Operation) (profile : Profile H) (vitals : Vitals) (now : Instant) :
    LockedSection :=
  let commit := profile.move vitals operation.target (operation.startTime now)
  match commit.result with
  | .ok () => { commit with notices := commit.notices ++ operation.endRecord profile }
  | .error _ => commit

/-- The record of a hook that failed. -/
def failureRecord (operation : Operation) (profile : Profile H) (cause : Error) : List Notice :=
  profile.record .error
    ("lifecycle: " ++ operation.name ++ " hook failed agent_id=" ++ profile.id ++ " error="
      ++ cause.text)

/-- The record of an agent that could not be moved to the failed state. -/
def rejectionRecord (profile : Profile H) (rejection : Error) : List Notice :=
  profile.record .warn
    ("lifecycle: could not mark agent failed agent_id=" ++ profile.id ++ " error="
      ++ rejection.text)

/-- Settlement after a hook that failed: moves to the failed state if possible,
and reports the hook's error in any case. -/
def abort (operation : Operation) (profile : Profile H) (vitals : Vitals) (cause : Error) :
    LockedSection :=
  let marking := profile.setState vitals .failed
  let rejected :=
    match marking.result with
    | .ok () => []
    | .error rejection => rejectionRecord profile rejection
  ⟨marking.vitals, operation.failureRecord profile cause ++ marking.notices ++ rejected,
    .error (cause.wrapping .internal ("lifecycle: " ++ operation.name ++ " hook failed"))⟩

/-- Settlement after the hook, whichever way it ended. -/
def settle (operation : Operation) (profile : Profile H) (vitals : Vitals) (now : Instant)
    (outcome : HookOutcome) : LockedSection :=
  match outcome.result with
  | .ok () => operation.complete profile vitals now
  | .error cause => operation.abort profile vitals cause

end Operation

end AgentKit
