/-
# Agents

An agent has a profile, which never changes once it is built, and vitals, which
change together and only in a locked section: the lifecycle state and the time
of the last completed start. A locked section checks a move against the table
of states, performs it, and tells the observers, all without interruption.

What observers do cannot influence the agent. An observer that throws leaves an
error record, and the next one is called.
-/

import AgentKit.Agent.Capability
import AgentKit.Agent.State
import AgentKit.Log
import AgentKit.Time.Timestamp

namespace AgentKit

/-- The calls that take an agent through its life, each with a hook. -/
inductive Operation
  | start
  | stop
  | pause
  | resume
  deriving DecidableEq

/-- How the call of an observer ends: it returns, it throws with a text, or it
throws something without one. -/
inductive Reaction
  | returns
  | throws (text : String)
  | throwsOther
  deriving DecidableEq

/-- Someone to be told of every move, under a label. -/
structure Observer where
  label : String
  react : AgentState → AgentState → Reaction

/-- Where the log records of an agent go: to a logger of its own, or to the one that is
common to all who have none. -/
inductive LogTarget
  | own
  | common
  deriving DecidableEq

/-- What others can notice of an agent: its log records and the calls of its
observers. -/
inductive Notice
  | log (target : LogTarget) (level : LogLevel) (text : String)
  | observed (label : String) (source target : AgentState)
  deriving DecidableEq

/-- A hook of type `H` for each operation, or none. -/
@[ext]
structure Hooks (H : Type) where
  start : Option H := none
  stop : Option H := none
  pause : Option H := none
  resume : Option H := none

namespace Hooks

variable {H : Type}

/-- The hook of an operation. -/
def get (hooks : Hooks H) : Operation → Option H
  | .start => hooks.start
  | .stop => hooks.stop
  | .pause => hooks.pause
  | .resume => hooks.resume

/-- The hooks with that of one operation replaced. -/
def set (hooks : Hooks H) (operation : Operation) (hook : Option H) : Hooks H :=
  match operation with
  | .start => { hooks with start := hook }
  | .stop => { hooks with stop := hook }
  | .pause => { hooks with pause := hook }
  | .resume => { hooks with resume := hook }

theorem ext_get {these those : Hooks H}
    (same : ∀ operation, these.get operation = those.get operation) : these = those :=
  Hooks.ext (same .start) (same .stop) (same .pause) (same .resume)

theorem get_set (hooks : Hooks H) (operation other : Operation) (hook : Option H) :
    (hooks.set operation hook).get other = if operation = other then hook else hooks.get other := by
  cases operation <;> cases other <;> rfl

end Hooks

/-- What an agent is built with. An agent without a logger of its own writes to
the common one. An observer may be missing, and then nothing is called in its
place. -/
@[ext]
structure Profile (H : Type) where
  id : String
  name : String
  version : String
  capabilities : List Capability
  hasLogger : Bool
  hooks : Hooks H
  observers : List (Option Observer)

/-- The part of an agent that changes. -/
structure Vitals where
  state : AgentState := .unknown
  startedAt : Option Instant := none
  deriving DecidableEq

/-- An agent. -/
structure Agent (H : Type) where
  profile : Profile H
  vitals : Vitals := {}

/-- What a move does to the recorded start time. -/
inductive StartTime
  | keep
  | record (time : Instant)
  | erase
  deriving DecidableEq

namespace StartTime

/-- The recorded start time after a move. -/
def apply (change : StartTime) (startedAt : Option Instant) : Option Instant :=
  match change with
  | keep => startedAt
  | record time => some time
  | erase => none

end StartTime

/-! ## Moves -/

namespace Vitals

/-- The error for a move that the table of states does not have. -/
def invalidMove (source target : AgentState) : Error :=
  .make .conflict
    ("lifecycle: invalid state transition from " ++ Text.quoted source.name ++ " to "
      ++ Text.quoted target.name)

/-- Moves to a state, and changes the recorded start time with it. -/
def moveTo (vitals : Vitals) (target : AgentState) (startTime : StartTime) : Except Error Vitals :=
  if vitals.state.canMoveTo target then
    .ok ⟨target, startTime.apply vitals.startedAt⟩
  else .error (invalidMove vitals.state target)

end Vitals

/-- The outcome of a locked section: the vitals it leaves, what could be noticed
of it, in order, and whether it succeeded. -/
structure LockedSection where
  vitals : Vitals
  notices : List Notice
  result : Except Error Unit

namespace Profile

variable {H : Type} (profile : Profile H)

/-- The logger that the agent writes to. -/
def logTarget : LogTarget :=
  if profile.hasLogger then .own else .common

/-- A log record. -/
def record (level : LogLevel) (text : String) : List Notice :=
  [.log profile.logTarget level text]

/-- The part of a log record that names the agent. -/
def tag : String := " agent_id=" ++ profile.id ++ " agent_name=" ++ profile.name

/-- The part of an error record that names a move. -/
def moveTag (source target : AgentState) : String :=
  " agent_id=" ++ profile.id ++ " old_state=" ++ source.name ++ " new_state=" ++ target.name

/-- What is noticed of telling one observer of a move. -/
def tell (source target : AgentState) : Option Observer → List Notice
  | none => []
  | some observer =>
    .observed observer.label source target ::
      match observer.react source target with
      | .returns => []
      | .throws text =>
        profile.record .error
          ("lifecycle: state change handler threw" ++ profile.moveTag source target
            ++ " error=" ++ Text.untilNul text)
      | .throwsOther =>
        profile.record .error
          ("lifecycle: state change handler threw a non-standard exception"
            ++ profile.moveTag source target)

/-- What is noticed of telling all observers of a move, in the order of their
registration. -/
def tellAll (source target : AgentState) : List Notice :=
  profile.observers.flatMap (profile.tell source target)

/-- The locked section in which an agent moves to a state. -/
def move (vitals : Vitals) (target : AgentState) (startTime : StartTime) : LockedSection :=
  match vitals.moveTo target startTime with
  | .ok after => ⟨after, profile.tellAll vitals.state target, .ok ()⟩
  | .error error => ⟨vitals, [], .error error⟩

theorem move_of_canMoveTo {vitals : Vitals} {target : AgentState}
    (possible : vitals.state.canMoveTo target) (startTime : StartTime) :
    profile.move vitals target startTime
      = ⟨⟨target, startTime.apply vitals.startedAt⟩, profile.tellAll vitals.state target,
        .ok ()⟩ := by
  simp [move, Vitals.moveTo, possible]

theorem move_of_not_canMoveTo {vitals : Vitals} {target : AgentState}
    (impossible : ¬ vitals.state.canMoveTo target) (startTime : StartTime) :
    profile.move vitals target startTime
      = ⟨vitals, [], .error (Vitals.invalidMove vitals.state target)⟩ := by
  simp [move, Vitals.moveTo, impossible]

/-- The locked section of a direct change of state, which leaves the recorded
start time alone. -/
def setState (vitals : Vitals) (target : AgentState) : LockedSection :=
  profile.move vitals target .keep

end Profile

/-! ## Snapshots -/

/-- What an agent tells about itself. Start time and uptime belong to running
agents only. -/
structure AgentInfo where
  id : String
  name : String
  version : String
  state : AgentState
  capabilities : List Capability
  startedAt : Option Instant
  uptimeMillis : Int

namespace AgentInfo

/-- A snapshot as JSON. Capabilities, start time and uptime are left out if
there are none. -/
def toJson (info : AgentInfo) : Json :=
  .object
    ([("id", .str info.id), ("name", .str info.name), ("version", .str info.version),
      ("state", info.state.toJson)]
    ++ (if info.capabilities.isEmpty then []
      else [("capabilities", .arr (info.capabilities.map Capability.toJson))])
    ++ (info.startedAt.map fun time => ("started_at", Json.str time.render)).toList
    ++ if info.uptimeMillis = 0 then [] else [("uptime_ms", .int info.uptimeMillis)])

end AgentInfo

namespace Agent

variable {H : Type} (agent : Agent H)

def state : AgentState := agent.vitals.state

/-- The start time as far as it is told: that of a running agent. -/
def tellableStart : Option Instant :=
  if agent.state = .running then agent.vitals.startedAt else none

/-- The capabilities that are handed out, which are copies. -/
def capabilities : List Capability :=
  agent.profile.capabilities.map Capability.clone

@[simp]
theorem capabilities_eq : agent.capabilities = agent.profile.capabilities := by
  simp [capabilities, funext Capability.clone_eq]

/-- A snapshot of the agent at a time. -/
def info (now : Instant) : AgentInfo :=
  { id := agent.profile.id
    name := agent.profile.name
    version := agent.profile.version
    state := agent.state
    capabilities := agent.capabilities
    startedAt := agent.tellableStart
    uptimeMillis := (agent.tellableStart.map fun start => start.millisUntil now).getD 0 }

/-- Only a running agent is healthy. -/
def health : Except Error Unit :=
  if agent.state = .running then .ok ()
  else
    .error (.root
      { code := .unavailable
        message :=
          "lifecycle: agent is not running, current state is " ++ Text.quoted agent.state.name
        details := .obj [("state", .str agent.state.name)] })

end Agent

end AgentKit
