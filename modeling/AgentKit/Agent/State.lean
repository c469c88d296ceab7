/-
# Lifecycle states

An agent is in one of seven states, and a table says to which states it can
move from each. Stopped and failed agents rest until they are started again. A
number that stands for no state is kept as `unlisted`; no agent is ever in such
a state, because nothing moves there.
-/

import AgentKit.Json.Decode

namespace AgentKit

/-- The states of an agent. -/
inductive AgentState
  | unknown
  | starting
  | running
  | paused
  | stopping
  | stopped
  | failed
  | unlisted (index : Int)
  deriving DecidableEq

namespace AgentState

/-- The states in the order of their numbers. -/
def all : List AgentState := [unknown, starting, running, paused, stopping, stopped, failed]

def name : AgentState → String
  | unknown => "unknown"
  | starting => "starting"
  | running => "running"
  | paused => "paused"
  | stopping => "stopping"
  | stopped => "stopped"
  | failed => "failed"
  | unlisted _ => "invalid"

def index : AgentState → Int
  | unknown => 0
  | starting => 1
  | running => 2
  | paused => 3
  | stopping => 4
  | stopped => 5
  | failed => 6
  | unlisted index => index

/-- The state with a number. -/
def ofIndex (index : Int) : AgentState :=
  (all.find? fun state => state.index = index).getD (unlisted index)

/-- The state with a name. -/
def ofName? (name : String) : Option AgentState :=
  all.find? fun state => state.name = name

def isValid (state : AgentState) : Bool :=
  all.contains state

/-- Terminal states are left only by a new start. -/
def isTerminal : AgentState → Bool
  | stopped | failed => true
  | _ => false

/-- The states that can follow a state. -/
def targets : AgentState → List AgentState
  | unknown => [starting, failed]
  | starting => [running, failed, stopping]
  | running => [paused, stopping, failed]
  | paused => [running, stopping, failed]
  | stopping => [stopped, failed]
  | stopped => [starting]
  | failed => [starting]
  | unlisted _ => []

/-- Whether an agent can move from one state to another. -/
def canMoveTo (source target : AgentState) : Bool :=
  source ≠ target && source.targets.contains target

theorem mem_all_of_canMoveTo {source target : AgentState} (move : source.canMoveTo target) :
    target ∈ all := by
  cases source <;> cases target <;> simp_all [canMoveTo, targets, all]

/-- Every state that is not terminal can fail. -/
theorem canMoveTo_failed_iff {source : AgentState} :
    source.canMoveTo .failed ↔ source ∈ all ∧ ¬ source.isTerminal := by
  cases source <;> simp [canMoveTo, targets, all, isTerminal]

theorem canMoveTo_running_iff {source : AgentState} :
    source.canMoveTo running ↔ source = starting ∨ source = paused := by
  cases source <;> simp [canMoveTo, targets]

theorem canMoveTo_paused_iff {source : AgentState} :
    source.canMoveTo paused ↔ source = running := by
  cases source <;> simp [canMoveTo, targets]

def toJson (state : AgentState) : Json :=
  .str state.name

def ofJson : Json → Decoded AgentState
  | .str name =>
    match ofName? name with
    | some state => .ok state
    | none => .error (.invalid ("unknown lifecycle state " ++ Text.quoted name))
  | _ => .error (.invalid "lifecycle state must be a JSON string")

end AgentState

end AgentKit
