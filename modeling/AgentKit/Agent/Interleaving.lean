/-
# Interleaved calls

Any number of callers can use one agent at the same time, and a hook that calls
its own agent is one more of them. Only the sections of a call are carried out
without interruption: between two of them sections of other calls can come in,
in any number and order.

A call is known by its place among all calls that were made. What it learns from
outside, which is the error of its context, the end of its hook and the time, is
anything there can be. The history keeps every section that was carried out, with
the vitals it found and what it did to them.
-/

import AgentKit.Agent.Operation

namespace AgentKit

/-- What an agent is called for. -/
inductive Call
  | setState (target : AgentState)
  | operate (operation : Operation)
  deriving DecidableEq

/-- How far a call has got. A call that has returned is still known with its
result. -/
inductive CallStage
  | setting (target : AgentState)
  | atGate (operation : Operation)
  | admitted (operation : Operation)
  | commencing (operation : Operation)
  | inHook (operation : Operation)
  | settling (operation : Operation) (outcome : HookOutcome)
  | returned (call : Call) (result : Except Error Unit)

/-- The stage a call begins at. -/
def Call.firstStage : Call → CallStage
  | setState target => .setting target
  | operate operation => .atGate operation

namespace CallStage

/-- The call that has got to a stage. -/
def call : CallStage → Call
  | setting target => .setState target
  | atGate operation => .operate operation
  | admitted operation => .operate operation
  | commencing operation => .operate operation
  | inHook operation => .operate operation
  | settling operation _ => .operate operation
  | returned call _ => call

def HasReturned : CallStage → Prop
  | returned _ _ => True
  | _ => False

/-- The call has commenced the operation and has not settled it yet. -/
def IsUnsettled (operation : Operation) (stage : CallStage) : Prop :=
  stage = inHook operation ∨ ∃ outcome, stage = settling operation outcome

end CallStage

/-- A section of a call with what it learns from outside. A direct change of
state has one section only. -/
inductive CallSection
  | setState (target : AgentState)
  | gate (operation : Operation) (contextError : Option Error)
  | inspect (operation : Operation)
  | commence (operation : Operation)
  | leaveHook (operation : Operation) (outcome : HookOutcome)
  | settle (operation : Operation) (outcome : HookOutcome) (now : Instant)

namespace CallSection

variable {H : Type}

/-- The stage of a call at which a section comes next. -/
def dueAt : CallSection → CallStage
  | setState target => .setting target
  | gate operation _ => .atGate operation
  | inspect operation => .admitted operation
  | commence operation => .commencing operation
  | leaveHook operation _ => .inHook operation
  | settle operation outcome _ => .settling operation outcome

/-- A hook that is not there succeeds. All else can happen. -/
def IsPossible (profile : Profile H) : CallSection → Prop
  | leaveHook operation outcome =>
    profile.hooks.get operation = none → outcome = .returned (.ok ())
  | _ => True

/-- What a section does, and whether it lets the call go on. Only some sections
are locked; the others leave the agent alone. -/
def carryOut (profile : Profile H) (vitals : Vitals) : CallSection → LockedSection
  | setState target => profile.setState vitals target
  | gate operation contextError =>
    match operation.refusal? contextError with
    | some refusal => ⟨vitals, [], .error refusal⟩
    | none => ⟨vitals, [], .ok ()⟩
  | inspect _ => ⟨vitals, [], .ok ()⟩
  | commence operation => operation.commence profile vitals
  | leaveHook _ _ => ⟨vitals, [], .ok ()⟩
  | settle operation outcome now => operation.settle profile vitals now outcome

/-- The stage of a call after a section, which found the agent in a state and
had a result. -/
def nextStage (state : AgentState) (result : Except Error Unit) : CallSection → CallStage
  | setState target => .returned (.setState target) result
  | gate operation _ =>
    match result with
    | .ok () => .admitted operation
    | .error refusal => .returned (.operate operation) (.error refusal)
  | inspect operation =>
    if operation.isComplete state then .returned (.operate operation) (.ok ())
    else .commencing operation
  | commence operation =>
    match result with
    | .ok () => .inHook operation
    | .error error => .returned (.operate operation) (.error error)
  | leaveHook operation outcome => .settling operation outcome
  | settle operation _ _ => .returned (.operate operation) result

end CallSection

/-- A section that a call has carried out. -/
structure Turn where
  caller : Nat
  part : CallSection
  before : Vitals
  outcome : LockedSection

/-- Calls to one agent, with all that has been done for them. -/
structure Interleaving where
  vitals : Vitals
  calls : List CallStage := []
  history : List Turn := []

namespace Interleaving

variable {H : Type}

/-- What can happen next: a call is made, or one of the calls gets on by a
section. -/
inductive Event
  | made (call : Call)
  | turn (caller : Nat) (part : CallSection)

/-- Whether an event can happen now. Calls can be made at any time. -/
def Admits (profile : Profile H) (interleaving : Interleaving) : Event → Prop
  | .made _ => True
  | .turn caller part =>
    interleaving.calls[caller]? = some part.dueAt ∧ part.IsPossible profile

/-- The turn in which a call carries out a section now. -/
def turn (profile : Profile H) (interleaving : Interleaving) (caller : Nat)
    (part : CallSection) : Turn :=
  ⟨caller, part, interleaving.vitals, part.carryOut profile interleaving.vitals⟩

/-- Calls after an event. -/
def after (profile : Profile H) (interleaving : Interleaving) : Event → Interleaving
  | .made call => { interleaving with calls := interleaving.calls ++ [call.firstStage] }
  | .turn caller part =>
    let turn := interleaving.turn profile caller part
    { vitals := turn.outcome.vitals
      calls := interleaving.calls.set caller
        (part.nextStage turn.before.state turn.outcome.result)
      history := interleaving.history ++ [turn] }

/-- Calls after a number of events. -/
def afterAll (profile : Profile H) (interleaving : Interleaving) (events : List Event) :
    Interleaving :=
  events.foldl (after profile) interleaving

/-- Whether events can happen one after the other. -/
def AdmitsAll (profile : Profile H) (interleaving : Interleaving) : List Event → Prop
  | [] => True
  | event :: events =>
    interleaving.Admits profile event ∧ (interleaving.after profile event).AdmitsAll profile events

end Interleaving

/-- The interleavings that an agent can come to, from no calls on. -/
inductive Agent.Run {H : Type} (agent : Agent H) : Interleaving → Prop
  | begin : agent.Run { vitals := agent.vitals }
  | next {interleaving : Interleaving} (run : agent.Run interleaving)
      (event : Interleaving.Event) (admitted : interleaving.Admits agent.profile event) :
      agent.Run (interleaving.after agent.profile event)

/-- The calls to an agent after a number of events from the first on. -/
def Agent.interleaved {H : Type} (agent : Agent H) (events : List Interleaving.Event) :
    Interleaving :=
  Interleaving.afterAll agent.profile { vitals := agent.vitals } events

/-- Events that can happen one after the other lead from one run to the next. -/
theorem Agent.Run.afterAll {H : Type} {agent : Agent H} {interleaving : Interleaving}
    (run : agent.Run interleaving) {events : List Interleaving.Event}
    (admitted : interleaving.AdmitsAll agent.profile events) :
    agent.Run (interleaving.afterAll agent.profile events) := by
  induction events generalizing interleaving with
  | nil => exact run
  | cons event events ih => exact ih (run.next event admitted.1) admitted.2

end AgentKit
