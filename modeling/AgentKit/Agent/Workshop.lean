/-
# A builder at work

One builder can build agents again and again. Between two builds it is given
more, and the agents it has built are called, by any number of callers at a
time. All this happens in any order, also from within hooks.

An agent is known by its place among all agents that were built. A build that
fails leaves no agent.
-/

import AgentKit.Agent.Builder
import AgentKit.Agent.Interleaving

namespace AgentKit

/-- What a builder can be given. A logger, a hook and an observer may also be
missing ones. -/
inductive Addition (H : Type)
  | capability (capability : Capability)
  | capabilities (capabilities : List Capability)
  | logger (isThere : Bool)
  | hook (operation : Operation) (hook : Option H)
  | observer (observer : Option Observer)

namespace AgentBuilder

variable {H : Type} (builder : AgentBuilder H)

/-- The builder that has been given one thing more. -/
def add : Addition H → AgentBuilder H
  | .capability capability => builder.withCapability capability
  | .capabilities capabilities => builder.withCapabilities capabilities
  | .logger isThere => builder.withLogger isThere
  | .hook operation hook => builder.withHook operation hook
  | .observer observer => builder.onStateChange observer

/-- The builder that has been given a number of things. -/
def addAll (additions : List (Addition H)) : AgentBuilder H :=
  additions.foldl add builder

end AgentBuilder

/-- An agent that was built, with the calls to it. -/
structure BuiltAgent (H : Type) where
  profile : Profile H
  interleaving : Interleaving

namespace BuiltAgent

variable {H : Type}

/-- An agent as it comes from its builder, before the first call. -/
def uncalled (agent : Agent H) : BuiltAgent H :=
  ⟨agent.profile, { vitals := agent.vitals }⟩

/-- The agent as it is found now. -/
def current (built : BuiltAgent H) : Agent H :=
  ⟨built.profile, built.interleaving.vitals⟩

/-- The agent after an event among its calls. -/
def after (built : BuiltAgent H) (event : Interleaving.Event) : BuiltAgent H :=
  { built with interleaving := built.interleaving.after built.profile event }

end BuiltAgent

/-- A builder with the agents that it has built. -/
structure Workshop (H : Type) where
  builder : AgentBuilder H
  agents : List (BuiltAgent H) := []

namespace Workshop

variable {H : Type}

/-- What can happen next: the builder is given something or builds an agent, or
one of the agents has an event among its calls. -/
inductive Event (H : Type)
  | add (addition : Addition H)
  | build
  | call (place : Nat) (event : Interleaving.Event)

/-- A new builder, which has built nothing so far. -/
def opened (id name version : String) : Workshop H :=
  { builder := { id, name, version } }

/-- Whether an event can happen now. The builder can be used at any time. -/
def Admits (workshop : Workshop H) : Event H → Prop
  | .add _ => True
  | .build => True
  | .call place event =>
    ∃ built, workshop.agents[place]? = some built ∧
      built.interleaving.Admits built.profile event

/-- Builder and agents after an event. -/
def after (workshop : Workshop H) : Event H → Workshop H
  | .add addition => { workshop with builder := workshop.builder.add addition }
  | .build =>
    match workshop.builder.build with
    | .ok agent => { workshop with agents := workshop.agents ++ [.uncalled agent] }
    | .error _ => workshop
  | .call place event =>
    { workshop with agents := workshop.agents.modify place (·.after event) }

theorem after_build_of_ok {workshop : Workshop H} {agent : Agent H}
    (built : workshop.builder.build = .ok agent) :
    workshop.after .build =
      { workshop with agents := workshop.agents ++ [.uncalled agent] } := by
  simp only [after, built]

theorem after_build_of_error {workshop : Workshop H} {error : Error}
    (refused : workshop.builder.build = .error error) : workshop.after .build = workshop := by
  simp only [after, refused]

/-- Builder and agents after a number of events. -/
def afterAll (workshop : Workshop H) (events : List (Event H)) : Workshop H :=
  events.foldl after workshop

/-- Whether events can happen one after the other. -/
def AdmitsAll (workshop : Workshop H) : List (Event H) → Prop
  | [] => True
  | event :: events => workshop.Admits event ∧ (workshop.after event).AdmitsAll events

end Workshop

end AgentKit
