/-
# Building agents

A builder collects what an agent needs and checks it when it builds. It can
build any number of agents, each from what has been collected until then;
what is added later does not reach them.
-/

import AgentKit.Agent.Basic

namespace AgentKit

/-- What has been collected for agents to be built. -/
structure AgentBuilder (H : Type) where
  id : String
  name : String
  version : String
  capabilities : List Capability := []
  hasLogger : Bool := false
  hooks : Hooks H := {}
  observers : List (Option Observer) := []

namespace AgentBuilder

variable {H : Type} (builder : AgentBuilder H)

/-- Adds capabilities behind those collected before. -/
def withCapabilities (capabilities : List Capability) : AgentBuilder H :=
  { builder with capabilities := builder.capabilities ++ capabilities }

/-- Adds one capability. -/
def withCapability (capability : Capability) : AgentBuilder H :=
  builder.withCapabilities [capability]

/-- Gives agents a logger of their own, or takes it away again. -/
def withLogger (isThere : Bool := true) : AgentBuilder H :=
  { builder with hasLogger := isThere }

/-- Sets the hook of an operation in place of an earlier one, or removes it. -/
def withHook (operation : Operation) (hook : Option H) : AgentBuilder H :=
  { builder with hooks := builder.hooks.set operation hook }

/-- Adds an observer behind those registered before. -/
def onStateChange (observer : Option Observer) : AgentBuilder H :=
  { builder with observers := builder.observers ++ [observer] }

/-- A text that agents cannot be built without. -/
def requireText (what value : String) : Except Error Unit :=
  if value.isEmpty then
    .error (.make .validation ("lifecycle: agent " ++ what ++ " must not be empty"))
  else .ok ()

/-- Checks id, name and version; the first fault is reported. -/
def validate : Except Error Unit := do
  requireText "id" builder.id
  requireText "name" builder.name
  requireText "version" builder.version

/-- The profile that agents get as it has been collected. -/
def profile : Profile H :=
  { id := builder.id
    name := builder.name
    version := builder.version
    capabilities := builder.capabilities
    hasLogger := builder.hasLogger
    hooks := builder.hooks
    observers := builder.observers }

/-- An agent made of what has been collected. -/
def build : Except Error (Agent H) := do
  builder.validate
  let capabilities ← Capability.copyChecked builder.capabilities
  return { profile := { builder.profile with capabilities } }

/-- Agents get what has been collected when they are built. -/
theorem eq_of_build {agent : Agent H} (built : builder.build = .ok agent) :
    agent = { profile := builder.profile } := by
  unfold build at built
  cases valid : builder.validate with
  | error error => simp [valid, bind, Except.bind] at built
  | ok _ =>
      cases checked : Capability.copyChecked builder.capabilities with
      | error error => simp [valid, checked, bind, Except.bind] at built
      | ok copies =>
          simp [valid, checked, bind, Except.bind, pure, Except.pure] at built
          rw [← built, (Capability.copyChecked_eq_ok_iff.mp checked).1]
          rfl

/-- Agents keep what had been collected when they were built. -/
theorem profile_of_build {agent : Agent H} (built : builder.build = .ok agent) :
    agent.profile.capabilities = builder.capabilities ∧ agent.profile.hooks = builder.hooks
      ∧ agent.profile.observers = builder.observers ∧ agent.vitals = {} := by
  rw [builder.eq_of_build built]
  exact ⟨rfl, rfl, rfl, rfl⟩

end AgentBuilder

end AgentKit
