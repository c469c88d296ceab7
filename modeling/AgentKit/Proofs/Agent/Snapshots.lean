/-
# Builds as snapshots

A builder, the agents it has built and their callers are all at work, in any
order. What the builder has collected by the time of a build depends on what it
was given alone, and what becomes of an agent on its own calls alone. So an agent
keeps for good what was collected when it was built, and a build fails for the
first fault in it.
-/

import AgentKit.Agent.Workshop
import AgentKit.Proofs.Agent.Sections
import AgentKit.Proofs.Agent.Validation

namespace AgentKit

/-! ## What was collected -/

namespace Addition

variable {H : Type}

/-- The capabilities that are added, in order. -/
def addedCapabilities : Addition H → List Capability
  | .capability added => [added]
  | .capabilities added => added
  | _ => []

/-- The observer that is added. -/
def addedObserver? : Addition H → Option (Option Observer)
  | .observer added => some added
  | _ => none

/-- Whether a logger is there from now on, if that is said. -/
def setsLogger? : Addition H → Option Bool
  | .logger isThere => some isThere
  | _ => none

/-- The hook of an operation from now on, which may be none, if that is said. -/
def setsHook? (operation : Operation) : Addition H → Option (Option H)
  | .hook other set => if other = operation then some set else none
  | _ => none

/-- What was set last, or else what holds if nothing was set. -/
def latest {α : Type} (sets? : Addition H → Option α) (otherwise : α)
    (additions : List (Addition H)) : α :=
  (additions.filterMap sets?).getLast?.getD otherwise

theorem latest_concat {α : Type} (sets? : Addition H → Option α) (otherwise : α)
    (additions : List (Addition H)) (addition : Addition H) :
    latest sets? otherwise (additions ++ [addition]) =
      (sets? addition).getD (latest sets? otherwise additions) := by
  cases set : sets? addition <;> simp [latest, set]

end Addition

/-- The profile that a number of additions amount to: capabilities and observers in
the order in which they were added, logger and hooks as they were set last. -/
def Profile.collected {H : Type} (id name version : String) (additions : List (Addition H)) :
    Profile H where
  id := id
  name := name
  version := version
  capabilities := additions.flatMap Addition.addedCapabilities
  hasLogger := Addition.latest Addition.setsLogger? false additions
  hooks :=
    { start := Addition.latest (Addition.setsHook? .start) none additions
      stop := Addition.latest (Addition.setsHook? .stop) none additions
      pause := Addition.latest (Addition.setsHook? .pause) none additions
      resume := Addition.latest (Addition.setsHook? .resume) none additions }
  observers := additions.filterMap Addition.addedObserver?

theorem Profile.hooks_get_collected {H : Type} (id name version : String)
    (additions : List (Addition H)) (operation : Operation) :
    (collected id name version additions).hooks.get operation =
      Addition.latest (Addition.setsHook? operation) none additions := by
  cases operation <;> rfl

namespace AgentBuilder

variable {H : Type} {builder : AgentBuilder H} {id name version : String}
  {additions : List (Addition H)}

theorem capabilities_add (addition : Addition H) :
    (builder.add addition).capabilities = builder.capabilities ++ addition.addedCapabilities := by
  cases addition with
  | capability _ => rfl
  | capabilities _ => rfl
  | logger _ => exact (List.append_nil _).symm
  | hook _ _ => exact (List.append_nil _).symm
  | observer _ => exact (List.append_nil _).symm

theorem observers_add (addition : Addition H) :
    (builder.add addition).observers = builder.observers ++ addition.addedObserver?.toList := by
  cases addition with
  | capability _ => exact (List.append_nil _).symm
  | capabilities _ => exact (List.append_nil _).symm
  | logger _ => exact (List.append_nil _).symm
  | hook _ _ => exact (List.append_nil _).symm
  | observer _ => rfl

theorem hasLogger_add (addition : Addition H) :
    (builder.add addition).hasLogger = addition.setsLogger?.getD builder.hasLogger := by
  cases addition <;> rfl

theorem hooks_get_add (addition : Addition H) (operation : Operation) :
    (builder.add addition).hooks.get operation =
      (addition.setsHook? operation).getD (builder.hooks.get operation) := by
  cases addition with
  | hook other hook =>
      rw [add, withHook, Hooks.get_set, Addition.setsHook?]
      split <;> rfl
  | _ => rfl

theorem names_add (addition : Addition H) :
    (builder.add addition).id = builder.id ∧ (builder.add addition).name = builder.name ∧
      (builder.add addition).version = builder.version := by
  cases addition <;> exact ⟨rfl, rfl, rfl⟩

/-- One addition more is collected behind the others. -/
theorem profile_add (collected : builder.profile = .collected id name version additions)
    (addition : Addition H) :
    (builder.add addition).profile = .collected id name version (additions ++ [addition]) := by
  obtain ⟨sameId, sameName, sameVersion⟩ := builder.names_add addition
  apply Profile.ext
  case id => exact sameId.trans (congrArg Profile.id collected)
  case name => exact sameName.trans (congrArg Profile.name collected)
  case version => exact sameVersion.trans (congrArg Profile.version collected)
  case capabilities =>
    have before : builder.capabilities = additions.flatMap Addition.addedCapabilities :=
      congrArg Profile.capabilities collected
    exact (capabilities_add addition).trans (by simp [before, Profile.collected])
  case hasLogger =>
    have before : builder.hasLogger = Addition.latest Addition.setsLogger? false additions :=
      congrArg Profile.hasLogger collected
    exact (hasLogger_add addition).trans (by rw [before, Profile.collected, Addition.latest_concat])
  case hooks =>
    refine Hooks.ext_get fun operation => ?_
    have before : builder.hooks.get operation =
        (Profile.collected id name version additions).hooks.get operation :=
      congrArg (fun profile => profile.hooks.get operation) collected
    calc
      _ = (addition.setsHook? operation).getD (builder.hooks.get operation) :=
        hooks_get_add addition operation
      _ = Addition.latest (Addition.setsHook? operation) none (additions ++ [addition]) := by
        rw [before, Profile.hooks_get_collected, Addition.latest_concat]
      _ = _ := (Profile.hooks_get_collected ..).symm
  case observers =>
    have before : builder.observers = additions.filterMap Addition.addedObserver? :=
      congrArg Profile.observers collected
    refine (observers_add addition).trans ?_
    cases added : addition.addedObserver? <;> simp [before, added, Profile.collected]

theorem profile_addAll (collected : builder.profile = .collected id name version additions)
    (later : List (Addition H)) :
    (builder.addAll later).profile = .collected id name version (additions ++ later) := by
  induction later generalizing builder additions with
  | nil => exact collected.trans (by rw [List.append_nil])
  | cons addition later ih => exact (ih (profile_add collected addition)).trans (by simp)

end AgentBuilder

/-! ## What is done to whom -/

/-- Calls to an agent go on with what it was built with. -/
theorem BuiltAgent.foldl_after {H : Type} (built : BuiltAgent H)
    (events : List Interleaving.Event) :
    events.foldl BuiltAgent.after built =
      { built with interleaving := built.interleaving.afterAll built.profile events } := by
  induction events generalizing built with
  | nil => rfl
  | cons event events ih => exact ih (built.after event)

namespace Workshop

variable {H : Type}

namespace Event

/-- What the builder is given. -/
def addition? : Event H → Option (Addition H)
  | .add addition => some addition
  | _ => none

/-- What happens among the calls to the agent at a place. -/
def callTo? (place : Nat) : Event H → Option Interleaving.Event
  | .call other event => if other = place then some event else none
  | _ => none

theorem callTo?_eq_some_iff {place : Nat} {event : Event H} {inner : Interleaving.Event} :
    event.callTo? place = some inner ↔ event = .call place inner := by
  cases event with
  | call other event => by_cases same : other = place <;> simp [callTo?, same]
  | _ => simp [callTo?]

end Event

variable {workshop : Workshop H} {place : Nat} {built : BuiltAgent H}

theorem builder_after (event : Event H) :
    (workshop.after event).builder = workshop.builder.addAll event.addition?.toList := by
  cases event with
  | add addition => rfl
  | build =>
      cases outcome : workshop.builder.build with
      | ok agent =>
          rw [after_build_of_ok outcome]
          rfl
      | error error =>
          rw [after_build_of_error outcome]
          rfl
  | call place event => rfl

/-- A builder is what it was given has made it. Neither builds nor calls to agents
leave a trace in it. -/
theorem builder_afterAll (events : List (Event H)) :
    (workshop.afterAll events).builder =
      workshop.builder.addAll (events.filterMap Event.addition?) := by
  induction events generalizing workshop with
  | nil => rfl
  | cons event events ih =>
      refine ih.trans ?_
      rw [builder_after]
      cases given : event.addition? <;> simp [given, AgentBuilder.addAll]

theorem getElem?_agents_after (there : workshop.agents[place]? = some built) (event : Event H) :
    (workshop.after event).agents[place]? =
      some ((event.callTo? place).toList.foldl BuiltAgent.after built) := by
  cases event with
  | add addition => exact there
  | build =>
      cases outcome : workshop.builder.build with
      | ok agent =>
          rw [after_build_of_ok outcome]
          exact (List.getElem?_append_left (List.getElem?_eq_some_iff.mp there).1).trans there
      | error error =>
          rw [after_build_of_error outcome]
          exact there
  | call other event =>
      by_cases same : other = place
      · simp [after, Event.callTo?, same, there]
      · simp [after, Event.callTo?, same, there]

/-- An agent is what the calls to it have made it. Neither its builder nor calls to
other agents leave a trace in it. -/
theorem getElem?_agents_afterAll (there : workshop.agents[place]? = some built)
    (events : List (Event H)) :
    (workshop.afterAll events).agents[place]? =
      some ((events.filterMap (Event.callTo? place)).foldl BuiltAgent.after built) := by
  induction events generalizing workshop built with
  | nil => exact there
  | cons event events ih =>
      refine (ih (getElem?_agents_after there event)).trans ?_
      cases call : event.callTo? place <;> simp [call]

/-- An agent is put behind those built before. -/
theorem getElem?_agents_after_build {agent : Agent H}
    (outcome : workshop.builder.build = .ok agent) :
    (workshop.after .build).agents[workshop.agents.length]? = some (.uncalled agent) := by
  rw [after_build_of_ok outcome]
  exact List.getElem?_concat_length

/-- An agent is found in its place for good, and has had the calls to it. -/
theorem getElem?_agents_later {agent : Agent H} (outcome : workshop.builder.build = .ok agent)
    (later : List (Event H)) :
    ((workshop.after .build).afterAll later).agents[workshop.agents.length]? =
      some ⟨agent.profile,
        agent.interleaved (later.filterMap (Event.callTo? workshop.agents.length))⟩ := by
  have found := getElem?_agents_afterAll (getElem?_agents_after_build outcome) later
  rwa [BuiltAgent.foldl_after] at found

/-- A new builder has collected what it was given until now. -/
theorem profile_afterAll (id name version : String) (events : List (Event H)) :
    ((opened id name version).afterAll events).builder.profile =
      .collected id name version (events.filterMap Event.addition?) := by
  have nothing : (opened id name version : Workshop H).builder.profile =
      .collected id name version [] := rfl
  rw [builder_afterAll]
  exact AgentBuilder.profile_addAll nothing _

/-- What can happen in a workshop can happen to each of its agents alone. -/
theorem AdmitsAll.callTo {events : List (Event H)} (admitted : workshop.AdmitsAll events)
    (there : workshop.agents[place]? = some built) :
    built.interleaving.AdmitsAll built.profile (events.filterMap (Event.callTo? place)) := by
  induction events generalizing workshop built with
  | nil => trivial
  | cons event events ih =>
      have later := ih admitted.2 (getElem?_agents_after there event)
      cases call : event.callTo? place with
      | none => simpa [call] using later
      | some inner =>
          obtain rfl := Event.callTo?_eq_some_iff.mp call
          obtain ⟨found, thereToo, possible⟩ := admitted.1
          obtain rfl : built = found := Option.some.inj (there.symm.trans thereToo)
          rw [call] at later
          simpa [call] using ⟨possible, later⟩

/-- Each agent goes through a run as if it were alone, so that what holds of all runs
holds of every agent in a workshop. -/
theorem AdmitsAll.run {agent : Agent H} (outcome : workshop.builder.build = .ok agent)
    {later : List (Event H)} (admitted : (workshop.after .build).AdmitsAll later) :
    agent.Run (agent.interleaved (later.filterMap (Event.callTo? workshop.agents.length))) :=
  Agent.Run.begin.afterAll (admitted.callTo (getElem?_agents_after_build outcome))

/-- Whatever has happened to a new builder and the agents that it has built, it refuses
to build exactly if something is missing in what it has collected, and its error is
that of the first fault. Otherwise it builds an agent in the unknown state, with all
that was collected. Whatever happens afterwards, this agent is found in its place with
the same profile, and nothing has been done to it but by calls to it. In all their
sections they have used the hooks and observers that were collected for the build. -/
theorem builds_are_snapshots (id name version : String) (before : List (Event H)) :
    let workshop := (opened id name version).afterAll before
    let collected := Profile.collected id name version (before.filterMap Event.addition?)
    ((∃ error, workshop.builder.build = .error error) ↔
        id = "" ∨ name = "" ∨ version = "" ∨
          ∃ capability ∈ collected.capabilities,
            capability.name = "" ∨ capability.version = "") ∧
      (∀ error, workshop.builder.build = .error error ↔ collected.FirstFault error) ∧
      (∀ error, workshop.builder.build = .error error →
        error.code = .validation ∧ workshop.after .build = workshop) ∧
      ∀ agent, workshop.builder.build = .ok agent →
        agent.state = .unknown ∧ agent.vitals.startedAt = none ∧
          (∀ now, (agent.info now).startedAt = none) ∧ agent.profile = collected ∧
          ∀ later, ∃ built,
            ((workshop.after .build).afterAll later).agents[workshop.agents.length]? =
                some built ∧
              built.profile = collected ∧
              built.current.capabilities = collected.capabilities ∧
              (∀ now, (built.current.info now).capabilities = collected.capabilities) ∧
              built.interleaving = agent.interleaved
                (later.filterMap (Event.callTo? workshop.agents.length)) ∧
              ((workshop.after .build).AdmitsAll later →
                agent.Run built.interleaving ∧
                  ∀ turn ∈ built.interleaving.history,
                    turn.outcome = turn.part.carryOut collected turn.before) := by
  intro workshop collected
  have profile : workshop.builder.profile = collected := profile_afterAll id name version before
  have refuses (error : Error) :
      workshop.builder.build = .error error ↔ collected.FirstFault error := by
    rw [AgentBuilder.build_eq_error_iff, profile]
  refine ⟨?_, refuses, ?_, ?_⟩
  · simp only [refuses]
    exact Profile.exists_firstFault_iff
  · exact fun error refused =>
      ⟨((refuses error).mp refused).code, after_build_of_error refused⟩
  · intro agent outcome
    obtain rfl : agent = { profile := collected } :=
      (workshop.builder.eq_of_build outcome).trans (by rw [profile])
    refine ⟨rfl, rfl, fun _ => rfl, rfl, fun later => ?_⟩
    have found := getElem?_agents_later outcome later
    refine ⟨_, found, rfl, Agent.capabilities_eq _, fun _ => Agent.capabilities_eq _, rfl, ?_⟩
    intro admitted
    have run := admitted.run outcome
    exact ⟨run, fun _ happened => run.outcome_eq happened⟩

/-- One builder is used three times and is given a capability before the second build
and another one, which has no name, before the third. There are two agents then, with
and without the first capability. -/
example :
    ((opened "agent-001" "searcher" "1.0.0" : Workshop Unit).afterAll
        [.build, .add (.capability { name := "search", version := "1.0.0" }), .build,
          .add (.capability { name := "", version := "1.0.0" }), .build]).agents.map
        (fun built => built.current.capabilities) =
      [[], [{ name := "search", version := "1.0.0" }]] := by decide +kernel

end Workshop

end AgentKit
