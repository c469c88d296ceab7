/-
# Observers have no influence

An agent is built twice, with different observers. Some may throw, some may be missing,
and some may be among the observers of both. In the same session, with the same calls
from outside and the same hooks, the agents cannot be told apart but by what observers
are told and by the error records about those that throw.
-/

import AgentKit.Agent.Builder
import AgentKit.Proofs.Agent.Comparison

namespace AgentKit

/-! ## Sessions from outside -/

namespace Session

/-- What reaches a session from outside. Besides requests there are contexts, which are
made and canceled, and the two clocks go on. -/
inductive Input
  | ask (request : Request)
  | provide (context : String) (make : Contexts → Context × Contexts)
  | cancel (context : String)
  | clocks (now : Instant) (monotonicNow : Int)

/-- Lets an input take effect. Requests are answered, with hooks that may nest to a depth. -/
def take (depth : Nat) : Input → SessionM (Option Reply)
  | .ask request => return some (← answerWith (enterHook depth) request)
  | .provide context make => do
    modify fun session => session.addContext context make
    return none
  | .cancel context => do
    Session.cancel context
    return none
  | .clocks now monotonicNow => do
    modify fun session => { session with now, monotonicNow }
    return none

/-- Lets inputs take effect one after the other. -/
def takeAll (depth : Nat) (inputs : List Input) : SessionM (List (Option Reply)) :=
  inputs.mapM (take depth)

end Session

namespace Comparison

open Session

variable {comparison : Comparison} {first second : Session}

theorem ignores_take (depth : Nat) (input : Input) :
    comparison.Ignores (take depth input) := by
  cases input with
  | ask request =>
      exact (ignores_answer depth request).bind fun reply _ same => .pure (congrArg some same)
  | provide context make =>
      refine Relates.bind (Relates.modify fun first second agrees => ?_) fun _ _ _ => .pure rfl
      have made : make first.contexts = make second.contexts := congrArg make agrees.contexts
      exact { agrees with
        contexts := congrArg Prod.snd made
        contextNames := by
          change Fields.insert context (make first.contexts).1 first.contextNames =
            Fields.insert context (make second.contexts).1 second.contextNames
          rw [made, agrees.contextNames] }
  | cancel context => exact (ignores_cancel context).bind fun _ _ _ => .pure rfl
  | clocks now monotonicNow =>
      exact Relates.bind (Relates.modify fun first second agrees =>
        { agrees with now := rfl, monotonicNow := rfl }) fun _ _ _ => .pure rfl

theorem ignores_takeAll (comparison : Comparison) (depth : Nat) (inputs : List Input) :
    comparison.Ignores (takeAll depth inputs) := by
  unfold takeAll
  induction inputs with
  | nil => exact .pure rfl
  | cons input inputs ih =>
      rw [List.mapM_cons]
      refine (ignores_take depth input).bind fun reply _ same => ?_
      subst same
      exact ih.bind fun replies _ same => .pure (congrArg (List.cons reply) same)

/-- Adding the agent with either of its observers begins two sessions in agreement. -/
theorem agrees_addAgent (comparison : Comparison) (session : Session) (vitals : Vitals) :
    comparison.Agrees
      (session.addAgent comparison.name
        ⟨comparison.profile.observedBy comparison.these, vitals⟩)
      (session.addAgent comparison.name
        ⟨comparison.profile.observedBy comparison.those, vitals⟩) where
  agents known := by
    by_cases same : comparison.name = known
    · subst same
      rw [addAgent, addAgent, Fields.find?_insert_self, Fields.find?_insert_self]
      exact .some (.observed vitals)
    · rw [addAgent, addAgent, Fields.find?_insert_of_ne same, Fields.find?_insert_of_ne same]
      cases Fields.find? known session.agents with
      | none => exact .none
      | some agent => exact .some (.stranger (Ne.symm same) agent)
  contexts := rfl
  contextNames := rfl
  entries := rfl
  now := rfl
  monotonicNow := rfl
  outline := ⟨session.events.map .happened, (Profile.fill_happened _).symm,
    (Profile.fill_happened _).symm⟩

end Comparison

/-! ## What can be told apart -/

/-- Two sessions, in which an agent has one profile or the other, are told apart by
nothing but the calls of its observers and the error records about those that throw.

The events of both have one outline. A move of the agent in it is told to each observer
once, with one error record for each that throws. So what has been told under a label is
the same in both if as many observers bear it. -/
structure Session.DifferByObservers (profile other : Profile Hook) (first second : Session) :
    Prop where
  vitals : ∀ name, (Fields.find? name first.agents).map Agent.vitals =
    (Fields.find? name second.agents).map Agent.vitals
  entries : first.events.filterMap SessionEvent.entry? =
    second.events.filterMap SessionEvent.entry?
  answers : first.events.filterMap SessionEvent.answer? =
    second.events.filterMap SessionEvent.answer?
  plainRecords : first.events.filterMap SessionEvent.plainRecord? =
    second.events.filterMap SessionEvent.plainRecord?
  outline : ∃ outline,
    let ownErrors := (outline.filterMap OutlineEntry.event?).countP SessionEvent.isErrorRecord
    let moves := outline.filterMap OutlineEntry.move?
    first.events = profile.fill outline ∧ second.events = other.fill outline ∧
      first.events.countP SessionEvent.isErrorRecord = ownErrors + profile.throwRecords moves ∧
      second.events.countP SessionEvent.isErrorRecord = ownErrors + other.throwRecords moves ∧
      ∀ label,
        SessionEvent.heardBy label first.events =
            outline.flatMap (OutlineEntry.heard label (profile.bearers label)) ∧
          SessionEvent.heardBy label second.events =
            outline.flatMap (OutlineEntry.heard label (other.bearers label))
  heard : ∀ label, profile.bearers label = other.bearers label →
    SessionEvent.heardBy label first.events = SessionEvent.heardBy label second.events

theorem Comparison.Agrees.differByObservers {comparison : Comparison} {first second : Session}
    (agrees : comparison.Agrees first second) :
    Session.DifferByObservers (comparison.profile.observedBy comparison.these)
      (comparison.profile.observedBy comparison.those) first second := by
  obtain ⟨outline, left, right⟩ := agrees.outline
  have reads : ∀ {α : Type} {read : SessionEvent → Option α},
      (∀ label source target, read (.noticed (.observed label source target)) = none) →
      (∀ logger text, read (.noticed (.log logger .error text)) = none) →
      first.events.filterMap read = second.events.filterMap read := by
    intro α read deaf blind
    rw [left, right, Profile.filterMap_fill deaf blind, Profile.filterMap_fill deaf blind]
  exact {
    vitals := by
      intro name
      have twins := agrees.agents name
      generalize Fields.find? name first.agents = agent at twins
      generalize Fields.find? name second.agents = other at twins
      cases twins with
      | none => rfl
      | some twins => exact congrArg some twins.vitals_eq
    entries := reads (fun _ _ _ => rfl) fun _ _ => rfl
    answers := reads (fun _ _ _ => rfl) fun _ _ => rfl
    plainRecords := reads (fun _ _ _ => rfl) fun _ _ => rfl
    outline := by
      refine ⟨outline, left, right, ?_, ?_, fun label => ⟨?_, ?_⟩⟩
      · rw [left, Profile.countP_fill]
      · rw [right, Profile.countP_fill]
      · rw [left, Profile.heardBy_fill]
      · rw [right, Profile.heardBy_fill]
    heard := by
      intro label bearers
      rw [left, right, Profile.heardBy_fill, Profile.heardBy_fill, bearers] }

/-- What is done in both of two sessions in agreement leaves them so that they are told
apart by observers only. -/
theorem Comparison.Ignores.differByObservers {comparison : Comparison} {α : Type}
    {activity : SessionM α} (ignores : comparison.Ignores activity) {first second : Session}
    (agrees : comparison.Agrees first second) :
    Option.Rel
      (fun run other => run.1 = other.1 ∧ Session.DifferByObservers
        (comparison.profile.observedBy comparison.these)
        (comparison.profile.observedBy comparison.those) run.2 other.2)
      (activity first) (activity second) := by
  have outcomes := ignores first second agrees
  generalize activity first = run at outcomes
  generalize activity second = other at outcomes
  cases outcomes with
  | none => exact .none
  | some both => exact .some ⟨both.1, both.2.differByObservers⟩

/-- An agent can be built with other observers if it can be built. -/
theorem AgentBuilder.build_observers {H : Type} {builder : AgentBuilder H} {agent : Agent H}
    (built : builder.build = .ok agent) (observers : List (Option Observer)) :
    { builder with observers }.build =
      .ok { agent with profile := { agent.profile with observers } } := by
  unfold build at built ⊢
  change (do builder.validate; _) = _
  cases valid : builder.validate with
  | error error =>
      rw [valid] at built
      cases built
  | ok _ =>
      rw [valid] at built
      change (do let capabilities ← Capability.copyChecked builder.capabilities; _) = _
      cases checked : Capability.copyChecked builder.capabilities with
      | error error =>
          rw [checked] at built
          cases built
      | ok capabilities =>
          rw [checked] at built
          cases built
          rfl

/-- An agent is built twice, with different observers, and is added to a session. Then all
requests from outside have the same answers, and at any time the sessions are told apart
by nothing but what is noticed because of observers. This is so however deep hooks nest:
if one run goes deeper than it may, so does the other. -/
theorem AgentBuilder.observers_have_no_influence {builder : AgentBuilder Hook}
    {agent : Agent Hook} (built : builder.build = .ok agent) (observers : List (Option Observer)) :
    let other := { agent with profile := agent.profile.observedBy observers }
    { builder with observers }.build = .ok other ∧
      ∀ (depth : Nat) (session : Session) (name : String) (inputs : List Session.Input),
        Option.Rel
          (fun run otherRun => run.1 = otherRun.1 ∧
            Session.DifferByObservers agent.profile other.profile run.2 otherRun.2)
          (Session.takeAll depth inputs (session.addAgent name agent))
          (Session.takeAll depth inputs (session.addAgent name other)) := by
  refine ⟨AgentBuilder.build_observers built observers, fun depth session name inputs => ?_⟩
  let comparison : Comparison := ⟨name, agent.profile, agent.profile.observers, observers⟩
  exact (comparison.ignores_takeAll depth inputs).differByObservers
    (comparison.agrees_addAgent session agent.vitals)

/-- A profile with observers of every kind. The start hook takes the agent to running and
pauses it, and the stop hook throws. -/
def crowdedProfile : Profile Hook where
  id := "agent-001"
  name := "watched"
  version := "1.0.0"
  capabilities := []
  hasLogger := true
  hooks :=
    { start := some (.ofScripts "watched"
        [[.ask (.setState "watched" .running), .ask (.operate "watched" .pause "call")]])
      stop := some (.ofScripts "watched" [[.throw "not now"]]) }
  observers :=
    [some ⟨"faulty", fun _ _ => .throws "broken"⟩, none,
      some ⟨"odd", fun _ target => if target = .running then .throwsOther else .returns⟩,
      some ⟨"faithful", fun _ _ => .returns⟩]

/-- An agent is started and stopped, and its health is asked for. No hook of it makes a
call that would enter another. -/
def crowdedRun (profile : Profile Hook) : Option (List (Option Reply) × Session) :=
  Session.takeAll 1
    [.provide "call" Contexts.background, .ask (.operate "watched" .start "call"),
      .clocks .epoch 5, .ask (.operate "watched" .stop "call"), .ask (.health "watched")]
    (Session.addAgent { now := .epoch, monotonicNow := 0 } "watched" { profile })

/-- With all its observers the agent leaves nine error records, one of them about its stop
hook; with a faithful observer alone it leaves this one only. -/
theorem observers_have_no_influence_on_crowdedProfile :
    let builder : AgentBuilder Hook := { crowdedProfile with }
    let observers : List (Option Observer) := [some ⟨"faithful", fun _ _ => .returns⟩]
    builder.build = .ok { profile := crowdedProfile } ∧
      Option.Rel
        (fun run otherRun => run.1 = otherRun.1 ∧
          Session.DifferByObservers crowdedProfile (crowdedProfile.observedBy observers)
            run.2 otherRun.2)
        (crowdedRun crowdedProfile) (crowdedRun (crowdedProfile.observedBy observers)) ∧
      (crowdedRun crowdedProfile).map
        (fun run => run.2.events.countP SessionEvent.isErrorRecord) = some 9 ∧
      (crowdedRun (crowdedProfile.observedBy observers)).map
        (fun run => run.2.events.countP SessionEvent.isErrorRecord) = some 1 := by
  intro builder observers
  have built : builder.build = .ok { profile := crowdedProfile } := rfl
  refine ⟨built, ?_, by decide +kernel, by decide +kernel⟩
  exact (AgentBuilder.observers_have_no_influence built observers).2 1 _ "watched" _

end AgentKit
