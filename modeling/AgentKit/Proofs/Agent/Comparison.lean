/-
# Two sessions with different observers

Two sessions are compared in which one agent has different observers, and everything
else is the same. Whatever is done in both of them keeps them so: it has an outcome in
both or in neither, the outcomes are equal, and what has happened has one outline.

A hook can only do what is done in a session, so this goes for hooks as well, however
deep they nest.
-/

import AgentKit.Proofs.Agent.Outline
import AgentKit.Proofs.Agent.Sessions

namespace AgentKit

/-- One agent, which is named, has the same profile in two sessions except for its
observers. -/
structure Comparison where
  name : String
  profile : Profile Hook
  these : List (Option Observer)
  those : List (Option Observer)

namespace Comparison

variable {comparison : Comparison} {first second : Session} {α β γ δ : Type}

/-- Who has a name in the first session and in the second. -/
inductive Twins (comparison : Comparison) : String → Agent Hook → Agent Hook → Prop
  | observed (vitals : Vitals) :
      comparison.Twins comparison.name ⟨comparison.profile.observedBy comparison.these, vitals⟩
        ⟨comparison.profile.observedBy comparison.those, vitals⟩
  | stranger {name : String} (other : name ≠ comparison.name) (agent : Agent Hook) :
      comparison.Twins name agent agent

theorem Twins.vitals_eq {name : String} {agent other : Agent Hook}
    (twins : comparison.Twins name agent other) : agent.vitals = other.vitals := by
  cases twins <;> rfl

/-- Two sessions differ in nothing but the observers of one agent and in what has been
noticed because of them. -/
structure Agrees (comparison : Comparison) (first second : Session) : Prop where
  agents : ∀ name, Option.Rel (comparison.Twins name) (Fields.find? name first.agents)
    (Fields.find? name second.agents)
  contexts : first.contexts = second.contexts
  contextNames : first.contextNames = second.contextNames
  entries : first.entries = second.entries
  now : first.now = second.now
  monotonicNow : first.monotonicNow = second.monotonicNow
  outline : ∃ outline,
    first.events = (comparison.profile.observedBy comparison.these).fill outline ∧
      second.events = (comparison.profile.observedBy comparison.those).fill outline

/-- Activities keep sessions in agreement, and what comes of them is related. -/
def Relates (comparison : Comparison) (related : α → β → Prop) (activity : SessionM α)
    (other : SessionM β) : Prop :=
  ∀ first second, comparison.Agrees first second →
    Option.Rel (fun outcome outcome' => related outcome.1 outcome'.1 ∧
      comparison.Agrees outcome.2 outcome'.2) (activity first) (other second)

/-! ## Putting activities together -/

namespace Relates

variable {related : α → β → Prop} {activity : SessionM α} {other : SessionM β}

theorem pure {value : α} {value' : β} (same : related value value') :
    comparison.Relates related (Pure.pure value) (Pure.pure value') :=
  fun _ _ agrees => .some ⟨same, agrees⟩

theorem bind {related' : γ → δ → Prop} {next : α → SessionM γ} {next' : β → SessionM δ}
    (here : comparison.Relates related activity other)
    (rest : ∀ value value', related value value' →
      comparison.Relates related' (next value) (next' value')) :
    comparison.Relates related' (activity >>= next) (other >>= next') := by
  intro first second agrees
  have outcomes := here first second agrees
  change Option.Rel _ ((activity first).bind fun outcome => next outcome.1 outcome.2)
    ((other second).bind fun outcome => next' outcome.1 outcome.2)
  cases left : activity first with
  | none =>
      rw [left] at outcomes
      generalize other second = outcome at outcomes
      cases outcomes
      exact .none
  | some outcome =>
      rw [left] at outcomes
      generalize other second = outcome' at outcomes
      cases outcomes with
      | some both => exact rest _ _ both.1 _ _ both.2

theorem get : comparison.Relates comparison.Agrees get get :=
  fun _ _ agrees => .some ⟨agrees, agrees⟩

theorem modify {change change' : Session → Session}
    (keeps : ∀ first second, comparison.Agrees first second →
      comparison.Agrees (change first) (change' second)) :
    comparison.Relates Eq (modify change) (modify change') :=
  fun first second agrees => .some ⟨rfl, keeps first second agrees⟩

theorem failure : comparison.Relates related (failure : SessionM α) (failure : SessionM β) :=
  fun _ _ _ => .none

end Relates

/-! ## What is done in a session -/

open Session

/-- An activity does the same in both sessions. -/
abbrev Ignores (comparison : Comparison) (activity : SessionM α) : Prop :=
  comparison.Relates Eq activity activity

theorem relates_agent (name : String) :
    comparison.Relates (comparison.Twins name) (agent name) (agent name) := by
  intro first second agrees
  have twins := agrees.agents name
  change Option.Rel _ ((Fields.find? name first.agents).bind fun agent => some (agent, first))
    ((Fields.find? name second.agents).bind fun agent => some (agent, second))
  generalize Fields.find? name first.agents = agent at twins
  generalize Fields.find? name second.agents = other at twins
  cases twins with
  | none => exact .none
  | some twins => exact .some ⟨twins, agrees⟩

theorem ignores_context (name : String) : comparison.Ignores (context name) := by
  intro first second agrees
  change Option.Rel _
    ((Fields.find? name first.contextNames).bind fun context => some (context, first))
    ((Fields.find? name second.contextNames).bind fun context => some (context, second))
  rw [agrees.contextNames]
  cases Fields.find? name second.contextNames with
  | none => exact .none
  | some context => exact .some ⟨rfl, agrees⟩

theorem ignores_contextError (context : Context) :
    comparison.Ignores (contextError context) := by
  intro first second agrees
  refine .some ⟨?_, agrees⟩
  rw [agrees.contexts, agrees.monotonicNow]

/-- What is written down has happened in both sessions. -/
theorem ignores_write (event : SessionEvent) : comparison.Ignores (write event) := by
  refine Relates.modify fun first second agrees => { agrees with outline := ?_ }
  obtain ⟨outline, left, right⟩ := agrees.outline
  refine ⟨outline ++ [.happened event], ?_, ?_⟩
  · rw [Profile.fill_append, ← left]
    exact List.reverse_cons
  · rw [Profile.fill_append, ← right]
    exact List.reverse_cons

theorem ignores_cancel (name : String) : comparison.Ignores (cancel name) := by
  refine (ignores_context name).bind fun context _ same => ?_
  subst same
  exact Relates.modify fun first second agrees =>
    { agrees with contexts := congrArg (Contexts.cancel · context) agrees.contexts }

/-- Agents that have a name in common keep it, and the others keep theirs. -/
theorem Agrees.agents_insert (agrees : comparison.Agrees first second) {name : String}
    {agent other : Agent Hook} (twins : comparison.Twins name agent other) (known : String) :
    Option.Rel (comparison.Twins known)
      (Fields.find? known (Fields.insert name agent first.agents))
      (Fields.find? known (Fields.insert name other second.agents)) := by
  by_cases same : name = known
  · subst same
    rw [Fields.find?_insert_self, Fields.find?_insert_self]
    exact .some twins
  · rw [Fields.find?_insert_of_ne same, Fields.find?_insert_of_ne same]
    exact agrees.agents known

/-- A section in which observers have no part does the same in both sessions. -/
theorem relates_perform {name : String} {agent other : Agent Hook}
    (twins : comparison.Twins name agent other) {act : Profile Hook → Vitals → LockedSection}
    (unobserved : ∀ profile vitals, Profile.IsUnobserved profile fun profile =>
      act profile vitals) :
    comparison.Relates Eq (perform name agent (act agent.profile agent.vitals))
      (perform name other (act other.profile other.vitals)) := by
  intro first second agrees
  rw [perform_eq, perform_eq]
  obtain ⟨outline, left, right⟩ := agrees.outline
  -- Each profile fills in one outline for the observed agent; what anyone else does
  -- just happens.
  cases twins with
  | observed vitals =>
      obtain ⟨after, result, more, same⟩ := unobserved comparison.profile vitals
      obtain ⟨vitalsLeft, resultLeft, noticesLeft⟩ := same comparison.these
      obtain ⟨vitalsRight, resultRight, noticesRight⟩ := same comparison.those
      refine .some ⟨resultLeft.trans resultRight.symm,
        { agrees with agents := ?_, outline := ⟨outline ++ more, ?_, ?_⟩ }⟩
      · intro known
        refine agrees.agents_insert ?_ known
        rw [vitalsLeft, vitalsRight]
        exact .observed after
      · rw [events_afterSection, left, noticesLeft, Profile.fill_append]
      · rw [events_afterSection, right, noticesRight, Profile.fill_append]
  | stranger differ =>
      refine .some ⟨rfl, { agrees with agents := ?_, outline := ⟨outline ++
        (act agent.profile agent.vitals).notices.map (fun notice => .happened (.noticed notice)),
        ?_, ?_⟩ }⟩
      · exact agrees.agents_insert (.stranger differ _)
      · rw [events_afterSection, left, Profile.fill_append, Profile.fill_noticed]
      · rw [events_afterSection, right, Profile.fill_append, Profile.fill_noticed]

theorem ignores_setState (name : String) (target : AgentState) :
    comparison.Ignores (setState name target) :=
  (relates_agent name).bind fun _ _ twins =>
    relates_perform twins fun profile vitals => profile.isUnobserved_move vitals target .keep

theorem ignores_countWins (name : String) (target : AgentState) (callers : Nat) :
    comparison.Ignores (countWins name target callers) := by
  induction callers with
  | zero => exact .pure rfl
  | succ callers ih =>
      refine (ignores_setState name target).bind fun result _ same => ?_
      subst same
      cases result with
      | ok _ => exact ih.bind fun wins _ same => .pure (congrArg (· + 1) same)
      | error _ => exact ih

variable {enter : Hook → Operation → Context → SessionM HookOutcome}

theorem ignores_settlement (name : String) (operation : Operation) (outcome : HookOutcome) :
    comparison.Ignores (settlement name operation outcome) := by
  refine (relates_agent name).bind fun after after' twins => ?_
  refine Relates.get.bind fun left right agrees => ?_
  rw [agrees.now]
  exact relates_perform twins fun profile vitals =>
    operation.isUnobserved_settle profile vitals right.now outcome

/-- An operation does the same in both sessions if hooks do. -/
theorem ignores_operate
    (hooks : ∀ hook operation context, comparison.Ignores (enter hook operation context))
    (name : String) (operation : Operation) (context : Context) :
    comparison.Ignores (operate enter name operation context) := by
  refine (relates_agent name).bind fun before before' twins => ?_
  refine (ignores_contextError context).bind fun error _ same => ?_
  subst same
  cases operation.refusal? error with
  | some refusal => exact .pure rfl
  | none =>
      dsimp only
      have vitals : before.state = before'.state := congrArg Vitals.state twins.vitals_eq
      rw [vitals]
      by_cases complete : operation.isComplete before'.state
      · rw [if_pos complete, if_pos complete]
        exact .pure rfl
      · rw [if_neg complete, if_neg complete]
        refine (relates_perform twins operation.isUnobserved_commence).bind fun result _ same => ?_
        subst same
        cases result with
        | error error => exact .pure rfl
        | ok _ =>
            dsimp only
            have registered : before.profile.hooks = before'.profile.hooks := by cases twins <;> rfl
            rw [registered]
            cases before'.profile.hooks.get operation with
            | some hook =>
                refine (hooks hook operation context).bind fun outcome _ same => ?_
                subst same
                exact ignores_settlement name operation outcome
            | none =>
                refine Relates.bind (.pure rfl) fun outcome _ same => ?_
                subst same
                exact ignores_settlement name operation outcome

theorem ignores_answerWith
    (hooks : ∀ hook operation context, comparison.Ignores (enter hook operation context))
    (request : Request) : comparison.Ignores (answerWith enter request) := by
  cases request with
  | operate name operation contextName =>
      refine (ignores_context contextName).bind fun context _ same => ?_
      subst same
      exact (ignores_operate hooks name operation context).bind fun result _ same =>
        .pure (congrArg Reply.done same)
  | setState name target =>
      exact (ignores_setState name target).bind fun result _ same =>
        .pure (congrArg Reply.done same)
  | health name =>
      refine (relates_agent name).bind fun agent other twins => .pure ?_
      cases twins <;> rfl
  | state name =>
      exact (relates_agent name).bind fun agent other twins =>
        .pure (congrArg (Reply.state ∘ Vitals.state) twins.vitals_eq)
  | info name =>
      refine (relates_agent name).bind fun agent other twins => ?_
      refine Relates.get.bind fun left right agrees => .pure ?_
      rw [agrees.now]
      cases twins <;> rfl
  | identity name =>
      refine (relates_agent name).bind fun agent other twins => .pure ?_
      cases twins <;> rfl
  | capabilities name =>
      refine (relates_agent name).bind fun agent other twins => .pure ?_
      cases twins <;> rfl
  | race name callers target =>
      exact (ignores_countWins name target callers).bind fun wins _ same =>
        .pure (congrArg (fun wins => Reply.race wins (callers - wins)) same)

/-- A program does the same in both sessions if its requests are answered in the same
way. -/
theorem ignores_runProgram {answer : Request → SessionM Reply}
    (answers : ∀ request, comparison.Ignores (answer request)) (context : Context)
    (program : Program) : comparison.Ignores (runProgram answer context program) := by
  induction program with
  | finish outcome => exact .pure rfl
  | cancel name next ih => exact (ignores_cancel name).bind fun _ _ _ => ih
  | look next ih =>
      refine (ignores_contextError context).bind fun error _ same => ?_
      subst same
      exact ih error
  | ask request next ih =>
      refine (answers request).bind fun reply _ same => ?_
      subst same
      exact (ignores_write _).bind fun _ _ _ => ih reply

/-- A hook does the same in both sessions, however deep hooks nest. -/
theorem ignores_enterHook (depth : Nat) (hook : Hook) (operation : Operation)
    (context : Context) : comparison.Ignores (enterHook depth hook operation context) := by
  -- The calls that a hook makes enter hooks one level further down.
  induction depth generalizing hook operation context with
  | zero => exact .failure
  | succ depth ih =>
      unfold enterHook
      refine Relates.get.bind fun left right agrees => ?_
      have count : left.entryCount hook.owner operation =
          right.entryCount hook.owner operation := by
        rw [entryCount, entryCount, agrees.entries]
      dsimp only
      rw [count]
      refine Relates.bind (Relates.modify fun first second agrees =>
        { agrees with entries := congrArg (List.cons _) agrees.entries }) fun _ _ _ => ?_
      refine (relates_agent hook.owner).bind fun owner owner' twins => ?_
      refine (ignores_contextError context).bind fun error _ same => ?_
      subst same
      have state : owner.state = owner'.state := congrArg Vitals.state twins.vitals_eq
      rw [state]
      exact (ignores_write _).bind fun _ _ _ =>
        ignores_runProgram (ignores_answerWith ih) context _

theorem ignores_answer (depth : Nat) (request : Request) :
    comparison.Ignores (answerWith (enterHook depth) request) :=
  ignores_answerWith (ignores_enterHook depth) request

end Comparison

end AgentKit
