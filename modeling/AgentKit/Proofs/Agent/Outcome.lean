/-
# How a call of an operation goes

A call with a context that is done is refused, a stopped agent is stopped already, and
a call that comes in a state where its operation cannot be carried out is a conflict.
In none of these cases has anything happened. In every other case the agent gets to the
phase of the operation, the hook is entered there, once, and the call settles when it
is left. What the hook does meanwhile is free: it may take the agent anywhere, and the
settlement looks again where the agent is. So a call that settles with success has
taken the agent to its target itself.
-/

import AgentKit.Proofs.Agent.OwnPhase
import AgentKit.Proofs.Agent.Sessions
import AgentKit.Proofs.Context.Fate

namespace AgentKit

/-! ## Where operations begin -/

namespace Operation

/-- The states in which an operation can be carried out. -/
def sources : Operation → List AgentState
  | start => [.unknown, .stopped, .failed]
  | stop => [.starting, .running, .paused]
  | pause => [.running]
  | resume => [.paused]

/-- The state that an operation wants to get to first. -/
def firstTarget (operation : Operation) : AgentState :=
  operation.transient?.getD operation.target

variable {H : Type} {operation : Operation} {state : AgentState}

theorem mem_sources_iff_of_transient? {transient : AgentState}
    (own : operation.transient? = some transient) :
    state ∈ operation.sources ↔ state.canMoveTo transient := by
  cases operation <;> cases own <;> cases state <;>
    simp [sources, AgentState.canMoveTo, AgentState.targets]

theorem mem_sources_iff_precondition (steady : operation.transient? = none) :
    state ∈ operation.sources ↔ operation.precondition state := by
  cases operation with
  | start | stop => cases steady
  | pause => simp [sources, precondition, target, AgentState.canMoveTo_paused_iff]
  | resume =>
      simp only [sources, precondition, target, List.mem_singleton, ne_eq, not_true_eq_false,
        decide_false, Bool.false_or, Bool.and_eq_true, decide_eq_true_eq,
        AgentState.canMoveTo_running_iff]
      exact ⟨fun paused => ⟨.inr paused, paused⟩, And.right⟩

/-- An operation that can be carried out takes the agent to its phase, and the recorded
start time stays. -/
theorem commence_of_mem_sources {vitals : Vitals} (source : vitals.state ∈ operation.sources)
    (profile : Profile H) :
    (operation.commence profile vitals).result = .ok () ∧
      (operation.commence profile vitals).vitals = ⟨operation.phase, vitals.startedAt⟩ := by
  unfold commence
  cases own : operation.transient? with
  | some transient =>
      have possible := (mem_sources_iff_of_transient? own).mp source
      simp [Profile.setState, profile.move_of_canMoveTo possible, StartTime.apply,
        phase_eq_of_transient? own]
  | none =>
      have met := (mem_sources_iff_precondition own).mp source
      simp [met, phase_eq_of_precondition own met]

/-- An operation that cannot be carried out is a conflict, and nothing is noticed. -/
theorem commence_of_not_mem_sources {vitals : Vitals}
    (outside : vitals.state ∉ operation.sources) (profile : Profile H) :
    operation.commence profile vitals =
      ⟨vitals, [], .error (Vitals.invalidMove vitals.state operation.firstTarget)⟩ := by
  unfold commence firstTarget
  cases own : operation.transient? with
  | some transient =>
      rw [mem_sources_iff_of_transient? own] at outside
      simp [Profile.setState, profile.move_of_not_canMoveTo outside]
  | none =>
      rw [mem_sources_iff_precondition own] at outside
      simp [outside]

/-- A stopped agent is none that a stop could begin with. -/
theorem not_isComplete_of_mem_sources (source : state ∈ operation.sources) :
    ¬ operation.isComplete state := by
  intro complete
  simp only [isComplete, Bool.and_eq_true, decide_eq_true_eq] at complete
  obtain ⟨rfl, rfl⟩ := complete
  simp [sources] at source

/-- Where a call settles with success, it leaves the agent in the target state. -/
theorem settle_state_of_ok {profile : Profile H} {vitals : Vitals} {now : Instant}
    {outcome : HookOutcome}
    (success : (operation.settle profile vitals now outcome).result = .ok ()) :
    (operation.settle profile vitals now outcome).vitals.state = operation.target := by
  obtain ⟨asked, possible⟩ := CallSection.attempt?_of_settle success
  have left := (CallSection.fulfils_carryOut profile vitals
    (.settle operation outcome now)).vitals_eq
  rw [asked, Vitals.afterAttempt, if_pos possible] at left
  exact congrArg Vitals.state left

end Operation

/-! ## The sections of a call in a session -/

namespace Session

open SessionM

variable {session after : Session} {name : String} {agent : Agent Hook} {operation : Operation}
  {context : Context} {hook : Hook}

theorem settlement_eq (known : Fields.find? name session.agents = some agent)
    (operation : Operation) (outcome : HookOutcome) :
    settlement name operation outcome session =
      some ((operation.settle agent.profile agent.vitals session.now outcome).result,
        session.afterSection name agent
          (operation.settle agent.profile agent.vitals session.now outcome)) := by
  unfold settlement
  rw [bind_eq (agent_eq_some_iff.mpr ⟨known, rfl⟩)]
  exact perform_eq ..

/-- A call whose context is not done gets past the gate. -/
theorem operate_of_live (known : Fields.find? name session.agents = some agent)
    (live : session.contexts.err context session.monotonicNow = none)
    (enter : Hook → Operation → Context → SessionM HookOutcome) (operation : Operation) :
    operate enter name operation context session =
      (if operation.isComplete agent.state then pure (.ok ())
      else do
        match ← perform name agent (operation.commence agent.profile agent.vitals) with
        | .error error => return .error error
        | .ok () =>
          let outcome ←
            match agent.profile.hooks.get operation with
            | some hook => enter hook operation context
            | none => pure (.returned (.ok ()))
          settlement name operation outcome : SessionM (Except Error Unit)) session := by
  unfold operate
  rw [bind_eq (agent_eq_some_iff.mpr ⟨known, rfl⟩), bind_eq (contextError_eq context session),
    live]
  rfl

theorem operate_of_isComplete (known : Fields.find? name session.agents = some agent)
    (live : session.contexts.err context session.monotonicNow = none)
    (complete : operation.isComplete agent.state)
    (enter : Hook → Operation → Context → SessionM HookOutcome) :
    operate enter name operation context session = some (.ok (), session) := by
  rw [operate_of_live known live, if_pos complete]
  rfl

theorem operate_of_not_mem_sources (known : Fields.find? name session.agents = some agent)
    (live : session.contexts.err context session.monotonicNow = none)
    (incomplete : ¬ operation.isComplete agent.state)
    (outside : agent.state ∉ operation.sources)
    (enter : Hook → Operation → Context → SessionM HookOutcome) :
    let conflict := Vitals.invalidMove agent.state operation.firstTarget
    operate enter name operation context session =
      some (.error conflict, session.afterSection name agent
        ⟨agent.vitals, [], .error conflict⟩) := by
  intro conflict
  rw [operate_of_live known live, if_neg incomplete,
    Operation.commence_of_not_mem_sources outside]
  exact bind_eq (perform_eq ..)

/-- The session in which a call has commenced. -/
def afterCommence (session : Session) (name : String) (agent : Agent Hook)
    (operation : Operation) : Session :=
  session.afterSection name agent (operation.commence agent.profile agent.vitals)

/-- An operation that can be carried out commences, runs its hook once, if it has one,
and settles. -/
theorem operate_of_mem_sources (known : Fields.find? name session.agents = some agent)
    (live : session.contexts.err context session.monotonicNow = none)
    (source : agent.state ∈ operation.sources)
    (enter : Hook → Operation → Context → SessionM HookOutcome) :
    operate enter name operation context session =
      (match agent.profile.hooks.get operation with
        | some hook => enter hook operation context >>= settlement name operation
        | none => settlement name operation (.returned (.ok ())))
        (session.afterCommence name agent operation) := by
  have commenced := (Operation.commence_of_mem_sources source agent.profile).1
  rw [operate_of_live known live, if_neg (Operation.not_isComplete_of_mem_sources source),
    bind_eq (perform_eq ..), commenced]
  cases agent.profile.hooks.get operation <;> rfl

/-- The agent that a call finds in the session in which it has commenced. -/
theorem find?_afterCommence (source : agent.state ∈ operation.sources) :
    Fields.find? name (session.afterCommence name agent operation).agents =
      some { agent with vitals := ⟨operation.phase, agent.vitals.startedAt⟩ } := by
  rw [afterCommence, find?_afterSection_self,
    (Operation.commence_of_mem_sources source agent.profile).2]

/-! ## Hooks -/

/-- The session in which a hook has been entered, once more than before. -/
def afterEntry (session : Session) (owner : String) (operation : Operation) (state : AgentState)
    (contextError : Option Error) : Session :=
  { session with
    entries := ((owner, operation), session.entryCount owner operation + 1) :: session.entries
    reversedEvents := .entered operation state contextError :: session.reversedEvents }

/-- To enter a hook is to count the entry, to write it down and to run the program that
is due. -/
theorem enterHook_eq (known : Fields.find? hook.owner session.agents = some agent)
    (depth : Nat) (operation : Operation) (context : Context) :
    enterHook (depth + 1) hook operation context session =
      runProgram (answerWith (enterHook depth)) context
        (hook.program (session.entryCount hook.owner operation))
        (session.afterEntry hook.owner operation agent.state
          (session.contexts.err context session.monotonicNow)) := by
  let counted : Session :=
    { session with
      entries := ((hook.owner, operation), session.entryCount hook.owner operation + 1)
        :: session.entries }
  have looked : Session.agent hook.owner counted = some (agent, counted) :=
    agent_eq_some_iff.mpr ⟨known, rfl⟩
  unfold enterHook
  change Session.agent hook.owner counted >>= _ = _
  rw [looked]
  rfl

/-- A call that has settled with success leaves its agent in the target state. -/
theorem find?_of_settlement {outcome : HookOutcome}
    (success : settlement name operation outcome session = some (.ok (), after)) :
    ∃ later, Fields.find? name after.agents = some later ∧ later.state = operation.target := by
  obtain ⟨found, _, looked, settled⟩ := exists_of_bind success
  obtain ⟨known, rfl⟩ := agent_eq_some_iff.mp looked
  obtain ⟨committed, agents⟩ := of_perform settled
  refine ⟨{ found with vitals := _ }, ?_, Operation.settle_state_of_ok committed.symm⟩
  rw [agents, Fields.find?_insert_self]

/-- Whatever its hook does, a call that returns with success leaves its agent in the target
state. -/
theorem find?_of_operate (known : Fields.find? name session.agents = some agent)
    (live : session.contexts.err context session.monotonicNow = none)
    (source : agent.state ∈ operation.sources)
    {enter : Hook → Operation → Context → SessionM HookOutcome}
    (success : operate enter name operation context session = some (.ok (), after)) :
    ∃ later, Fields.find? name after.agents = some later ∧ later.state = operation.target := by
  rw [operate_of_mem_sources known live source] at success
  cases registered : agent.profile.hooks.get operation with
  | none =>
      rw [registered] at success
      exact find?_of_settlement success
  | some hook =>
      rw [registered] at success
      obtain ⟨outcome, left, _, settled⟩ := exists_of_bind success
      exact find?_of_settlement settled

/-! ## The outcome -/

/-- Nothing has happened to any agent, and nothing else is different. -/
structure IsUntouched (session after : Session) : Prop where
  agents : ∀ name, Fields.find? name after.agents = Fields.find? name session.agents
  rest : { after with agents := session.agents } = session

/-- A section that leaves the vitals alone and is not noticed leaves everything alone. -/
theorem isUntouched_afterSection (known : Fields.find? name session.agents = some agent)
    (result : Except Error Unit) :
    session.IsUntouched (session.afterSection name agent ⟨agent.vitals, [], result⟩) where
  agents other := by
    by_cases same : name = other
    · subst same
      rw [find?_afterSection_self, known]
    · exact Fields.find?_insert_of_ne same _ _
  rest := rfl

/-- An operation that is called with a context that is done is refused with a timeout
that is caused by the context's error. Otherwise, a stop of a stopped agent succeeds, and
an operation that does not begin in the state of the agent is a conflict. In these cases
the session is left untouched, with the vitals and profiles of all agents and all that has
been noticed of them.

In all other cases the call commences. The agent is then in the phase of the operation,
and its hook, if it has one, is entered there, once, however hooks are entered; the call
settles when the hook is left. Whatever the hook has done, if the call returns with
success, the agent is in the target state. -/
theorem outcome_of_operate (known : Fields.find? name session.agents = some agent)
    (enter : Hook → Operation → Context → SessionM HookOutcome) (operation : Operation)
    (context : Context) :
    let call := operate enter name operation context session
    let contextError := session.contexts.err context session.monotonicNow
    let commenced := session.afterCommence name agent operation
    (∀ cause, contextError = some cause →
        ∃ refusal, call = some (.error refusal, session) ∧ refusal.code = .timeout ∧
          refusal.cause? = some cause) ∧
      (contextError = none → operation = .stop → agent.state = .stopped →
        call = some (.ok (), session)) ∧
      (contextError = none → ¬ (operation = .stop ∧ agent.state = .stopped) →
        agent.state ∉ operation.sources →
        ∃ conflict after, call = some (.error conflict, after) ∧ conflict.code = .conflict ∧
          session.IsUntouched after) ∧
      (contextError = none → agent.state ∈ operation.sources →
        Fields.find? name commenced.agents =
            some { agent with vitals := ⟨operation.phase, agent.vitals.startedAt⟩ } ∧
          (agent.profile.hooks.get operation = none →
            call = settlement name operation (.returned (.ok ())) commenced) ∧
          (∀ hook, agent.profile.hooks.get operation = some hook →
            call = (enter hook operation context >>= settlement name operation) commenced ∧
              (hook.owner = name → ∀ depth,
                enterHook (depth + 1) hook operation context commenced =
                  runProgram (answerWith (enterHook depth)) context
                    (hook.program (session.entryCount name operation))
                    (commenced.afterEntry name operation operation.phase none))) ∧
          ∀ after, call = some (.ok (), after) →
            ∃ later, Fields.find? name after.agents = some later ∧
              later.state = operation.target) := by
  intro call contextError commenced
  refine ⟨fun cause done => ?refused, fun live stopping stopped => ?complete,
    fun live incomplete outside => ?conflicting, fun live source => ⟨?phase, ?unhooked, ?hooked,
      fun after success => find?_of_operate known live source success⟩⟩
  case refused =>
    exact ⟨_, operate_of_err known done enter operation, rfl, rfl⟩
  case complete =>
    refine operate_of_isComplete known live ?_ enter
    simp [Operation.isComplete, stopping, stopped]
  case conflicting =>
    have incomplete : ¬ operation.isComplete agent.state := by
      simpa [Operation.isComplete] using incomplete
    exact ⟨_, _, operate_of_not_mem_sources known live incomplete outside enter, rfl,
      isUntouched_afterSection known _⟩
  case phase => exact find?_afterCommence source
  case unhooked =>
    intro absent
    have carried := operate_of_mem_sources known live source enter
    rw [absent] at carried
    exact carried
  case hooked =>
    intro hook registered
    have carried := operate_of_mem_sources known live source enter
    rw [registered] at carried
    refine ⟨carried, ?_⟩
    rintro rfl depth
    have there : Fields.find? hook.owner commenced.agents = some _ := find?_afterCommence source
    have stillLive : commenced.contexts.err context commenced.monotonicNow = none := live
    rw [enterHook_eq there, stillLive]
    rfl

end Session

/-- A hook for pausing that pauses the agent itself and resumes it. It is entered again in
doing so, and then does nothing. -/
def restlessHook : Hook :=
  .ofScripts "a" [[.ask (.operate "a" .pause "call"), .ask (.operate "a" .resume "call")], []]

/-- A running agent that pauses restlessly. -/
def restlessAgent : Agent Hook where
  profile :=
    { id := "agent-001"
      name := "test-agent"
      version := "1.0.0"
      capabilities := []
      hasLogger := true
      hooks := { pause := some restlessHook }
      observers := [some ⟨"metrics", fun _ _ => .throws "full"⟩] }
  vitals := ⟨.running, some .epoch⟩

def restlessSession : Session :=
  Session.addContext { agents := [("a", restlessAgent)], now := .epoch, monotonicNow := 0 }
    "call" Contexts.background

theorem outcome_of_operate_of_restlessAgent :
    let context := (Contexts.background {}).1
    let call := Session.operate (Session.enterHook 2) "a" .pause context restlessSession
    let commenced := restlessSession.afterCommence "a" restlessAgent .pause
    Fields.find? "a" restlessSession.agents = some restlessAgent ∧
      Fields.find? "call" restlessSession.contextNames = some context ∧
      call = (Session.enterHook 2 restlessHook .pause context >>=
        Session.settlement "a" .pause) commenced ∧
      Session.enterHook 2 restlessHook .pause context commenced =
        Session.runProgram (Session.answerWith (Session.enterHook 1)) context
          (restlessHook.program 0) (commenced.afterEntry "a" .pause .running none) ∧
      ∃ after later, call = some (.ok (), after) ∧
        Fields.find? "a" after.agents = some later ∧ later.state = .paused ∧
        after.entryCount "a" .pause = 2 := by
  intro context call commenced
  have known : Fields.find? "a" restlessSession.agents = some restlessAgent := rfl
  obtain ⟨_, _, _, carriedOut⟩ :=
    Session.outcome_of_operate known (Session.enterHook 2) .pause context
  obtain ⟨_, _, hooked, succeeded⟩ := carriedOut rfl (by decide)
  obtain ⟨carried, entered⟩ := hooked restlessHook rfl
  have returned : call.any (fun run => run.1.isOk && run.2.entryCount "a" .pause = 2) := by
    decide +kernel
  obtain ⟨⟨result, after⟩, isCall, done⟩ := (Option.any_eq_true _ _).mp returned
  simp only [Bool.and_eq_true, decide_eq_true_eq] at done
  cases result with
  | error error => cases done.1
  | ok _ =>
      obtain ⟨later, present, paused⟩ := succeeded after isCall
      exact ⟨known, rfl, carried, entered rfl 1, after, later, isCall, present, paused, done.2⟩

end AgentKit
