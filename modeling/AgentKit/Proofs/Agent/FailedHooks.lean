/-
# Hooks that fail

A call whose hook fails tells its caller about it, with the hook's own error as the cause,
and marks the agent as failed. The mark can be refused, for the hook may have taken the
agent anywhere before it failed. But the table of states lets every state fail that is not
terminal, so the only other state in which such a call can leave the agent is stopped.
Nobody takes an agent in either of them to be healthy.
-/

import AgentKit.Proofs.Agent.Outcome

namespace AgentKit

/-! ## Failing -/

/-- The ways in which a hook fails, and the error that counts as the one it has failed
with: the one it returns, or one that tells that it has thrown. -/
inductive HookOutcome.FailsWith : HookOutcome → Error → Prop
  | returned (error : Error) : FailsWith (.returned (.error error)) error
  | threw (text : String) :
      FailsWith (.threw text) (.make .internal ("hook threw: " ++ Text.untilNul text))
  | threwOther : FailsWith .threwOther (.make .internal "hook threw a non-standard exception")

theorem HookOutcome.failsWith_iff {outcome : HookOutcome} {cause : Error} :
    outcome.FailsWith cause ↔ outcome.result = .error cause := by
  constructor
  · intro fails
    cases fails <;> rfl
  · intro failure
    cases outcome with
    | returned result =>
        cases failure
        exact .returned cause
    | threw text =>
        cases failure
        exact .threw text
    | threwOther =>
        cases failure
        exact .threwOther

/-- An error is found in the chain of all errors that wrap it. -/
theorem Error.chainHas_wrapping {cause : Error} {target : ErrorCode}
    (has : cause.chainHas target) (code : ErrorCode) (message : String) :
    (cause.wrapping code message).chainHas target := by
  simp [wrapping, chainHas, has]

theorem Agent.exists_health_eq_error {H : Type} {agent : Agent H}
    (resting : agent.state ≠ .running) :
    ∃ unhealthy, agent.health = .error unhealthy ∧ unhealthy.code = .unavailable :=
  ⟨_, if_neg resting, rfl⟩

namespace Operation

theorem phase_mem_all (operation : Operation) : operation.phase ∈ AgentState.all := by
  cases operation <;> decide

variable {H : Type} {operation : Operation} {profile : Profile H} {vitals : Vitals}

theorem settle_of_failsWith {outcome : HookOutcome} {cause : Error}
    (failed : outcome.FailsWith cause) (now : Instant) :
    operation.settle profile vitals now outcome = operation.abort profile vitals cause := by
  rw [settle, HookOutcome.failsWith_iff.mp failed]

/-- Where an agent is left that was to be marked as failed. -/
theorem state_abort (listed : vitals.state ∈ AgentState.all) (cause : Error) :
    (operation.abort profile vitals cause).vitals.state =
      if vitals.state = .stopped then .stopped else .failed := by
  rw [(CallSection.fulfils_abort profile vitals operation cause).vitals_eq]
  have allowed : vitals.state.canMoveTo .failed ↔ ¬ vitals.state.isTerminal := by
    simp [AgentState.canMoveTo_failed_iff, listed]
  by_cases terminal : vitals.state.isTerminal
  · rw [Vitals.afterAttempt, if_neg fun possible => allowed.mp possible terminal]
    revert terminal
    cases vitals.state <;> simp [AgentState.isTerminal]
  · have running : vitals.state ≠ .stopped := by
      intro stopped
      simp [stopped, AgentState.isTerminal] at terminal
    rw [Vitals.afterAttempt, if_pos (allowed.mpr terminal), if_neg running]

/-- Who is told that an agent has failed: everyone, if it could be marked. -/
theorem tellings_abort (listed : vitals.state ∈ AgentState.all) (cause : Error) :
    (operation.abort profile vitals cause).tellings =
      if vitals.state.isTerminal then [] else profile.tellingsOf (vitals.state, .failed) := by
  have fulfils := CallSection.fulfils_abort profile vitals operation cause
  rw [fulfils.tellings_eq, fulfils.change?_eq, Option.bind_some]
  have allowed : vitals.state.canMoveTo .failed ↔ ¬ vitals.state.isTerminal := by
    simp [AgentState.canMoveTo_failed_iff, listed]
  by_cases terminal : vitals.state.isTerminal <;> simp [allowed, terminal]

end Operation

/-! ## The call of a hook that fails -/

namespace Session

open SessionM

variable {session left : Session} {name : String} {agent : Agent Hook} {operation : Operation}
  {context : Context} {hook : Hook} {depth : Nat} {outcome : HookOutcome} {cause : Error}

/-- What a hook does leaves the profile of an agent as it was, and takes the agent along
the table of states. -/
theorem exists_agent_of_enterHook
    (entered : enterHook depth hook operation context session = some (outcome, left))
    (known : Fields.find? name session.agents = some agent) :
    ∃ found, Fields.find? name left.agents = some found ∧ found.profile = agent.profile ∧
      (agent.state ∈ AgentState.all → found.state ∈ AgentState.all) := by
  obtain ⟨found, present, profile, runs⟩ :=
    isFaithful_enterHook depth hook operation context session outcome left entered name agent
      known
  refine ⟨found, present, profile, fun listed => ?_⟩
  obtain ⟨later, _, run, there, _⟩ := runs agent _ rfl .begin rfl
  rw [Agent.state, ← there]
  exact run.isPath.mem_all listed

/-- An operation is called and its hook fails, in whatever way and whatever it has done
before. The call returns an internal error with the hook's error as its cause, so all codes
in the chain of that error are found in its own. The agent is left failed, or stopped if
this is how the hook has left it, and is not healthy. Nobody is told of anything that has
happened since the hook, except for the move to the failed state, if there was one. -/
theorem failure_of_failed_hook (known : Fields.find? name session.agents = some agent)
    (live : session.contexts.err context session.monotonicNow = none)
    (source : agent.state ∈ operation.sources)
    (registered : agent.profile.hooks.get operation = some hook)
    (entered : enterHook depth hook operation context (session.afterCommence name agent operation)
      = some (outcome, left))
    (failed : outcome.FailsWith cause) :
    let error := cause.wrapping .internal ("lifecycle: " ++ operation.name ++ " hook failed")
    error.code = .internal ∧ error.cause? = some cause ∧
      (∀ code, cause.chainHas code → error.chainHas code) ∧
      ∃ (found later : Agent Hook) (after : Session) (notices : List Notice),
        Fields.find? name left.agents = some found ∧
          operate (enterHook depth) name operation context session = some (.error error, after) ∧
          Fields.find? name after.agents = some later ∧
          later.state = (if found.state = .stopped then .stopped else .failed) ∧
          (∃ unhealthy, later.health = .error unhealthy ∧ unhealthy.code = .unavailable) ∧
          after.events = left.events ++ notices.map .noticed ∧
          notices.filterMap Notice.telling? =
            if found.state.isTerminal then [] else
              agent.profile.tellingsOf (found.state, .failed) := by
  intro error
  refine ⟨rfl, rfl, fun code has => Error.chainHas_wrapping has _ _, ?_⟩
  obtain ⟨found, present, profile, stays⟩ :=
    exists_agent_of_enterHook entered (find?_afterCommence source)
  have listed : found.vitals.state ∈ AgentState.all := stays operation.phase_mem_all
  let marking := operation.abort found.profile found.vitals cause
  have called : operate (enterHook depth) name operation context session =
      some (.error error, left.afterSection name found marking) := by
    rw [operate_of_mem_sources known live source, registered]
    dsimp only
    rw [bind_eq entered, settlement_eq present, Operation.settle_of_failsWith failed]
    rfl
  have state : marking.vitals.state = if found.state = .stopped then .stopped else .failed :=
    Operation.state_abort listed cause
  have resting : marking.vitals.state ≠ .running := by
    rw [state]
    split <;> decide
  refine ⟨found, { found with vitals := marking.vitals }, _, marking.notices, present, called,
    find?_afterSection_self .., state, Agent.exists_health_eq_error resting,
    events_afterSection .., ?_⟩
  rw [← show found.profile = agent.profile from profile]
  exact Operation.tellings_abort listed cause

end Session

/-- A hook for starting that takes the agent to running, stops it and throws. -/
def quittingHook : Hook :=
  .ofScripts "a"
    [[.ask (.setState "a" .running), .ask (.operate "a" .stop "call"), .throw "had enough"]]

/-- A failed agent that quits when it is started. -/
def quittingAgent : Agent Hook where
  profile :=
    { id := "agent-001"
      name := "test-agent"
      version := "1.0.0"
      capabilities := []
      hasLogger := true
      hooks := { start := some quittingHook }
      observers := [some ⟨"metrics", fun _ _ => .throws "full"⟩] }
  vitals := ⟨.failed, none⟩

def quittingSession : Session :=
  Session.addContext { agents := [("a", quittingAgent)], now := .epoch, monotonicNow := 0 }
    "call" Contexts.background

/-- A run of a hook has thrown with a text and has left the agent in a state. -/
def throwsFrom (text : String) (state : AgentState) (run : HookOutcome × Session) : Bool :=
  (match run.1 with
    | .threw other => other = text
    | _ => false) &&
  (Fields.find? "a" run.2.agents).any fun agent => agent.state = state

theorem failure_of_failed_hook_of_quittingAgent :
    let context := (Contexts.background {}).1
    let commenced := quittingSession.afterCommence "a" quittingAgent .start
    let error := (Error.make .internal "hook threw: had enough").wrapping .internal
      "lifecycle: start hook failed"
    ∃ (left after : Session) (later : Agent Hook) (notices : List Notice),
      Session.enterHook 2 quittingHook .start context commenced =
          some (.threw "had enough", left) ∧
        Session.operate (Session.enterHook 2) "a" .start context quittingSession =
          some (.error error, after) ∧
        Fields.find? "a" after.agents = some later ∧ later.state = .stopped ∧
        (∃ unhealthy, later.health = .error unhealthy ∧ unhealthy.code = .unavailable) ∧
        after.events = left.events ++ notices.map .noticed ∧
        notices.filterMap Notice.telling? = [] := by
  intro context commenced error
  have run : (Session.enterHook 2 quittingHook .start context commenced).any
      (throwsFrom "had enough" .stopped) := by
    decide +kernel
  obtain ⟨⟨outcome, left⟩, entered, ending⟩ := (Option.any_eq_true _ _).mp run
  simp only [throwsFrom, Bool.and_eq_true, Option.any_eq_true, decide_eq_true_eq] at ending
  obtain ⟨thrown, found, present, stopped⟩ := ending
  cases outcome with
  | returned result => cases thrown
  | threwOther => cases thrown
  | threw text =>
      obtain rfl : text = "had enough" := of_decide_eq_true thrown
      obtain ⟨_, _, _, found', later, after, notices, present', called, there, state, unhealthy,
        events, told⟩ := Session.failure_of_failed_hook rfl rfl (by decide) rfl entered (.threw _)
      obtain rfl : found' = found := Option.some.inj (present'.symm.trans present)
      refine ⟨left, after, later, notices, entered, called, there, ?_, unhealthy, events, ?_⟩
      · rw [state, if_pos stopped]
      · rw [told, stopped]
        rfl

end AgentKit
