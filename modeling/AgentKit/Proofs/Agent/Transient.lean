/-
# Transient states belong to calls

A starting agent is being started and a stopping one is being stopped: as long
as nobody changes the state directly, the call that made the last change, into
the transient state, is still to settle. It cannot have settled already, because
a call that settles in its own transient state leaves it, whichever way its hook
ends; calls that commenced in an earlier phase and settle late leave it too or
are refused. So no agent is left in a transient state when all calls have
returned.
-/

import AgentKit.Proofs.Agent.Calls
import AgentKit.Proofs.Agent.Path

namespace AgentKit

namespace Operation

variable {operation other : Operation} {state : AgentState}

theorem eq_of_transient? (own : operation.transient? = some state)
    (same : other.transient? = some state) : other = operation := by
  cases operation <;> cases other <;> cases own <;> cases same <;> rfl

/-- No operation leads to a transient state. -/
theorem target_ne_of_transient? (own : operation.transient? = some state) :
    other.target ≠ state := by
  cases operation <;> cases own <;> cases other <;> decide

theorem failed_ne_of_transient? (own : operation.transient? = some state) :
    AgentState.failed ≠ state := by
  cases operation <;> cases own <;> decide

theorem canMoveTo_target_of_transient? (own : operation.transient? = some state) :
    state.canMoveTo operation.target := by
  cases operation <;> cases own <;> rfl

theorem canMoveTo_failed_of_transient? (own : operation.transient? = some state) :
    state.canMoveTo .failed := by
  cases operation <;> cases own <;> rfl

end Operation

namespace CallSection

variable {operation : Operation} {state : AgentState} {part : CallSection}
  {startTime : StartTime}

/-- A call that settles in its own transient state is never refused. -/
theorem canMoveTo_of_settle (own : operation.transient? = some state) (outcome : HookOutcome)
    (now : Instant) : ∃ target startTime,
      (settle operation outcome now).attempt? = some (target, startTime) ∧
        state.canMoveTo target := by
  cases result : outcome.result with
  | ok _ =>
      exact ⟨operation.target, operation.startTime now, attempt?_of_sound result,
        operation.canMoveTo_target_of_transient? own⟩
  | error cause =>
      exact ⟨.failed, .keep, attempt?_of_failure result,
        operation.canMoveTo_failed_of_transient? own⟩

/-- Only one section of an operation asks for a transient state. -/
theorem eq_commence_of_attempt? (own : operation.transient? = some state)
    (asked : part.attempt? = some (state, startTime)) :
    part = .commence operation ∨ part = .setState state := by
  cases part with
  | setState target =>
      cases asked
      exact .inr rfl
  | gate other contextError => cases asked
  | inspect other => cases asked
  | commence other =>
      obtain ⟨transient, found, same⟩ := Option.map_eq_some_iff.mp asked
      cases same
      exact .inl (congrArg commence (operation.eq_of_transient? own found))
  | leaveHook other outcome => cases asked
  | settle other outcome now =>
      exfalso
      cases result : outcome.result with
      | ok _ =>
          cases (attempt?_of_sound result).symm.trans asked
          exact operation.target_ne_of_transient? own rfl
      | error cause =>
          cases (attempt?_of_failure result).symm.trans asked
          exact operation.failed_ne_of_transient? own rfl

end CallSection

namespace Interleaving

/-- A call is in the phase that it has begun by taking the agent into a state:
it has made the last change, into that state, and is still to settle. -/
def IsInPhase (interleaving : Interleaving) (caller : Nat) (operation : Operation)
    (state : AgentState) : Prop :=
  (∃ stage, interleaving.calls[caller]? = some stage ∧ stage.IsUnsettled operation) ∧
    ∃ earlier entry later source, interleaving.history = earlier ++ entry :: later ∧
      entry.caller = caller ∧ entry.part = .commence operation ∧
      entry.change? = some (source, state) ∧ Turn.changes later = []

end Interleaving

namespace Agent.Run

variable {H : Type} {agent : Agent H} {interleaving : Interleaving}
  {operation : Operation} {state : AgentState}

/-- A turn that leaves the agent in a transient state leaves it to the call it
belongs to. -/
theorem isInPhase_of_unchanged (own : operation.transient? = some state)
    (inState : interleaving.vitals.state = state) {caller : Nat} {part : CallSection}
    (due : interleaving.calls[caller]? = some part.dueAt)
    (unchanged : (interleaving.turn agent.profile caller part).change? = none) {holder : Nat}
    (held : interleaving.IsInPhase holder operation state) :
    (interleaving.after agent.profile (.turn caller part)).IsInPhase holder operation state := by
  obtain ⟨⟨stage, known, unsettled⟩, earlier, entry, later, source, history, rest⟩ := held
  obtain ⟨sameCaller, commenced, entered, quiet⟩ := rest
  refine ⟨?_, earlier, entry, later ++ [interleaving.turn agent.profile caller part], source, ?_,
    sameCaller, commenced, entered, ?_⟩
  · by_cases same : caller = holder
    · subst same
      have sameStage : stage = part.dueAt := Option.some.inj (known.symm.trans due)
      subst sameStage
      rcases CallSection.eq_of_isUnsettled_dueAt unsettled with
        ⟨outcome, rfl⟩ | ⟨outcome, now, rfl⟩
      · exact ⟨_, Interleaving.getElem?_calls_after_self due, .inr ⟨outcome, rfl⟩⟩
      · -- settling here would have changed the state
        obtain ⟨target, startTime, asked, possible⟩ :=
          CallSection.canMoveTo_of_settle own outcome now
        have changed := (CallSection.fulfils_carryOut agent.profile interleaving.vitals
          (.settle operation outcome now)).change?_eq
        rw [asked, inState, Option.bind_some, if_pos possible, ← inState] at changed
        exact absurd (unchanged.symm.trans changed) (by simp)
    · exact ⟨stage, (Interleaving.getElem?_calls_after_other same part).trans known, unsettled⟩
  · simp [Interleaving.after, history]
  · rw [Turn.changes, List.filterMap_append]
    simpa [Turn.changes, unchanged] using quiet

/-- A turn that takes the agent into a transient state begins a phase of its
call. -/
theorem isInPhase_of_changed (own : operation.transient? = some state) {caller : Nat}
    {part : CallSection} (due : interleaving.calls[caller]? = some part.dueAt)
    (indirect : part ≠ .setState state) {source : AgentState}
    (changed : (interleaving.turn agent.profile caller part).change? = some (source, state)) :
    (interleaving.after agent.profile (.turn caller part)).IsInPhase caller operation state := by
  have fulfils := CallSection.fulfils_carryOut agent.profile interleaving.vitals part
  obtain ⟨⟨target, startTime⟩, asked, found⟩ :=
    Option.bind_eq_some_iff.mp (fulfils.change?_eq.symm.trans changed)
  by_cases possible : interleaving.vitals.state.canMoveTo target
  · obtain ⟨rfl, rfl⟩ : interleaving.vitals.state = source ∧ target = state := by
      simpa [possible] using found
    rcases CallSection.eq_commence_of_attempt? own asked with rfl | direct
    · refine ⟨⟨.inHook operation, ?_, .inl rfl⟩, interleaving.history,
        interleaving.turn agent.profile caller (.commence operation), [], _, rfl, rfl, rfl,
        changed, rfl⟩
      have succeeded := CallSection.result_carryOut agent.profile interleaving.vitals asked id
      rw [Interleaving.getElem?_calls_after_self due, succeeded, if_pos possible]
      rfl
    · exact absurd direct indirect
  · simp [possible] at found

/-- Whenever an agent is in the transient state of an operation, a call of that
operation has taken it there and is still to settle. -/
theorem exists_isInPhase (run : agent.Run interleaving) (fresh : agent.vitals = {})
    (only : interleaving.OnlyOperations) (own : operation.transient? = some state)
    (inState : interleaving.vitals.state = state) :
    ∃ caller, interleaving.IsInPhase caller operation state := by
  induction run with
  | begin =>
      rw [fresh] at inState
      cases operation <;> simp [Operation.transient?, ← inState] at own
  | @next interleaving run event admitted ih =>
      have before := only.of_after admitted
      cases event with
      | made call =>
          obtain ⟨caller, ⟨stage, known, unsettled⟩, entered⟩ := ih before inState
          exact ⟨caller, ⟨stage, Interleaving.getElem?_calls_after_made call known, unsettled⟩,
            entered⟩
      | turn caller part =>
          by_cases same : interleaving.vitals.state = state
          · obtain ⟨holder, held⟩ := ih before same
            refine ⟨holder, isInPhase_of_unchanged own same admitted.1 ?_ held⟩
            exact if_pos (same.trans inState.symm)
          · have changed : (interleaving.turn agent.profile caller part).change? =
                some (interleaving.vitals.state, state) := by
              rw [← inState] at same ⊢
              exact if_neg same
            exact ⟨caller, isInPhase_of_changed own admitted.1
              (before.ne_setState admitted.1 state) changed⟩

end Agent.Run

/-- As long as nobody changes the state directly, an agent is only starting
while a start that has taken it there is still to settle, and only stopping
while such a stop is. When all calls have returned, it is in neither state. -/
theorem transient_state_has_call {H : Type} {builder : AgentBuilder H} {agent : Agent H}
    (built : builder.build = .ok agent) {interleaving : Interleaving}
    (run : agent.Run interleaving) (only : interleaving.OnlyOperations) :
    (interleaving.vitals.state = .starting →
        ∃ caller, interleaving.IsInPhase caller .start .starting) ∧
      (interleaving.vitals.state = .stopping →
        ∃ caller, interleaving.IsInPhase caller .stop .stopping) ∧
      ((∀ stage ∈ interleaving.calls, stage.HasReturned) →
        interleaving.vitals.state ∈ [.unknown, .running, .paused, .stopped, .failed]) := by
  obtain ⟨_, _, _, fresh⟩ := builder.profile_of_build built
  have starting : interleaving.vitals.state = .starting →
      ∃ caller, interleaving.IsInPhase caller .start .starting :=
    run.exists_isInPhase fresh only rfl
  have stopping : interleaving.vitals.state = .stopping →
      ∃ caller, interleaving.IsInPhase caller .stop .stopping :=
    run.exists_isInPhase fresh only rfl
  refine ⟨starting, stopping, ?_⟩
  intro returned
  have nobody : ∀ caller operation state, ¬ interleaving.IsInPhase caller operation state := by
    rintro caller operation state ⟨⟨stage, known, unsettled⟩, _⟩
    have back := returned stage (List.mem_of_getElem? known)
    rcases unsettled with rfl | ⟨outcome, rfl⟩
    · exact back
    · exact back
  have listed : interleaving.vitals.state ∈ AgentState.all :=
    run.isPath.mem_all (by rw [fresh]; decide)
  have notStarting : interleaving.vitals.state ≠ .starting := fun inState =>
    (starting inState).elim fun caller => nobody caller _ _
  have notStopping : interleaving.vitals.state ≠ .stopping := fun inState =>
    (stopping inState).elim fun caller => nobody caller _ _
  simpa [AgentState.all, notStarting, notStopping] using listed

/-- An agent is stopped while it is started, and started anew before the first
start comes back from its hook. -/
def restartedWhileStarting : List Interleaving.Event :=
  Interleaving.opening 0 .start ++ Interleaving.undisturbed 1 .stop .epoch ++
    Interleaving.opening 2 .start

theorem transient_state_has_call_of_restartedWhileStarting :
    watchedBuilder.build = .ok watchedAgent ∧
      watchedAgent.Run (watchedAgent.interleaved restartedWhileStarting) ∧
      (watchedAgent.interleaved restartedWhileStarting).OnlyOperations ∧
      (watchedAgent.interleaved restartedWhileStarting).vitals.state = .starting ∧
      ∃ caller,
        (watchedAgent.interleaved restartedWhileStarting).IsInPhase caller .start .starting := by
  have run : watchedAgent.Run (watchedAgent.interleaved restartedWhileStarting) := by
    apply Agent.Run.begin.afterAll
    repeat' constructor
    exact fun _ => rfl
  have built : watchedBuilder.build = .ok watchedAgent := rfl
  have only : (watchedAgent.interleaved restartedWhileStarting).OnlyOperations :=
    .of_called [.start, .stop, .start] rfl
  exact ⟨built, run, only, rfl, (transient_state_has_call built run only).1 rfl⟩

end AgentKit
