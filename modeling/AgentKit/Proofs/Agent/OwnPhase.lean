/-
# The phase that a call settles in

A call that has commenced has the agent in the phase of its operation: a start
has it starting, and a resume has made sure that it is paused. Only the table of
states is asked again when the call settles, and it allows a move to running
from either phase. Whether the agent is still in the phase of the call has then
been decided by the others: it is, unless another call has taken the agent
elsewhere while the hook was running and nobody has moved it since.
-/

import AgentKit.Proofs.Agent.Calls
import AgentKit.Proofs.Agent.Path

namespace AgentKit

/-- The state in which the agent is when a call of an operation gets to its
hook. -/
def Operation.phase : Operation → AgentState
  | start => .starting
  | stop => .stopping
  | pause => .running
  | resume => .paused

theorem Operation.phase_eq_of_transient? {operation : Operation} {transient : AgentState}
    (own : operation.transient? = some transient) : operation.phase = transient := by
  cases operation <;> cases own <;> rfl

theorem Operation.phase_eq_of_precondition {operation : Operation} {state : AgentState}
    (steady : operation.transient? = none) (met : operation.precondition state) :
    operation.phase = state := by
  cases operation with
  | start | stop => cases steady
  | pause =>
      simp only [precondition, Bool.and_eq_true] at met
      exact (AgentState.canMoveTo_paused_iff.mp met.1).symm
  | resume =>
      simp only [precondition, Bool.and_eq_true, Bool.or_eq_true, decide_eq_true_eq] at met
      rcases met.2 with other | paused
      · exact absurd rfl other
      · exact paused.symm

namespace CallSection

variable {H : Type} {profile : Profile H} {vitals : Vitals} {operation : Operation}

/-- An operation that has commenced has the agent in its phase. -/
theorem phase_of_commence
    (success : ((commence operation).carryOut profile vitals).result = .ok ()) :
    ((commence operation).carryOut profile vitals).vitals.state = operation.phase := by
  rw [(fulfils_carryOut profile vitals (commence operation)).vitals_eq]
  cases own : operation.transient? with
  | none =>
      have met : operation.precondition vitals.state := by
        by_cases met : operation.precondition vitals.state
        · exact met
        · simp [carryOut, Operation.commence, own, met] at success
      simp [attempt?, own, Vitals.afterAttempt, operation.phase_eq_of_precondition own met]
  | some transient =>
      have asked : (commence operation).attempt? = some (transient, .keep) := by
        simp [attempt?, own]
      rw [result_carryOut profile vitals asked id] at success
      by_cases possible : vitals.state.canMoveTo transient
      · simp [asked, Vitals.afterAttempt, possible, operation.phase_eq_of_transient? own]
      · simp [possible] at success

/-- A call that has settled with success has asked for the target of its
operation and has been granted it. -/
theorem attempt?_of_settle {outcome : HookOutcome} {now : Instant}
    (success : ((settle operation outcome now).carryOut profile vitals).result = .ok ()) :
    (settle operation outcome now).attempt? = some (operation.target, operation.startTime now) ∧
      vitals.state.canMoveTo operation.target := by
  cases result : outcome.result with
  | ok _ =>
      have asked : (settle operation outcome now).attempt? =
          some (operation.target, operation.startTime now) := attempt?_of_sound result
      have sound : ¬ (settle operation outcome now).HasFailedHook := by
        rintro ⟨cause, failure⟩
        rw [result] at failure
        cases failure
      rw [result_carryOut profile vitals asked sound] at success
      refine ⟨asked, ?_⟩
      by_cases possible : vitals.state.canMoveTo operation.target
      · exact possible
      · simp [possible] at success
  | error cause => simp [carryOut, Operation.settle, Operation.abort, result] at success

end CallSection

/-! ## The course of a call -/

/-- The turns in which a call commences and settles, in the midst of all
others. -/
structure Course where
  earlier : List Turn
  entry : Turn
  during : List Turn
  commit : Turn
  later : List Turn

namespace Course

/-- The history with a course in it. -/
def turns (course : Course) : List Turn :=
  course.earlier ++ course.entry :: (course.during ++ course.commit :: course.later)

/-- The course of a call that has carried out an operation with success. All
changes that the call has made are those on entry, if any, and on commitment. -/
structure IsOf (course : Course) (interleaving : Interleaving) (caller : Nat)
    (operation : Operation) : Prop where
  turns_eq : course.turns = interleaving.history
  entry_caller : course.entry.caller = caller
  entry_part : course.entry.part = .commence operation
  entry_state : course.entry.outcome.vitals.state = operation.phase
  alone : ∀ turn ∈ course.during, turn.caller = caller → turn.change? = none
  commit_caller : course.commit.caller = caller
  commit_part : ∃ outcome now, course.commit.part = .settle operation outcome now
  commit_change : course.commit.change? = some (course.commit.before.state, operation.target)
  changes_eq : Turn.changes (interleaving.turnsOf caller) =
    course.entry.change?.toList ++ [(course.commit.before.state, operation.target)]

/-- While the hook was running, another call has taken the agent to a state other
than the phase of the operation, and nobody has moved it since. -/
def IsOvertaken (course : Course) (operation : Operation) : Prop :=
  ∃ before intruder after source state, course.during = before ++ intruder :: after ∧
    intruder.caller ≠ course.entry.caller ∧ intruder.change? = some (source, state) ∧
    state ≠ operation.phase ∧ Turn.changes after = []

end Course

/-- Where two turns of a call stand in the history, and what the call has done
between them. -/
theorem Interleaving.exists_between {interleaving : Interleaving} {caller : Nat}
    (front middle : List Turn) {entry commit : Turn}
    (turns : interleaving.turnsOf caller = front ++ entry :: (middle ++ [commit])) :
    ∃ earlier during later,
      interleaving.history = earlier ++ entry :: (during ++ commit :: later) ∧
        during.filter (fun turn => turn.caller = caller) = middle := by
  obtain ⟨before, rest, whole, _, split⟩ := List.filter_eq_append_iff.mp turns
  obtain ⟨waiting, rest, rfl, _, _, split⟩ := List.filter_eq_cons_iff.mp split
  obtain ⟨first, rest, rfl, own, split⟩ := List.filter_eq_append_iff.mp split
  obtain ⟨second, later, rfl, others, _, _⟩ := List.filter_eq_cons_iff.mp split
  refine ⟨before ++ waiting, first ++ second, later, ?_, ?_⟩
  · rw [whole]
    simp only [List.append_assoc]
  · rw [List.filter_append, own, List.filter_eq_nil_iff.mpr others, List.append_nil]

namespace Agent.Run

variable {H : Type} {agent : Agent H} {interleaving : Interleaving}

theorem change?_eq_none (run : agent.Run interleaving) {turn : Turn}
    (happened : turn ∈ interleaving.history) (idle : turn.part.attempt? = none) :
    turn.change? = none := by
  have changed := (run.fulfils happened).change?_eq
  rw [idle] at changed
  exact changed

/-- A call that has carried out an operation with success has gone through its
sections one after the other. -/
theorem exists_turnsOf_eq (run : agent.Run interleaving) {caller : Nat} {operation : Operation}
    (notStop : operation ≠ .stop)
    (returned : interleaving.calls[caller]? =
      some (.returned (.operate operation) (.ok ()))) :
    ∃ gate inspect entry leave commit outcome now,
      interleaving.turnsOf caller = [gate, inspect, entry, leave, commit] ∧
        gate.part = .gate operation none ∧ inspect.part = .inspect operation ∧
        entry.part = .commence operation ∧ leave.part = .leaveHook operation outcome ∧
        commit.part = .settle operation outcome now ∧
        entry.outcome.result = .ok () ∧ commit.outcome.result = .ok () := by
  obtain ⟨succeeded, ⟨outcome, now, parts⟩ | ⟨stopping, _⟩⟩ := run.isReachedBy returned
  · obtain ⟨gate, rest, turns, gatePart, parts⟩ := List.map_eq_cons_iff.mp parts
    obtain ⟨inspect, rest, rfl, inspectPart, parts⟩ := List.map_eq_cons_iff.mp parts
    obtain ⟨entry, rest, rfl, entryPart, parts⟩ := List.map_eq_cons_iff.mp parts
    obtain ⟨leave, rest, rfl, leavePart, parts⟩ := List.map_eq_cons_iff.mp parts
    obtain ⟨commit, rfl, commitPart⟩ := List.map_eq_singleton_iff.mp parts
    rw [turns] at succeeded
    exact ⟨gate, inspect, entry, leave, commit, outcome, now, turns, gatePart, inspectPart,
      entryPart, leavePart, commitPart, succeeded entry (by simp), succeeded commit (by simp)⟩
  · exact absurd stopping notStop

theorem exists_course (run : agent.Run interleaving) {caller : Nat} {operation : Operation}
    (notStop : operation ≠ .stop)
    (returned : interleaving.calls[caller]? =
      some (.returned (.operate operation) (.ok ()))) :
    ∃ course : Course, course.IsOf interleaving caller operation := by
  obtain ⟨gate, inspect, entry, leave, commit, outcome, now, turns, gatePart, inspectPart,
    entryPart, leavePart, commitPart, entered, committed⟩ := run.exists_turnsOf_eq notStop returned
  have own : ∀ turn ∈ [gate, inspect, entry, leave, commit],
      turn ∈ interleaving.history ∧ turn.caller = caller := by
    intro turn mem
    rw [← turns] at mem
    exact Interleaving.mem_turnsOf.mp mem
  obtain ⟨earlier, during, later, whole, middle⟩ :=
    Interleaving.exists_between [gate, inspect] [leave] turns
  have gateIdle : gate.change? = none :=
    run.change?_eq_none (own gate (by simp)).1 (by rw [gatePart]; rfl)
  have inspectIdle : inspect.change? = none :=
    run.change?_eq_none (own inspect (by simp)).1 (by rw [inspectPart]; rfl)
  have leaveIdle : leave.change? = none :=
    run.change?_eq_none (own leave (by simp)).1 (by rw [leavePart]; rfl)
  have changed : commit.change? = some (commit.before.state, operation.target) := by
    have here := (own commit (by simp)).1
    rw [run.outcome_eq here, commitPart] at committed
    obtain ⟨asked, possible⟩ := CallSection.attempt?_of_settle committed
    have change := (run.fulfils here).change?_eq
    rw [commitPart, asked, Option.bind_some, if_pos possible] at change
    exact change
  refine ⟨⟨earlier, entry, during, commit, later⟩, whole.symm, (own entry (by simp)).2, entryPart,
    ?_, ?_, (own commit (by simp)).2, ⟨outcome, now, commitPart⟩, changed, ?_⟩
  · rw [run.outcome_eq (own entry (by simp)).1, entryPart] at entered ⊢
    exact CallSection.phase_of_commence entered
  · intro turn mem same
    have found : turn ∈ during.filter (fun turn => turn.caller = caller) :=
      List.mem_filter.mpr ⟨mem, decide_eq_true same⟩
    rw [middle] at found
    rw [List.mem_singleton.mp found]
    exact leaveIdle
  · rw [turns]
    cases entryChange : entry.change? <;>
      simp [Turn.changes, gateIdle, inspectIdle, leaveIdle, changed, entryChange]

end Agent.Run

/-! ## Being overtaken -/

/-- The turn that has made the last change. -/
theorem Turn.exists_last_change {turns : List Turn} {change : AgentState × AgentState}
    (last : (Turn.changes turns).getLast? = some change) :
    ∃ before turn after, turns = before ++ turn :: after ∧ turn.change? = some change ∧
      Turn.changes after = [] := by
  obtain ⟨init, changes⟩ := List.getLast?_eq_some_iff.mp last
  obtain ⟨before, rest, rfl, _, final⟩ := List.filterMap_eq_append_iff.mp changes
  obtain ⟨quiet, turn, after, rfl, _, changed, nothing⟩ := List.filterMap_eq_cons_iff.mp final
  exact ⟨before ++ quiet, turn, after, by rw [List.append_assoc], changed, nothing⟩

namespace Course.IsOf

variable {H : Type} {agent : Agent H} {interleaving : Interleaving} {course : Course}
  {caller : Nat} {operation : Operation}

/-- When it commits, a call finds the agent where the last change since its entry
has led. -/
theorem commit_state (own : course.IsOf interleaving caller operation)
    (run : agent.Run interleaving) :
    course.commit.before.state =
      ((Turn.changes course.during).getLast?.map Prod.snd).getD operation.phase := by
  have linked := run.linked
  rw [← own.turns_eq] at linked
  obtain ⟨_, _, rfl, linked⟩ := Turn.linked_append.mp linked
  obtain ⟨_, linked, rfl, _⟩ := Turn.linked_append.mp linked
  have fulfil : ∀ turn ∈ course.during,
      turn.outcome.Fulfils agent.profile turn.before turn.part.attempt? := by
    intro turn mem
    apply run.fulfils
    rw [← own.turns_eq]
    simp [turns, mem]
  rw [← own.entry_state]
  exact (linked.isPath fulfil).eq_getLast?

theorem isOvertaken_iff (own : course.IsOf interleaving caller operation)
    (run : agent.Run interleaving) :
    course.IsOvertaken operation ↔ course.commit.before.state ≠ operation.phase := by
  rw [own.commit_state run]
  constructor
  · rintro ⟨before, intruder, after, source, state, during, _, changed, other, quiet⟩
    have last : Turn.changes course.during = Turn.changes before ++ [(source, state)] := by
      unfold Turn.changes at quiet ⊢
      simp [during, changed, quiet]
    rw [last, List.getLast?_concat]
    exact other
  · intro other
    cases last : (Turn.changes course.during).getLast? with
    | none =>
        rw [last] at other
        exact absurd rfl other
    | some change =>
        rw [last] at other
        obtain ⟨before, intruder, after, during, changed, quiet⟩ := Turn.exists_last_change last
        refine ⟨before, intruder, after, change.1, change.2, during, ?_, changed, other, quiet⟩
        intro same
        have mem : intruder ∈ course.during := by
          rw [during]
          exact List.mem_append_right before List.mem_cons_self
        have idle := own.alone intruder mem (same.trans own.entry_caller)
        rw [changed] at idle
        cases idle

/-- The last change that a call makes is the one it commits. -/
theorem getLast?_changes (own : course.IsOf interleaving caller operation) :
    (Turn.changes (interleaving.turnsOf caller)).getLast? =
      some (course.commit.before.state, operation.target) := by
  rw [own.changes_eq, List.getLast?_concat]

end Course.IsOf

/-- A start or resume that has returned with success has commenced in its phase,
has changed nothing while its hook was running, and has committed a move to
running at last. This move leads out of the call's own phase, that is from
starting for a start and from paused for a resume, if and only if no other call
has overtaken it; otherwise it leads out of the phase of the other operation. -/
theorem commits_own_phase_iff {H : Type} {agent : Agent H} {interleaving : Interleaving}
    (run : agent.Run interleaving) {caller : Nat} {operation : Operation}
    (toRunning : operation.target = .running)
    (returned : interleaving.calls[caller]? =
      some (.returned (.operate operation) (.ok ()))) :
    ∃ course : Course, course.IsOf interleaving caller operation ∧
      (course.commit.change? = some (.starting, .running) ∨
        course.commit.change? = some (.paused, .running)) ∧
      (course.commit.change? = some (operation.phase, .running) ↔
        ¬ course.IsOvertaken operation) := by
  have notStop : operation ≠ .stop := by
    rintro rfl
    cases toRunning
  obtain ⟨course, own⟩ := run.exists_course notStop returned
  have changed := own.commit_change
  rw [toRunning] at changed
  refine ⟨course, own, ?_, ?_⟩
  · have happened : course.commit ∈ interleaving.history := by
      rw [← own.turns_eq]
      simp [Course.turns]
    have path := Turn.isPath_change? (run.fulfils happened)
    rw [changed] at path
    rcases AgentState.canMoveTo_running_iff.mp path.2.1 with starting | paused
    · exact .inl (changed.trans (by rw [starting]))
    · exact .inr (changed.trans (by rw [paused]))
  · rw [own.isOvertaken_iff run, Classical.not_not, changed]
    simp

/-- While the agent is being started, it is stopped, started anew and paused. -/
def startOverPause : List Interleaving.Event :=
  Interleaving.opening 0 .start ++ Interleaving.undisturbed 1 .stop .epoch ++
    Interleaving.undisturbed 2 .start .epoch ++ Interleaving.undisturbed 3 .pause .epoch ++
    Interleaving.closing 0 .start (.returned (.ok ())) .epoch

/-- One of the two starts is overtaken and the other is not. -/
theorem commits_own_phase_iff_of_startOverPause :
    watchedAgent.Run (watchedAgent.interleaved startOverPause) ∧
      (∃ course : Course, course.IsOf (watchedAgent.interleaved startOverPause) 2 .start ∧
        ¬ course.IsOvertaken .start) ∧
      ∃ course : Course, course.IsOf (watchedAgent.interleaved startOverPause) 0 .start ∧
        course.IsOvertaken .start := by
  have run : watchedAgent.Run (watchedAgent.interleaved startOverPause) := by
    apply Agent.Run.begin.afterAll
    repeat' constructor
    all_goals exact fun _ => rfl
  refine ⟨run, ?_, ?_⟩
  · have returned : (watchedAgent.interleaved startOverPause).calls[2]? =
        some (.returned (.operate .start) (.ok ())) := rfl
    obtain ⟨course, own, _, proper⟩ := commits_own_phase_iff run rfl returned
    have last : some (AgentState.starting, AgentState.running) = _ := own.getLast?_changes
    exact ⟨course, own, proper.mp (own.commit_change.trans last.symm)⟩
  · have returned : (watchedAgent.interleaved startOverPause).calls[0]? =
        some (.returned (.operate .start) (.ok ())) := rfl
    obtain ⟨course, own, _, proper⟩ := commits_own_phase_iff run rfl returned
    have last : some (AgentState.paused, AgentState.running) = _ := own.getLast?_changes
    refine ⟨course, own, Classical.byContradiction fun notOvertaken => ?_⟩
    have changed := own.commit_change.symm.trans (proper.mpr notOvertaken)
    rw [← last] at changed
    cases changed

/-- The hook of a resume stops the agent and takes it on to starting. -/
def resumeOverStart : List Interleaving.Event :=
  Interleaving.undisturbed 0 .start .epoch ++ Interleaving.undisturbed 1 .pause .epoch ++
    Interleaving.opening 2 .resume ++ Interleaving.undisturbed 3 .stop .epoch ++
    [.made (.setState .starting), .turn 4 (.setState .starting)] ++
    Interleaving.closing 2 .resume (.returned (.ok ())) .epoch

/-- A start can return with success although the only move to running that it has
made was out of the paused state, and a resume although the only one was out of
the starting state. -/
theorem success_in_other_phase :
    (watchedAgent.Run (watchedAgent.interleaved startOverPause) ∧
      (watchedAgent.interleaved startOverPause).calls[0]? =
        some (.returned (.operate .start) (.ok ())) ∧
      Turn.changes ((watchedAgent.interleaved startOverPause).turnsOf 0) =
        [(.unknown, .starting), (.paused, .running)]) ∧
      watchedAgent.Run (watchedAgent.interleaved resumeOverStart) ∧
      (watchedAgent.interleaved resumeOverStart).calls[2]? =
        some (.returned (.operate .resume) (.ok ())) ∧
      Turn.changes ((watchedAgent.interleaved resumeOverStart).turnsOf 2) =
        [(.starting, .running)] := by
  refine ⟨⟨Agent.Run.begin.afterAll ?_, rfl, rfl⟩, Agent.Run.begin.afterAll ?_, rfl, rfl⟩
  · repeat' constructor
    all_goals exact fun _ => rfl
  · repeat' constructor
    all_goals exact fun _ => rfl

end AgentKit
